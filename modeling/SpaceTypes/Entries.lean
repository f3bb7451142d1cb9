/-!
# Lists of entries

An entry is a key with a value, and `List.lookup` gives the value of the first entry of a key. Where
no key has two entries, as in registries and in tables by name, this is the only one.
-/

namespace SpaceTypes

namespace Entries

variable {α β : Type} [BEq α] [LawfulBEq α] {entries : List (α × β)} {key : α} {value : β}

theorem lookup_eq_none_iff_notMem : entries.lookup key = none ↔ key ∉ entries.map Prod.fst := by
  rw [List.lookup_eq_none_iff, List.mem_map]
  constructor
  · rintro h ⟨e, he, rfl⟩
    simpa using h e he
  · intro h e he
    rw [bne_iff_ne]
    exact fun hkey => h ⟨e, he, hkey.symm⟩

theorem mem_of_lookup (h : entries.lookup key = some value) : (key, value) ∈ entries := by
  obtain ⟨before, after, rfl, -⟩ := List.lookup_eq_some_iff.1 h
  simp

/-- Where keys have one entry each, what a key is looked up to is what stands beside it. -/
theorem mem_iff_lookup (hnodup : (entries.map Prod.fst).Nodup) :
    (key, value) ∈ entries ↔ entries.lookup key = some value := by
  refine ⟨fun hmem => ?_, mem_of_lookup⟩
  obtain ⟨before, after, rfl⟩ := List.append_of_mem hmem
  rw [List.map_append, List.map_cons, List.nodup_append] at hnodup
  refine List.lookup_eq_some_iff.2 ⟨before, after, rfl, fun e he => ?_⟩
  rw [bne_iff_ne, ne_comm]
  exact hnodup.2.2 _ (List.mem_map_of_mem he) _ List.mem_cons_self

end Entries

end SpaceTypes
