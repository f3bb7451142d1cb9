import Mathlib
import SpaceTypes.Ty.Subtype

/-!
# What the outermost layer records

Inference changes a type in one way only: it records a property that was unset in the outermost
layer. This module has what such a change does to the type. `Ty.bare` is what it cannot touch,
`Ty.recorded` is the list at whose end it writes, and `Ty.GrowsTo` is the order between a type and
what becomes of it.

No property has two entries, and its value is what stands in its entry (`Ty.mem_recorded_iff`). So
entries at the end never change a value that is known.
-/

namespace SpaceTypes

/-- A value that is neither unset nor false is true. -/
theorem eq_some_true {value : Option Bool} (hset : value ≠ none) (hnot : value ≠ some false) :
    value = some true := by
  rcases value with _ | _ | _
  · exact absurd rfl hset
  · exact absurd rfl hnot
  · rfl

namespace Registry

variable {α : Type} [DecidableEq α]

theorem holds_iff {r : Registry α} {p : α} : r.holds p = true ↔ r.get? p = some true := by
  unfold holds
  cases r.get? p <;> simp

theorem holdsAll_iff {r : Registry α} {properties : List α} :
    r.holdsAll properties = true ↔ ∀ p ∈ properties, r.get? p = some true := by
  simp only [holdsAll, List.all_eq_true, holds_iff]

end Registry

namespace Ty

variable {ρ : Type}

/-! ## Values and entries -/

theorem lookup_map_property {α : Type} [DecidableEq α] {f : α → Property}
    (hf : ∀ p q, f p = f q → p = q) (p : α) (entries : List (α × Bool)) :
    (entries.map fun e => (f e.1, e.2)).lookup (f p) = entries.lookup p := by
  induction entries with
  | nil => rfl
  | cons e rest ih =>
    have heq : (f p == f e.1) = (p == e.1) := by
      rw [Bool.eq_iff_iff, beq_iff_eq, beq_iff_eq]
      exact ⟨hf p e.1, fun h => by rw [h]⟩
    simp only [List.map_cons, List.lookup, heq, ih]

/-- The value of a property is the first entry for it. -/
theorem value?_eq_lookup (t : Ty ρ) (p : Property) : t.value? p = t.recorded.lookup p := by
  have absent : ∀ {α : Type} {f : α → Property} (entries : List (α × Bool)),
      (∀ q, p ≠ f q) → (entries.map fun e => (f e.1, e.2)).lookup p = none := by
    intro α f entries h
    rw [List.lookup_eq_none_iff]
    rintro e he
    obtain ⟨e', -, rfl⟩ := List.mem_map.1 he
    simpa using h e'.1
  cases t with
  | basic name => cases p <;> rfl
  | dependent base clauses => cases p <;> rfl
  | topology base registry =>
    cases p with
    | topology p =>
      rw [recorded, lookup_map_property (fun _ _ h => Property.topology.inj h)]
      rfl
    | quantum p => exact (absent _ (fun _ h => by cases h)).symm
  | quantum base registry =>
    cases p with
    | topology p => exact (absent _ (fun _ h => by cases h)).symm
    | quantum p =>
      rw [recorded, lookup_map_property (fun _ _ h => Property.quantum.inj h)]
      rfl

theorem nodup_map_property {α : Type} {f : α → Property} (hf : Function.Injective f)
    (registry : Registry α) :
    ((registry.entries.map fun e => (f e.1, e.2)).map Prod.fst).Nodup := by
  have hkeys : (registry.entries.map fun e => (f e.1, e.2)).map Prod.fst =
      (registry.entries.map Prod.fst).map f := by
    rw [List.map_map, List.map_map]
    rfl
  rw [hkeys]
  exact registry.nodup.map hf

/-- No property has two entries. -/
theorem nodup_recorded (t : Ty ρ) : (t.recorded.map Prod.fst).Nodup := by
  cases t with
  | basic name => exact List.nodup_nil
  | dependent base clauses => exact List.nodup_nil
  | topology base registry =>
    exact nodup_map_property (fun _ _ h => Property.topology.inj h) registry
  | quantum base registry => exact nodup_map_property (fun _ _ h => Property.quantum.inj h) registry

/-- Each entry has the value of its property. -/
theorem mem_recorded_iff {t : Ty ρ} {p : Property} {v : Bool} :
    (p, v) ∈ t.recorded ↔ t.value? p = some v := by
  rw [Entries.mem_iff_lookup t.nodup_recorded, value?_eq_lookup]

theorem kind_of_mem_recorded {t : Ty ρ} {e : Property × Bool} (h : e ∈ t.recorded) :
    t.kind = e.1.kind := by
  cases t with
  | basic name => cases h
  | dependent base clauses => cases h
  | topology base registry =>
    obtain ⟨e', -, rfl⟩ := List.mem_map.1 h
    rfl
  | quantum base registry =>
    obtain ⟨e', -, rfl⟩ := List.mem_map.1 h
    rfl

theorem kind_of_value? {t : Ty ρ} {p : Property} {v : Bool} (h : t.value? p = some v) :
    t.kind = p.kind :=
  kind_of_mem_recorded (mem_recorded_iff.2 h)

/-- An unset property is recorded at the end. -/
theorem recorded_record {t : Ty ρ} {p : Property} (hk : t.kind = p.kind) (hu : t.value? p = none)
    (v : Bool) : (t.record p v).recorded = t.recorded ++ [(p, v)] := by
  cases t with
  | basic name => cases p <;> cases hk
  | dependent base clauses => cases p <;> cases hk
  | topology base registry =>
    cases p with
    | topology p =>
      have hset : (registry.set p v).entries = _ := Registry.entries_set_of_unset hu v
      simp [record, recorded, hset]
    | quantum p => cases hk
  | quantum base registry =>
    cases p with
    | topology p => cases hk
    | quantum p =>
      have hset : (registry.set p v).entries = _ := Registry.entries_set_of_unset hu v
      simp [record, recorded, hset]

theorem value?_record_of_ne {t : Ty ρ} {p q : Property} (h : q ≠ p) (v : Bool) :
    (t.record p v).value? q = t.value? q := by
  cases t <;> cases p <;> cases q <;> first
    | rfl
    | exact Registry.get?_set_of_ne _ (fun eq => h (by rw [eq])) v

/-! ## The layers below -/

/-- The type with nothing recorded in its outermost layer. -/
def bare : Ty ρ → Ty ρ
  | topology base _ => topology base .empty
  | quantum base _ => quantum base .empty
  | t => t

@[simp]
theorem bare_record (t : Ty ρ) (p : Property) (v : Bool) : (t.record p v).bare = t.bare := by
  cases t <;> cases p <;> rfl

@[simp]
theorem kind_bare (t : Ty ρ) : t.bare.kind = t.kind := by cases t <;> rfl

theorem kind_eq_of_bare_eq {t s : Ty ρ} (h : t.bare = s.bare) : t.kind = s.kind := by
  rw [← kind_bare t, h, kind_bare]

@[simp]
theorem text_bare (t : Ty ρ) : t.bare.text = t.text := by cases t <;> rfl

theorem text_eq_of_bare_eq {t s : Ty ρ} (h : t.bare = s.bare) : t.text = s.text := by
  rw [← text_bare t, h, text_bare]

@[simp]
theorem base?_bare (t : Ty ρ) : t.bare.base? = t.base? := by cases t <;> rfl

theorem chain_eq (t : Ty ρ) : t.chain = t :: (t.base?.map chain).getD [] := by cases t <;> rfl

/-- Types that differ in their outermost registries only have the same bases. -/
theorem mem_chain_of_bare_eq {t s layer : Ty ρ} (h : t.bare = s.bare) (hlayer : layer ∈ t.chain) :
    layer = t ∨ layer ∈ s.chain := by
  have hbase : t.base? = s.base? := by rw [← base?_bare t, h, base?_bare]
  rw [chain_eq, hbase, List.mem_cons] at hlayer
  rw [chain_eq s]
  exact hlayer.imp_right (List.mem_cons_of_mem s)

/-- Without dependent layers on the outside, the outermost registries do not matter for
subtyping. -/
theorem isSubtype_bare [Meaning ρ] [DecidableEq ρ] (h : Hierarchy) {t s : Ty ρ}
    (ht : t.kind ≠ .dependent) (hs : s.kind ≠ .dependent) :
    isSubtype h t s = isSubtype h t.bare s.bare := by
  by_cases hk : t.kind = s.kind
  · cases t with
    | basic name => cases s <;> rfl
    | topology base registry =>
      cases s with
      | topology base' registry' => simp only [bare, isSubtype_topology_topology]
      | _ => cases hk
    | quantum base registry =>
      cases s with
      | quantum base' registry' => simp only [bare, isSubtype_quantum_quantum]
      | _ => cases hk
    | dependent base clauses => exact absurd rfl ht
  · rw [isSubtype_of_kind_ne h ht hs hk, isSubtype_of_kind_ne h] <;> simpa

/-! ## Growth -/

/-- The second type is the first one with more entries at the end of its outermost registry. -/
structure GrowsTo (t t' : Ty ρ) : Prop where
  /-- Nothing else has changed. -/
  bare_eq : t.bare = t'.bare
  /-- The entries are kept, in order. -/
  recorded_prefix : t.recorded <+: t'.recorded

theorem GrowsTo.refl (t : Ty ρ) : t.GrowsTo t := ⟨rfl, List.prefix_refl _⟩

theorem GrowsTo.trans {t t' t'' : Ty ρ} (h : t.GrowsTo t') (h' : t'.GrowsTo t'') :
    t.GrowsTo t'' :=
  ⟨h.bare_eq.trans h'.bare_eq, h.recorded_prefix.trans h'.recorded_prefix⟩

theorem growsTo_record {t : Ty ρ} {p : Property} (hk : t.kind = p.kind) (hu : t.value? p = none)
    (v : Bool) : t.GrowsTo (t.record p v) :=
  ⟨(bare_record t p v).symm, by rw [recorded_record hk hu]; exact List.prefix_append _ _⟩

theorem GrowsTo.value? {t t' : Ty ρ} (h : t.GrowsTo t') {p : Property} {v : Bool}
    (hv : t.value? p = some v) : t'.value? p = some v := by
  rw [value?_eq_lookup] at hv ⊢
  exact h.recorded_prefix.lookup_eq_some hv

end Ty

end SpaceTypes
