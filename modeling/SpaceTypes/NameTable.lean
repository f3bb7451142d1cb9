import SpaceTypes.Entries

/-!
# Tables by name

A finite map from names to values, kept as a list of entries in strictly increasing order of their
names, where names compare by code point. The order is part of a table, and inserting and erasing
keep it. So a table has one entry for each name (`mem_entries_iff`), and tables with the same
contents are equal.
-/

namespace SpaceTypes

/-- Values by name, in the order of the names. -/
structure NameTable (α : Type) where
  /-- The names with their values. -/
  entries : List (String × α)
  /-- The names strictly increase. -/
  increasing : (entries.map Prod.fst).Pairwise (· < ·)
deriving DecidableEq, Repr

namespace NameTable

variable {α : Type}

/-! ## Insertion into entries -/

/-- The entries with the value of a name replaced, or with a new entry before the first greater
name. -/
def insertIn (name : String) (value : α) : List (String × α) → List (String × α)
  | [] => [(name, value)]
  | (key, old) :: rest =>
    if key = name then (name, value) :: rest
    else if name < key then (name, value) :: (key, old) :: rest
    else (key, old) :: insertIn name value rest

theorem lookup_insertIn (name other : String) (value : α) (entries : List (String × α)) :
    (insertIn name value entries).lookup other =
      if other = name then some value else entries.lookup other := by
  induction entries with
  | nil => grind [insertIn]
  | cons e rest ih => grind [insertIn]

theorem mem_map_fst_insertIn {name other : String} {value : α} {entries : List (String × α)} :
    other ∈ (insertIn name value entries).map Prod.fst ↔
      other = name ∨ other ∈ entries.map Prod.fst := by
  have hnone : (insertIn name value entries).lookup other = none ↔ _ :=
    Entries.lookup_eq_none_iff_notMem
  rw [lookup_insertIn] at hnone
  by_cases hname : other = name
  · simpa [hname] using hnone
  · rw [if_neg hname, Entries.lookup_eq_none_iff_notMem] at hnone
    simpa [hname] using (not_congr hnone).symm

theorem pairwise_insertIn {name : String} {value : α} {entries : List (String × α)}
    (h : (entries.map Prod.fst).Pairwise (· < ·)) :
    ((insertIn name value entries).map Prod.fst).Pairwise (· < ·) := by
  induction entries with
  | nil => simp [insertIn]
  | cons e rest ih =>
    simp only [List.map_cons, List.pairwise_cons] at h
    by_cases hk : e.1 = name
    · simp only [insertIn, hk, if_true, List.map_cons, List.pairwise_cons]
      exact ⟨hk ▸ h.1, h.2⟩
    · by_cases hlt : name < e.1
      · simp only [insertIn, hk, hlt, if_false, if_true, List.map_cons, List.pairwise_cons,
          List.mem_cons]
        refine ⟨?_, h⟩
        rintro other (rfl | hmem)
        · exact hlt
        · exact String.lt_trans hlt (h.1 other hmem)
      · have hgt : e.1 < name := by
          rcases Std.lt_trichotomy e.1 name with hgt | heq | hgt
          · exact hgt
          · exact absurd heq hk
          · exact absurd hgt hlt
        simp only [insertIn, hk, hlt, if_false, List.map_cons, List.pairwise_cons]
        refine ⟨fun other hmem => ?_, ih h.2⟩
        rcases mem_map_fst_insertIn.1 hmem with rfl | hmem
        · exact hgt
        · exact h.1 other hmem

/-! ## Operations -/

/-- The table without entries. -/
def empty : NameTable α := ⟨[], .nil⟩

instance : EmptyCollection (NameTable α) := ⟨empty⟩

instance : Inhabited (NameTable α) := ⟨empty⟩

/-- The value of a name. -/
def find? (table : NameTable α) (name : String) : Option α := table.entries.lookup name

/-- Whether the name has a value. -/
def contains (table : NameTable α) (name : String) : Bool := (table.find? name).isSome

/-- Gives the name a value, in place of the earlier one if there is one. -/
def insert (table : NameTable α) (name : String) (value : α) : NameTable α :=
  ⟨insertIn name value table.entries, pairwise_insertIn table.increasing⟩

/-- Removes the name. -/
def erase (table : NameTable α) (name : String) : NameTable α :=
  ⟨table.entries.filter (·.1 ≠ name), table.increasing.sublist (List.filter_sublist.map _)⟩

/-- The names, in order. -/
def names (table : NameTable α) : List String := table.entries.map Prod.fst

/-- The number of entries. -/
def size (table : NameTable α) : Nat := table.entries.length

/-- The given names in order, each once. -/
def sortNames (names : List String) : List String :=
  (names.foldl (fun table name => table.insert name ()) (empty : NameTable Unit)).names

/-! ## Entries and values -/

theorem nodup_names (table : NameTable α) : table.names.Nodup :=
  table.increasing.imp Std.ne_of_lt

/-- Each entry has the value of its name. -/
theorem mem_entries_iff {table : NameTable α} {name : String} {value : α} :
    (name, value) ∈ table.entries ↔ table.find? name = some value :=
  Entries.mem_iff_lookup table.nodup_names

theorem mem_names_iff {table : NameTable α} {name : String} :
    name ∈ table.names ↔ ∃ value, table.find? name = some value := by
  rw [← Option.ne_none_iff_exists', find?, Ne, Entries.lookup_eq_none_iff_notMem,
    Classical.not_not, names]

/-! ## Reading what was written -/

@[simp]
theorem find?_insert_self (table : NameTable α) (name : String) (value : α) :
    (table.insert name value).find? name = some value :=
  (lookup_insertIn name name value table.entries).trans (if_pos rfl)

theorem find?_insert_of_ne (table : NameTable α) {name other : String} (h : other ≠ name)
    (value : α) : (table.insert name value).find? other = table.find? other :=
  (lookup_insertIn name other value table.entries).trans (if_neg h)

@[simp]
theorem find?_erase_self (table : NameTable α) (name : String) :
    (table.erase name).find? name = none := by
  rw [find?, Entries.lookup_eq_none_iff_notMem]
  simp [erase]

theorem find?_erase_of_ne (table : NameTable α) {name other : String} (h : other ≠ name) :
    (table.erase name).find? other = table.find? other := by
  refine Option.ext fun value => ?_
  rw [← mem_entries_iff, ← mem_entries_iff, erase, List.mem_filter, decide_eq_true_eq]
  exact and_iff_left h

/-! ## Sorting -/

theorem mem_names_insert {table : NameTable α} {name other : String} {value : α} :
    other ∈ (table.insert name value).names ↔ other = name ∨ other ∈ table.names :=
  mem_map_fst_insertIn

theorem mem_names_foldl_insert {table : NameTable Unit} {names : List String} {name : String} :
    name ∈ (names.foldl (fun table name => table.insert name ()) table).names ↔
      name ∈ table.names ∨ name ∈ names := by
  induction names generalizing table with
  | nil => simp
  | cons first rest ih =>
    rw [List.foldl_cons, ih, mem_names_insert, List.mem_cons, or_comm (a := name = first), or_assoc]

/-- The names come out strictly increasing. -/
theorem pairwise_sortNames (names : List String) : (sortNames names).Pairwise (· < ·) :=
  NameTable.increasing _

@[simp]
theorem mem_sortNames {names : List String} {name : String} :
    name ∈ sortNames names ↔ name ∈ names := by
  rw [sortNames, mem_names_foldl_insert]
  simp [NameTable.names, empty]

end NameTable

end SpaceTypes
