import SpaceTypes.Entries
import SpaceTypes.Property

/-!
# Property registries

A registry records, for some properties of one family, whether they hold. A property that was
never recorded is *unset*; it does not hold, and the difference from a denied one matters only for
diagnostics and for what the separation rules may still derive.

Entries stand in the order in which their properties were first set, and no property has two.
Setting a property again replaces its value in place (`get?_set`, `keys_set`), and the earlier value
can be had in exchange (`exchange_eq`).
-/

namespace SpaceTypes

/-- What a registry knows about a single property. -/
inductive Standing where
  | affirmed
  | denied
  | unset
deriving DecidableEq, Repr

/-- The standing of a property whose recorded value is given. -/
def Standing.ofValue : Option Bool → Standing
  | some true => affirmed
  | some false => denied
  | none => unset

/-- The standing in one word. -/
def Standing.text : Standing → String
  | affirmed => "true"
  | denied => "false"
  | unset => "unset"

/-- A property that was asked for, with its standing. -/
structure Missing where
  /-- The property asked for. -/
  property : Property
  /-- What was known about it. -/
  standing : Standing
deriving DecidableEq, Repr

/-- The property's name, with the standing in brackets unless it is affirmed. -/
def Missing.text (missing : Missing) : String :=
  match missing.standing with
  | .unset => missing.property.name ++ " (unset)"
  | .denied => missing.property.name ++ " (false)"
  | .affirmed => missing.property.name

/-- Recorded values for properties of one family, in order of first setting. -/
@[ext]
structure Registry (α : Type) where
  /-- The properties with their values. -/
  entries : List (α × Bool)
  /-- No property has two entries. -/
  nodup : (entries.map Prod.fst).Nodup
deriving DecidableEq, Repr

namespace Registry

variable {α : Type}

/-- The registry in which every property is unset. -/
def empty : Registry α := ⟨[], .nil⟩

instance : EmptyCollection (Registry α) := ⟨empty⟩

instance : Inhabited (Registry α) := ⟨empty⟩

/-- The properties that have a value, in order of first setting. -/
def keys (r : Registry α) : List α := r.entries.map Prod.fst

section

variable [DecidableEq α]

/-! ## Setting among entries -/

/-- The entries with the one for `p` changed to `v`, or a new one at the end. -/
def setIn (p : α) (v : Bool) : List (α × Bool) → List (α × Bool)
  | [] => [(p, v)]
  | (q, w) :: rest => if q = p then (q, v) :: rest else (q, w) :: setIn p v rest

/-- The value of `p`, and the entries with this one changed to `v`, or with a new one at the end. -/
def exchangeIn (p : α) (v : Bool) : List (α × Bool) → Option Bool × List (α × Bool)
  | [] => (none, [(p, v)])
  | (q, w) :: rest =>
    if q = p then (some w, (q, v) :: rest)
    else
      let (earlier, later) := exchangeIn p v rest
      (earlier, (q, w) :: later)

theorem lookup_setIn (p q : α) (v : Bool) (entries : List (α × Bool)) :
    (setIn p v entries).lookup q = if q = p then some v else entries.lookup q := by
  induction entries with
  | nil => grind [setIn]
  | cons e rest ih => grind [setIn]

/-- An unset property is recorded at the end. -/
theorem setIn_of_notMem {p : α} {entries : List (α × Bool)} (h : p ∉ entries.map Prod.fst)
    (v : Bool) : setIn p v entries = entries ++ [(p, v)] := by
  induction entries with
  | nil => rfl
  | cons e rest ih =>
    rw [List.map_cons, List.mem_cons, not_or] at h
    simp [setIn, Ne.symm h.1, ih h.2]

theorem map_fst_setIn_of_mem {p : α} {entries : List (α × Bool)} (h : p ∈ entries.map Prod.fst)
    (v : Bool) : (setIn p v entries).map Prod.fst = entries.map Prod.fst := by
  induction entries with
  | nil => cases h
  | cons e rest ih =>
    by_cases hp : e.1 = p
    · simp [setIn, hp]
    · rw [List.map_cons, List.mem_cons, or_iff_right (Ne.symm hp)] at h
      simp [setIn, hp, ih h]

theorem nodup_setIn {entries : List (α × Bool)} (h : (entries.map Prod.fst).Nodup) (p : α)
    (v : Bool) : ((setIn p v entries).map Prod.fst).Nodup := by
  by_cases hp : p ∈ entries.map Prod.fst
  · rwa [map_fst_setIn_of_mem hp]
  · rw [setIn_of_notMem hp, List.map_append, List.map_singleton, List.nodup_append]
    refine ⟨h, List.pairwise_singleton _ p, ?_⟩
    rintro q hq q' hq' rfl
    cases List.mem_singleton.1 hq'
    exact hp hq

theorem exchangeIn_eq (p : α) (v : Bool) (entries : List (α × Bool)) :
    exchangeIn p v entries = (entries.lookup p, setIn p v entries) := by
  induction entries with
  | nil => rfl
  | cons e rest ih => grind [exchangeIn, setIn]

theorem nodup_exchangeIn {entries : List (α × Bool)} (h : (entries.map Prod.fst).Nodup) (p : α)
    (v : Bool) : ((exchangeIn p v entries).2.map Prod.fst).Nodup := by
  rw [exchangeIn_eq]
  exact nodup_setIn h p v

/-! ## Operations -/

/-- The recorded value of a property. -/
def get? (r : Registry α) (p : α) : Option Bool := r.entries.lookup p

/-- Records a value, in place of the earlier one if there is one. -/
def set (r : Registry α) (p : α) (v : Bool) : Registry α :=
  ⟨setIn p v r.entries, nodup_setIn r.nodup p v⟩

/-- Records a value, and gives back the earlier one. -/
def exchange (r : Registry α) (p : α) (v : Bool) : Option Bool × Registry α :=
  let result := exchangeIn p v r.entries
  (result.1, ⟨result.2, nodup_exchangeIn r.nodup p v⟩)

/-- Records the values one after another, starting from nothing. -/
def ofList (values : List (α × Bool)) : Registry α :=
  values.foldl (fun r e => r.set e.1 e.2) empty

/-- The standing of a property. -/
def standing (r : Registry α) (p : α) : Standing := .ofValue (r.get? p)

/-- Whether the property is recorded to hold. -/
def holds (r : Registry α) (p : α) : Bool := (r.get? p).getD false

/-- Whether all of the properties are recorded to hold. -/
def holdsAll (r : Registry α) (ps : List α) : Bool := ps.all r.holds

/-- Those of the properties that do not hold, in the given order, with their standing. -/
def missing [PropertyFamily α] (r : Registry α) (ps : List α) : List Missing :=
  (ps.filter fun p => !r.holds p).map fun p => ⟨PropertyFamily.toProperty p, r.standing p⟩

end

/-! ## Printing -/

/-- The names of the entries between braces, denied ones after an exclamation mark. -/
def text [PropertyFamily α] (r : Registry α) : String :=
  "\x7b" ++ ", ".intercalate (r.entries.map fun e =>
    if e.2 then PropertyFamily.name e.1 else "!" ++ PropertyFamily.name e.1) ++ "\x7d"

/-- The entries between braces, each title with its value. -/
def outline [PropertyFamily α] (r : Registry α) : String :=
  "\x7b" ++ ", ".intercalate (r.entries.map fun e =>
    PropertyFamily.title e.1 ++ ": " ++ valueText e.2) ++ "\x7d"

/-! ## Reading what was set -/

section

variable [DecidableEq α]

/-- Each entry has the value of its property. -/
theorem mem_entries_iff {r : Registry α} {p : α} {v : Bool} :
    (p, v) ∈ r.entries ↔ r.get? p = some v :=
  Entries.mem_iff_lookup r.nodup

theorem get?_set (r : Registry α) (p q : α) (v : Bool) :
    (r.set p v).get? q = if q = p then some v else r.get? q :=
  lookup_setIn p q v r.entries

@[simp]
theorem get?_set_self (r : Registry α) (p : α) (v : Bool) : (r.set p v).get? p = some v := by
  rw [get?_set, if_pos rfl]

theorem get?_set_of_ne (r : Registry α) {p q : α} (h : q ≠ p) (v : Bool) :
    (r.set p v).get? q = r.get? q := by
  rw [get?_set, if_neg h]

theorem get?_eq_none_iff {r : Registry α} {p : α} : r.get? p = none ↔ p ∉ r.keys :=
  Entries.lookup_eq_none_iff_notMem

theorem entries_set_of_unset {r : Registry α} {p : α} (h : r.get? p = none) (v : Bool) :
    (r.set p v).entries = r.entries ++ [(p, v)] :=
  setIn_of_notMem (get?_eq_none_iff.1 h) v

/-- To exchange a value is to read it and to set another. -/
theorem exchange_eq (r : Registry α) (p : α) (v : Bool) :
    r.exchange p v = (r.get? p, r.set p v) := by
  simp only [exchange, exchangeIn_eq]
  rfl

/-- Setting keeps the order of the properties, and adds a new one at the end. -/
theorem keys_set (r : Registry α) (p : α) (v : Bool) :
    (r.set p v).keys = if p ∈ r.keys then r.keys else r.keys ++ [p] := by
  split
  case isTrue h => exact map_fst_setIn_of_mem h v
  case isFalse h =>
    rw [keys, entries_set_of_unset (get?_eq_none_iff.2 h), List.map_append]
    rfl

end

end Registry

end SpaceTypes
