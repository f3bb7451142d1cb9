import SpaceTypes.Proofs.Collected
import SpaceTypes.Proofs.Provenance

/-!
# Types and denials by name

A program speaks of names, inference of variables. A shape without a type of its own inherits the
type of what it stands in, and with it every property that is declared there (`Inherits`), so the
declarations that deny a property to a name are its own and those that it inherits (`Denies`).
For a collected program these notions on names agree with those on variables
(`Collected.shares_iff`, `Collected.denied_iff`), and none of them depends on the order of the
declarations.
-/

namespace SpaceTypes

namespace TypeExpr

variable {ρ : Type}

theorem kind_toTy_ne (e : TypeExpr) : (e.toTy : Ty ρ).kind ≠ .dependent := by
  cases e with
  | basic name => simp [toTy, Ty.kind]
  | layer modifier base => cases modifier <;> simp [toTy, Ty.kind]

end TypeExpr

namespace Declaration

/-- The goal that a declaration yields, for the variables of the names. -/
inductive Yields (resolve : String → Option Nat) : Scoped → Goal → Prop where
  | sameAs {name outer : String} {body : List Declaration} {i j : Nat}
      (hi : resolve name = some i) (hj : resolve outer = some j) :
      Yields resolve (some outer, .shape name none body) (.sameAs i j)
  | subtype {name outer : String} {type : TypeExpr} {body : List Declaration} {i j : Nat}
      (hi : resolve name = some i) (hj : resolve outer = some j) :
      Yields resolve (some outer, .shape name (some type) body) (.subtype i j)
  | preserve {scope : Option String} {name kind source target : String} {k : MappingKind}
      {i j : Nat} (hk : MappingKind.ofName? kind = some k) (hi : resolve source = some i)
      (hj : resolve target = some j) :
      Yields resolve (scope, .mapping name kind source target) (.preserve i j k)
  | property {outer word : String} {value : Bool} {p : Property} {i : Nat}
      (hi : resolve outer = some i) (hp : Property.ofName? word = some p) :
      Yields resolve (some outer, .property word value) (.property i p value)

variable {resolve : String → Option Nat} {item : Scoped} {items : List Scoped} {goal : Goal}

theorem goal?_eq_some_iff : goal? resolve item = some goal ↔ Yields resolve item goal := by
  constructor
  · intro h
    obtain ⟨scope, d⟩ := item
    cases d with
    | space name type body => cases h
    | shape name type body =>
      simp only [goal?, Option.bind_eq_some_iff, Option.map_eq_some_iff] at h
      obtain ⟨outer, rfl, i, hi, j, hj, rfl⟩ := h
      cases type with
      | none => exact .sameAs hi hj
      | some type => exact .subtype hi hj
    | mapping name kind source target =>
      simp only [goal?, Option.bind_eq_some_iff, Option.map_eq_some_iff] at h
      obtain ⟨k, hk, i, hi, j, hj, rfl⟩ := h
      exact .preserve hk hi hj
    | property name value =>
      simp only [goal?, Option.bind_eq_some_iff, Option.map_eq_some_iff] at h
      obtain ⟨outer, rfl, i, hi, p, hp, rfl⟩ := h
      exact .property hi hp
    | invariant claim => cases h
  · intro h
    cases h with
    | sameAs hi hj => simp [goal?, hi, hj]
    | subtype hi hj => simp [goal?, hi, hj]
    | preserve hk hi hj => simp [goal?, hk, hi, hj]
    | property hi hp => simp [goal?, hi, hp]

/-- The first name has the type of the second, as shapes without types of their own inside one
another. -/
def Inherits (items : List Scoped) : String → String → Prop :=
  Relation.ReflTransGen fun name outer => ∃ body, (some outer, .shape name none body) ∈ items

/-- The property is declared false for the name, or for one that it has the type of. -/
def Denies (items : List Scoped) (name : String) (p : Property) : Prop :=
  ∃ outer word, Inherits items name outer ∧ (some outer, .property word false) ∈ items ∧
    Property.ofName? word = some p

end Declaration

namespace Collection.Collected

open Declaration

variable {ρ : Type} {config : Config} {items : List Scoped} {c : Collection ρ}

/-! ## Variables -/

/-- The variable of a name is at the place where the name is declared. -/
theorem find?_eq_some_iff (h : Collected config items c) {name : String} {i : Nat} :
    c.names.find? name = some i ↔ ∃ type, (declared items)[i]? = some (name, type) := by
  rw [h.indexed name i, Variables.name?, h.entries_eq, List.getElem?_map, Option.map_map,
    Option.map_eq_some_iff]
  constructor
  · rintro ⟨⟨name', type⟩, he, rfl⟩
    exact ⟨type, he⟩
  · rintro ⟨type, he⟩
    exact ⟨_, he, rfl⟩

theorem lt_size_of_find? (h : Collected config items c) {name : String} {i : Nat}
    (hi : c.names.find? name = some i) : i < c.system.vars.size := by
  obtain ⟨type, he⟩ := h.find?_eq_some_iff.1 hi
  rw [Variables.size, h.entries_eq, List.length_map]
  exact (List.getElem?_eq_some_iff.1 he).1

/-- Every variable has a name. -/
theorem exists_find? (h : Collected config items c) {i : Nat} (hi : i < c.system.vars.size) :
    ∃ name, c.names.find? name = some i := by
  rw [Variables.size, h.entries_eq, List.length_map] at hi
  exact ⟨_, h.find?_eq_some_iff.2 ⟨_, List.getElem?_eq_getElem hi⟩⟩

/-- Different names have different variables. -/
theorem find?_injective (h : Collected config items c) {name name' : String} {i : Nat}
    (hi : c.names.find? name = some i) (hi' : c.names.find? name' = some i) : name = name' :=
  Option.some.inj (((h.indexed name i).1 hi).symm.trans ((h.indexed name' i).1 hi'))

/-- A variable is bound at the start if its name is declared with a type. -/
theorem get?_eq_some_iff (h : Collected config items c) {name : String} {i : Nat}
    (hi : c.names.find? name = some i) {t : Ty ρ} :
    c.system.vars.get? i = some t ↔ ∃ type, (name, some type) ∈ declared items ∧
      type.toTy = t := by
  have hget : c.system.vars.get? i = (declared items)[i]?.bind fun e => e.2.map TypeExpr.toTy := by
    rw [Variables.get?, h.entries_eq, List.getElem?_map, Option.bind_map]
    rfl
  rw [hget]
  constructor
  · intro ht
    obtain ⟨type, he⟩ := h.find?_eq_some_iff.1 hi
    rw [he, Option.bind_some, Option.map_eq_some_iff] at ht
    obtain ⟨written, rfl, rfl⟩ := ht
    exact ⟨written, List.mem_of_getElem? he, rfl⟩
  · rintro ⟨type, hmem, rfl⟩
    obtain ⟨j, hj⟩ := List.mem_iff_getElem?.1 hmem
    have hij : i = j := Option.some.inj (hi.symm.trans (h.find?_eq_some_iff.2 ⟨_, hj⟩))
    rw [hij, hj]
    rfl

theorem exists_toTy_of_get? (h : Collected config items c) {i : Nat} {t : Ty ρ}
    (ht : c.system.vars.get? i = some t) : ∃ type : TypeExpr, type.toTy = t := by
  obtain ⟨name, hi⟩ := h.exists_find? (Variables.lt_size_of_get? ht)
  obtain ⟨type, -, heq⟩ := (h.get?_eq_some_iff hi).1 ht
  exact ⟨type, heq⟩

/-! ## Goals -/

theorem mem_goals_iff (h : Collected config items c) {goal : Goal} :
    goal ∈ c.system.goals ↔ (∃ item ∈ items, Yields c.names.find? item goal) ∨
      (config.deriveByRules = true ∧ ∃ i < c.system.vars.size, goal = .derive i) := by
  rw [h.goals_eq, List.mem_append, List.mem_filterMap]
  simp only [goal?_eq_some_iff]
  refine or_congr Iff.rfl ?_
  cases config.deriveByRules with
  | true => simp [eq_comm]
  | false => simp

theorem subjects_lt_size (h : Collected config items c) {goal : Goal}
    (hgoal : goal ∈ c.system.goals) : ∀ i ∈ goal.subjects, i < c.system.vars.size := by
  rcases h.mem_goals_iff.1 hgoal with ⟨item, -, hyields⟩ | ⟨-, i, hi, rfl⟩
  · cases hyields with
    | sameAs hi hj => simp [Goal.subjects, h.lt_size_of_find? hi, h.lt_size_of_find? hj]
    | subtype hi hj => simp [Goal.subjects, h.lt_size_of_find? hi, h.lt_size_of_find? hj]
    | preserve hk hi hj => simp [Goal.subjects, h.lt_size_of_find? hi, h.lt_size_of_find? hj]
    | property hi hp => simp [Goal.subjects, h.lt_size_of_find? hi]
  · simpa [Goal.subjects] using hi

/-! ## Inheritance -/

theorem sameAs_mem_goals_iff (h : Collected config items c) {i j : Nat} :
    .sameAs i j ∈ c.system.goals ↔ ∃ name outer body,
      (some outer, .shape name none body) ∈ items ∧ c.names.find? name = some i ∧
        c.names.find? outer = some j := by
  rw [h.mem_goals_iff]
  constructor
  · rintro (⟨item, hitem, hyields⟩ | ⟨-, _, -, heq⟩)
    · cases hyields with
      | sameAs hi hj => exact ⟨_, _, _, hitem, hi, hj⟩
    · cases heq
  · rintro ⟨name, outer, body, hitem, hi, hj⟩
    exact Or.inl ⟨_, hitem, .sameAs hi hj⟩

theorem property_mem_goals_iff (h : Collected config items c) {i : Nat} {p : Property} {v : Bool} :
    .property i p v ∈ c.system.goals ↔ ∃ outer word,
      (some outer, .property word v) ∈ items ∧ c.names.find? outer = some i ∧
        Property.ofName? word = some p := by
  rw [h.mem_goals_iff]
  constructor
  · rintro (⟨item, hitem, hyields⟩ | ⟨-, _, -, heq⟩)
    · cases hyields with
      | property hi hp => exact ⟨_, _, hitem, hi, hp⟩
    · cases heq
  · rintro ⟨outer, word, hitem, hi, hp⟩
    exact Or.inl ⟨_, hitem, .property hi hp⟩

theorem preserve_mem_goals_iff (h : Collected config items c) {i j : Nat} {k : MappingKind} :
    .preserve i j k ∈ c.system.goals ↔ ∃ scope name kind source target,
      (scope, .mapping name kind source target) ∈ items ∧ MappingKind.ofName? kind = some k ∧
        c.names.find? source = some i ∧ c.names.find? target = some j := by
  rw [h.mem_goals_iff]
  constructor
  · rintro (⟨item, hitem, hyields⟩ | ⟨-, _, -, heq⟩)
    · cases hyields with
      | preserve hk hi hj => exact ⟨_, _, _, _, _, hitem, hk, hi, hj⟩
    · cases heq
  · rintro ⟨scope, name, kind, source, target, hitem, hk, hi, hj⟩
    exact Or.inl ⟨_, hitem, .preserve hk hi hj⟩

/-- A variable shares the types of those whose names its own name inherits from. -/
theorem shares_iff (h : Collected config items c) {name : String} {i j : Nat}
    (hi : c.names.find? name = some i) :
    Shares c.system.goals i j ↔ ∃ outer, Inherits items name outer ∧
      c.names.find? outer = some j := by
  constructor
  · intro hshares
    induction hshares using Relation.ReflTransGen.head_induction_on generalizing name with
    | refl => exact ⟨name, .refl, hi⟩
    | head hmem _ ih =>
      obtain ⟨name', outer, body, hitem, hi', hj⟩ := h.sameAs_mem_goals_iff.1 hmem
      cases h.find?_injective hi hi'
      obtain ⟨outermost, hinherits, hfind⟩ := ih hj
      exact ⟨outermost, .head ⟨body, hitem⟩ hinherits, hfind⟩
  · rintro ⟨outer, hinherits, hj⟩
    induction hinherits using Relation.ReflTransGen.head_induction_on generalizing i with
    | refl =>
      rw [hi] at hj
      cases hj
      exact .refl
    | head hstep _ ih =>
      obtain ⟨body, hitem⟩ := hstep
      obtain ⟨-, houter⟩ := h.admissible _ hitem
      obtain ⟨k, hk⟩ := houter _ rfl
      exact .head (h.sameAs_mem_goals_iff.2 ⟨_, _, _, hitem, hi, hk⟩) (ih hk)

/-- The goals deny to a variable what the declarations deny to its name. -/
theorem denied_iff (h : Collected config items c) {name : String} {i : Nat} {p : Property}
    (hi : c.names.find? name = some i) : Denied c.system.goals i p ↔ Denies items name p := by
  constructor
  · rintro ⟨j, hshares, hmem⟩
    obtain ⟨outer, hinherits, hj⟩ := (h.shares_iff hi).1 hshares
    obtain ⟨outer', word, hitem, hj', hp⟩ := h.property_mem_goals_iff.1 hmem
    cases h.find?_injective hj hj'
    exact ⟨outer, word, hinherits, hitem, hp⟩
  · rintro ⟨outer, word, hinherits, hitem, hp⟩
    obtain ⟨outer', hscope, ⟨j, hj⟩, -⟩ := h.admissible _ hitem
    cases hscope
    exact ⟨j, (h.shares_iff hi).2 ⟨outer, hinherits, hj⟩,
      h.property_mem_goals_iff.2 ⟨outer, word, hitem, hj, hp⟩⟩

/-- A variable is grounded if its name inherits from one that is declared with a type. -/
theorem grounded_iff (h : Collected config items c) {name : String} {i : Nat}
    (hi : c.names.find? name = some i) :
    c.system.Grounded i ↔ ∃ outer type, Inherits items name outer ∧
      (outer, some type) ∈ declared items := by
  constructor
  · rintro ⟨j, t, hshares, ht⟩
    obtain ⟨outer, hinherits, hj⟩ := (h.shares_iff hi).1 hshares
    obtain ⟨type, hmem, -⟩ := (h.get?_eq_some_iff hj).1 ht
    exact ⟨outer, type, hinherits, hmem⟩
  · rintro ⟨outer, type, hinherits, hmem⟩
    obtain ⟨j, hj⟩ := (h.indexed.knows_iff h.entries_eq).2 (List.mem_map.2 ⟨_, hmem, rfl⟩)
    exact ⟨j, type.toTy, (h.shares_iff hi).2 ⟨outer, hinherits, hj⟩,
      (h.get?_eq_some_iff hj).2 ⟨type, hmem, rfl⟩⟩

end Collection.Collected

end SpaceTypes
