import SpaceTypes.Proofs.ProgramTypes

/-!
# Places in a program

A declaration stands at a place: the positions of the declarations around it, from the outside in,
and its own (`Declaration.atAll`). In the order of writing a declaration comes before those inside
it and before those after it, which is the lexicographic order of their places. The two rounds of
collecting go through the declarations in that order, once each (`Declaration.inOrder_flattenAll`).

Said by places, collecting succeeds exactly if no two places declare one name and every use of a
name or word is in order, wherever the name is declared (`Declaration.Collectible`); and it yields
the variables and goals of the declarations in the order of writing (`Collection.Emits`).
-/

namespace SpaceTypes

/-- The members that a function is defined on correspond to its values, in their order. -/
theorem forall₂_filterMap {α β : Type} {f : α → Option β} {p : α → Bool} {l : List α}
    (h : ∀ a ∈ l, (f a).isSome = p a) :
    List.Forall₂ (fun a b => f a = some b) (l.filter p) (l.filterMap f) := by
  induction l with
  | nil => exact .nil
  | cons a rest ih =>
    have hrest := ih fun a' hmem => h a' (List.mem_cons_of_mem _ hmem)
    have ha := h a List.mem_cons_self
    cases hb : f a with
    | none =>
      rw [hb] at ha
      rw [List.filter_cons_of_neg (by simp [← ha]), List.filterMap_cons_none hb]
      exact hrest
    | some b =>
      rw [hb] at ha
      rw [List.filter_cons_of_pos (by simp [← ha]), List.filterMap_cons_some hb]
      exact .cons hb hrest

namespace Declaration

/-- The positions of the declarations on the way to a declaration, from the outside in. -/
abbrev Place := List Nat

/-! ## Declarations by place -/

/-- The declaration at a place in a declaration, with the name of what it stands in. -/
def at? (scope : Option String) (d : Declaration) : Place → Option Scoped
  | [] => some (scope, d)
  | i :: rest => d.body[i]?.bind fun inner => at? (d.signature?.map Prod.fst) inner rest

/-- The declaration at a place among declarations, with the name of what it stands in. -/
def atAll (scope : Option String) (ds : List Declaration) : Place → Option Scoped
  | [] => none
  | i :: rest => ds[i]?.bind fun d => at? scope d rest

/-- The name that is declared at a place. -/
def nameAt? (program : List Declaration) (place : Place) : Option String :=
  (atAll none program place).bind fun item => item.2.signature?.map Prod.fst

mutual

/-- The places in a declaration, in the order of writing. -/
def places : Declaration → List Place
  | space _ _ body => [] :: placesAll 0 body
  | shape _ _ body => [] :: placesAll 0 body
  | _ => [[]]

/-- The places in declarations, the first of them at position `i`, in the order of writing. -/
def placesAll (i : Nat) : List Declaration → List Place
  | [] => []
  | d :: rest => (places d).map (i :: ·) ++ placesAll (i + 1) rest

end

theorem places_eq (d : Declaration) : places d = [] :: placesAll 0 d.body := by
  cases d <;> rfl

theorem atAll_body (scope : Option String) (d : Declaration) {place : Place} (h : place ≠ []) :
    at? scope d place = atAll (d.signature?.map Prod.fst) d.body place := by
  cases place with
  | nil => exact absurd rfl h
  | cons i rest => rfl

theorem mem_placesAll {i : Nat} {ds : List Declaration} {place : Place} :
    place ∈ placesAll i ds ↔
      ∃ k d rest, ds[k]? = some d ∧ rest ∈ places d ∧ place = (i + k) :: rest := by
  induction ds generalizing i with
  | nil => simp [placesAll]
  | cons first later ih =>
    rw [placesAll, List.mem_append, List.mem_map, ih]
    constructor
    · rintro (⟨rest, hrest, rfl⟩ | ⟨k, d, rest, hk, hrest, rfl⟩)
      · exact ⟨0, first, rest, rfl, hrest, rfl⟩
      · exact ⟨k + 1, d, rest, hk, hrest, by rw [Nat.add_assoc, Nat.add_comm 1]⟩
    · rintro ⟨k, d, rest, hk, hrest, rfl⟩
      cases k with
      | zero =>
        cases hk
        exact Or.inl ⟨rest, hrest, rfl⟩
      | succ k => exact Or.inr ⟨k, d, rest, hk, hrest, by rw [Nat.add_assoc, Nat.add_comm 1]⟩

theorem ne_nil_of_mem_placesAll {i : Nat} {ds : List Declaration} {place : Place}
    (h : place ∈ placesAll i ds) : place ≠ [] := by
  obtain ⟨k, d, rest, -, -, rfl⟩ := mem_placesAll.1 h
  exact List.cons_ne_nil _ _

/-! ## The order of writing -/

mutual

/-- Going through the places in a declaration is going through its declarations. -/
theorem map_at?_places (scope : Option String) (d : Declaration) :
    (places d).map (at? scope d) = (flatten scope d).map some := by
  cases d with
  | space name type body | shape name type body =>
    have hbody := map_atAll_placesAll (some name) [] body
    rw [places, flatten, List.map_cons, List.map_cons, ← hbody]
    refine congrArg _ (List.map_congr_left fun place hplace => ?_)
    exact atAll_body scope _ (ne_nil_of_mem_placesAll hplace)
  | _ => rfl

theorem map_atAll_placesAll (scope : Option String) (before ds : List Declaration) :
    (placesAll before.length ds).map (atAll scope (before ++ ds)) =
      (flattenAll scope ds).map some := by
  cases ds with
  | nil => rfl
  | cons d rest =>
    have hrest := map_atAll_placesAll scope (before ++ [d]) rest
    rw [List.length_append, List.length_singleton, List.append_assoc,
      List.singleton_append] at hrest
    rw [placesAll, flattenAll, List.map_append, List.map_append, List.map_map, hrest,
      ← map_at?_places scope d]
    refine congrArg (· ++ _) (List.map_congr_left fun place _ => ?_)
    simp [atAll]

end

mutual

/-- The places in a declaration come in lexicographic order. -/
theorem pairwise_places (d : Declaration) : (places d).Pairwise (· < ·) := by
  cases d with
  | space name type body | shape name type body =>
    rw [places, List.pairwise_cons]
    refine ⟨fun place hplace => ?_, pairwise_placesAll 0 body⟩
    obtain ⟨k, inner, rest, -, -, rfl⟩ := mem_placesAll.1 hplace
    exact List.nil_lt_cons _ _
  | _ => exact List.pairwise_singleton _ _

theorem pairwise_placesAll (i : Nat) (ds : List Declaration) :
    (placesAll i ds).Pairwise (· < ·) := by
  cases ds with
  | nil => exact List.Pairwise.nil
  | cons d rest =>
    rw [placesAll, List.pairwise_append, List.pairwise_map]
    refine ⟨(pairwise_places d).imp fun hlt => ?_, pairwise_placesAll (i + 1) rest, ?_⟩
    · exact List.cons_lt_cons_iff.2 (Or.inr ⟨rfl, hlt⟩)
    · intro place hplace place' hplace'
      obtain ⟨inner, -, rfl⟩ := List.mem_map.1 hplace
      obtain ⟨k, d', inner', -, -, rfl⟩ := mem_placesAll.1 hplace'
      exact List.cons_lt_cons_iff.2 (Or.inl (by omega))

end

theorem mem_places_iff {scope : Option String} {d : Declaration} {place : Place} :
    place ∈ places d ↔ ∃ item, at? scope d place = some item := by
  induction place generalizing scope d with
  | nil => simp [places_eq, at?]
  | cons i rest ih =>
    rw [places_eq, List.mem_cons, mem_placesAll, at?]
    constructor
    · rintro (h | ⟨k, inner, rest', hk, hrest, h⟩)
      · cases h
      · obtain ⟨rfl, rfl⟩ := List.cons.inj h
        rw [Nat.zero_add, hk]
        exact ih.1 hrest
    · rintro ⟨item, hitem⟩
      obtain ⟨inner, hi, hinner⟩ := Option.bind_eq_some_iff.1 hitem
      exact Or.inr ⟨i, inner, rest, hi, ih.2 ⟨item, hinner⟩, by rw [Nat.zero_add]⟩

theorem mem_placesAll_iff {scope : Option String} {ds : List Declaration} {place : Place} :
    place ∈ placesAll 0 ds ↔ ∃ item, atAll scope ds place = some item := by
  cases place with
  | nil =>
    have hnil : ([] : Place) ∉ placesAll 0 ds := fun h => ne_nil_of_mem_placesAll h rfl
    simp [atAll, hnil]
  | cons i rest =>
    rw [mem_placesAll, atAll]
    constructor
    · rintro ⟨k, d, rest', hk, hrest, h⟩
      obtain ⟨rfl, rfl⟩ := List.cons.inj h
      rw [Nat.zero_add, hk]
      exact mem_places_iff.1 hrest
    · rintro ⟨item, hitem⟩
      obtain ⟨d, hi, hd⟩ := Option.bind_eq_some_iff.1 hitem
      exact ⟨i, d, rest, hi, mem_places_iff.2 ⟨item, hd⟩, by rw [Nat.zero_add]⟩

/-- The declarations are those at the places of the program, each once, in the order of writing. -/
def InOrder (program : List Declaration) (items : List Scoped) : Prop :=
  ∃ places : List Place, places.Pairwise (· < ·) ∧
    places.map (atAll none program) = items.map some ∧
    ∀ place item, atAll none program place = some item → place ∈ places

theorem inOrder_flattenAll (program : List Declaration) :
    InOrder program (flattenAll none program) :=
  ⟨placesAll 0 program, pairwise_placesAll 0 program, map_atAll_placesAll none [] program,
    fun _ item h => mem_placesAll_iff.2 ⟨item, h⟩⟩

namespace InOrder

variable {program : List Declaration} {items : List Scoped}

theorem mem_iff (h : InOrder program items) {item : Scoped} :
    item ∈ items ↔ ∃ place, atAll none program place = some item := by
  obtain ⟨places, -, hmap, hall⟩ := h
  have hsome : item ∈ items ↔ some item ∈ places.map (atAll none program) := by
    rw [hmap, List.mem_map_of_injective (Option.some_injective _)]
  rw [hsome, List.mem_map]
  exact ⟨fun hplace => hplace.imp fun place => And.right,
    fun hplace => hplace.imp fun place hitem => ⟨hall place item hitem, hitem⟩⟩

theorem mem_declaredNames_iff (h : InOrder program items) {name : String} :
    name ∈ declaredNames items ↔ ∃ place, nameAt? program place = some name := by
  have hdeclared : name ∈ declaredNames items ↔
      ∃ item ∈ items, item.2.signature?.map Prod.fst = some name := by
    rw [declaredNames, declared, List.map_filterMap, List.mem_filterMap]
  simp only [hdeclared, h.mem_iff, nameAt?, Option.bind_eq_some_iff]
  constructor
  · rintro ⟨item, ⟨place, hplace⟩, hname⟩
    exact ⟨place, item, hplace, hname⟩
  · rintro ⟨place, item, hplace, hname⟩
    exact ⟨item, ⟨place, hplace⟩, hname⟩

/-- The declared names come up once in the list exactly if no two places declare one name. -/
theorem nodup_declaredNames_iff (h : InOrder program items) :
    (declaredNames items).Nodup ↔ ∀ place place' name, nameAt? program place = some name →
      nameAt? program place' = some name → place = place' := by
  obtain ⟨places, hsorted, hmap, hall⟩ := h
  have hnames : declaredNames items = places.filterMap (nameAt? program) := by
    have hplaces : places.filterMap (nameAt? program) = (places.map (atAll none program)).filterMap
        fun found => found.bind fun item => item.2.signature?.map Prod.fst := by
      rw [List.filterMap_map]
      rfl
    rw [hplaces, hmap, List.filterMap_map, declaredNames, declared, List.map_filterMap]
    rfl
  have hmem : ∀ {place name}, nameAt? program place = some name → place ∈ places := by
    intro place name hname
    obtain ⟨item, hitem, -⟩ := Option.bind_eq_some_iff.1 hname
    exact hall place item hitem
  rw [hnames, List.Nodup, List.pairwise_filterMap]
  constructor
  · intro hpairwise place place' name hname hname'
    have hsymm : Std.Symm fun a a' : Place => ∀ b, nameAt? program a = some b →
        ∀ b', nameAt? program a' = some b' → b ≠ b' :=
      ⟨fun a a' h b hb b' hb' heq => h b' hb' b hb heq.symm⟩
    by_contra hne
    exact hpairwise.forall (hmem hname) (hmem hname') hne name hname name hname' rfl
  · intro hone
    refine hsorted.imp fun {place place'} hlt name hname name' hname' heq => ?_
    subst heq
    cases hone place place' name hname hname'
    exact lt_irrefl _ hlt

end InOrder

/-! ## What can be collected -/

/-- Names, words and scopes in the program are in order. -/
structure Collectible (program : List Declaration) : Prop where
  /-- No two spaces or shapes have one name. -/
  names : ∀ place place' name, nameAt? program place = some name →
    nameAt? program place' = some name → place = place'
  /-- The kinds of mappings are known, and their sides declared somewhere. -/
  mappings : ∀ place scope name kind source target,
    atAll none program place = some (scope, .mapping name kind source target) →
    (∃ k, MappingKind.ofName? kind = some k) ∧
      (∃ place', nameAt? program place' = some source) ∧
      ∃ place', nameAt? program place' = some target
  /-- Properties stand in a space or shape, and are known. -/
  properties : ∀ place scope word value,
    atAll none program place = some (scope, .property word value) →
    (∃ outer, scope = some outer) ∧ ∃ p, Property.ofName? word = some p
  /-- Invariants are about names that are declared somewhere. -/
  invariants : ∀ place scope claim, atAll none program place = some (scope, .invariant claim) →
    ∀ name ∈ claim.names, ∃ place', nameAt? program place' = some name

theorem StandsIn.mem_declaredNames {program : List Declaration} {outer : String} {d : Declaration}
    (h : StandsIn program (some outer) d) :
    outer ∈ declaredNames (flattenAll none program) := by
  cases h with
  | inside houter hname hmem => exact mem_declaredNames_iff.2 ⟨_, _, _, houter, hname⟩

/-- What a declaration has around it and declares itself is declared, so that the conditions on a
program are those on mappings, properties and invariants. -/
theorem collectible_iff {program : List Declaration} :
    Collectible program ↔ (declaredNames (flattenAll none program)).Nodup ∧
      ∀ item ∈ flattenAll none program,
        Admissible (· ∈ declaredNames (flattenAll none program)) item := by
  have horder := inOrder_flattenAll program
  rw [horder.nodup_declaredNames_iff]
  constructor
  · intro h
    refine ⟨h.names, ?_⟩
    rintro ⟨scope, d⟩ hmem
    have hstands := mem_flattenAll_iff.1 hmem
    obtain ⟨place, hplace⟩ := horder.mem_iff.1 hmem
    cases d with
    | space name type body => trivial
    | shape name type body =>
      refine ⟨mem_declaredNames_iff.2 ⟨_, _, _, hstands, rfl⟩, ?_⟩
      rintro outer rfl
      exact hstands.mem_declaredNames
    | mapping name kind source target =>
      simp only [Admissible, horder.mem_declaredNames_iff]
      exact h.mappings place scope name kind source target hplace
    | property word value =>
      obtain ⟨⟨outer, rfl⟩, hword⟩ := h.properties place scope word value hplace
      exact ⟨outer, rfl, hstands.mem_declaredNames, hword⟩
    | invariant claim =>
      simp only [Admissible, horder.mem_declaredNames_iff]
      exact h.invariants place scope claim hplace
  · rintro ⟨hnames, hadmissible⟩
    have hat : ∀ {place item}, atAll none program place = some item → Admissible
        (fun name => ∃ place, nameAt? program place = some name) item := fun hplace =>
      (hadmissible _ (horder.mem_iff.2 ⟨_, hplace⟩)).mono fun _ => horder.mem_declaredNames_iff.1
    refine ⟨hnames, ?_, ?_, ?_⟩
    · intro place scope name kind source target hplace
      exact hat hplace
    · intro place scope word value hplace
      obtain ⟨outer, hscope, -, hword⟩ := hat hplace
      exact ⟨⟨outer, hscope⟩, hword⟩
    · intro place scope claim hplace
      exact hat hplace

/-- The declaration asks something of a variable: a shape in a space or shape, a mapping, or a
property. -/
def asks : Scoped → Bool
  | (some _, shape _ _ _) => true
  | (_, mapping _ _ _ _) => true
  | (_, property _ _) => true
  | _ => false

/-- An admissible declaration has a goal exactly if it asks something of a variable. -/
theorem isSome_goal? {resolve : String → Option Nat} {item : Scoped}
    (h : Admissible (fun name => ∃ i, resolve name = some i) item) :
    (goal? resolve item).isSome = asks item := by
  obtain ⟨scope, d⟩ := item
  cases d with
  | space name type body => cases scope <;> rfl
  | shape name type body =>
    cases scope with
    | none => rfl
    | some outer =>
      obtain ⟨⟨i, hi⟩, houter⟩ := h
      obtain ⟨j, hj⟩ := houter outer rfl
      simp [goal?, asks, hi, hj]
  | mapping name kind source target =>
    obtain ⟨⟨k, hk⟩, ⟨i, hi⟩, j, hj⟩ := h
    cases scope <;> simp [goal?, asks, hk, hi, hj]
  | property word value =>
    obtain ⟨outer, rfl, ⟨i, hi⟩, p, hp⟩ := h
    simp [goal?, asks, hi, hp]
  | invariant claim => cases scope <;> rfl

/-- The declarations that ask for something have one goal each, in their order. -/
theorem forall₂_yields {resolve : String → Option Nat} {items : List Scoped}
    (h : ∀ item ∈ items, Admissible (fun name => ∃ i, resolve name = some i) item) :
    List.Forall₂ (Yields resolve) (items.filter asks) (items.filterMap (goal? resolve)) :=
  (forall₂_filterMap fun item hmem => isSome_goal? (h item hmem)).imp
    fun _ _ => goal?_eq_some_iff.1

end Declaration

open Declaration

namespace Collection

variable {ρ : Type}

/-- The collection has the variables and goals of the declarations, in their order. -/
structure Emits (config : Config) (items : List Scoped) (c : Collection ρ) : Prop where
  /-- The variables are those of the spaces and shapes, and the ones with a type are bound. -/
  entries : c.system.vars.entries = (declared items).map toVariable
  /-- A name stands for the variable at its position. -/
  numbers : ∀ name i, c.names.find? name = some i ↔ (declaredNames items)[i]? = some name
  /-- The goals are those of the declarations that ask for something, and then, if inference is to
  derive by the rules, one to do so for each variable. -/
  goals : ∃ demands, List.Forall₂ (Yields c.names.find?) (items.filter asks) demands ∧
    c.system.goals = demands ++
      if config.deriveByRules then (List.range (declared items).length).map .derive else []

theorem Collected.emits {config : Config} {items : List Scoped} {c : Collection ρ}
    (h : c.Collected config items) : c.Emits config items where
  entries := h.entries_eq
  numbers name i := by
    rw [h.indexed name i, Variables.name?, h.entries_eq, declaredNames, List.getElem?_map,
      List.getElem?_map, Option.map_map]
    rfl
  goals := by
    refine ⟨_, forall₂_yields h.admissible, ?_⟩
    rw [h.goals_eq, Variables.size, h.entries_eq, List.length_map]

/-- Collecting succeeds exactly if names, words and scopes in the program are in order, and yields
the variables and goals of its declarations in the order of writing. -/
theorem collects_in_order (config : Config) (program : List Declaration) :
    InOrder program (flattenAll none program) ∧
    ((∃ c, ({} : Collection ρ).collect config program = (c, none)) ↔ Collectible program) ∧
    ∀ c, ({} : Collection ρ).collect config program = (c, none) →
      c.Emits config (flattenAll none program) := by
  refine ⟨inOrder_flattenAll program, ?_, fun c h => (collected_of_collect h).emits⟩
  rw [collectible_iff]
  constructor
  · rintro ⟨c, h⟩
    have hcollected := collected_of_collect h
    exact ⟨hcollected.nodup, fun item hmem => (hcollected.admissible item hmem).mono fun name =>
      (hcollected.indexed.knows_iff hcollected.entries_eq).1⟩
  · rintro ⟨hnodup, hadmissible⟩
    exact collect_ok config hnodup hadmissible

theorem nestedShapes_collected : ∃ c : Collection Refinement,
    ({} : Collection Refinement).collect {} nestedShapes = (c, none) ∧
    c.system.goals = [.preserve 1 3 .homotopy, .sameAs 1 0, .subtype 2 1,
      .property 2 (.topology .compact) true, .property 1 (.topology .metrizable) true,
      .property 0 (.topology .connected) false, .derive 0, .derive 1, .derive 2, .derive 3] ∧
    c.Emits {} (flattenAll none nestedShapes) := by
  have hend : (({} : Collection Refinement).collect {} nestedShapes).2 = none := by
    decide +kernel
  exact ⟨_, Prod.ext rfl hend, by decide +kernel,
    (collects_in_order {} nestedShapes).2.2 _ (Prod.ext rfl hend)⟩

end Collection

end SpaceTypes
