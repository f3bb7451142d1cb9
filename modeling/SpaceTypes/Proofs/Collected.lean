import SpaceTypes.Program.Collection
import SpaceTypes.Proofs.Moves

/-!
# What is collected from declarations

Collecting the declarations of a program succeeds exactly when no name is declared twice and every
declaration is admissible: the names that it uses are declared, its kind of mapping or its property
is known, and a property stands in a space or shape (`Collection.collect_ok`). Then there is a
variable for each space and shape, in the order of writing, and the goals and claims are those of
the declarations, in the order of writing (`Collection.Collected`).

None of the conditions depends on the order of the declarations.
-/

namespace SpaceTypes

/-- A declaration with the name of the space or shape it stands in. -/
abbrev Scoped := Option String × Declaration

namespace Declaration

/-- The name that a space or shape declares, and its type if it has one of its own. -/
def signature? : Declaration → Option (String × Option TypeExpr)
  | space name type _ => some (name, some type)
  | shape name type _ => some (name, type)
  | _ => none

/-- The declared names with their types, in the order of writing. -/
def declared (items : List Scoped) : List (String × Option TypeExpr) :=
  items.filterMap fun item => item.2.signature?

/-- The declared names, in the order of writing. -/
def declaredNames (items : List Scoped) : List String := (declared items).map Prod.fst

theorem declaredNames_cons_of_none {item : Scoped} (h : item.2.signature? = none)
    (rest : List Scoped) : declaredNames (item :: rest) = declaredNames rest := by
  simp [declaredNames, declared, h]

theorem declaredNames_cons_of_some {item : Scoped} {e : String × Option TypeExpr}
    (h : item.2.signature? = some e) (rest : List Scoped) :
    declaredNames (item :: rest) = e.1 :: declaredNames rest := by
  simp [declaredNames, declared, h]

/-- The goal of a declaration, for the variables of the names. -/
def goal? (resolve : String → Option Nat) : Scoped → Option Goal
  | (_, space _ _ _) => none
  | (scope, shape name type _) =>
    scope.bind fun outer => (resolve name).bind fun i => (resolve outer).map fun j =>
      if type.isSome then .subtype i j else .sameAs i j
  | (_, mapping _ kind source target) =>
    (MappingKind.ofName? kind).bind fun k =>
      (resolve source).bind fun i => (resolve target).map fun j => .preserve i j k
  | (scope, property name value) =>
    scope.bind fun outer => (resolve outer).bind fun i =>
      (Property.ofName? name).map fun p => .property i p value
  | (_, invariant _) => none

/-- The mapping that a declaration has verified. -/
def mappingClaim? : Scoped → Option MappingClaim
  | (_, mapping name kind source target) =>
    (MappingKind.ofName? kind).map fun k => ⟨name, k, source, target⟩
  | _ => none

/-- The invariant that a declaration has verified. -/
def invariantClaim? : Scoped → Option Invariant
  | (_, invariant claim) => some claim
  | _ => none

/-- The names, words and scope of a declaration are in order. -/
def Admissible (known : String → Prop) : Scoped → Prop
  | (_, space _ _ _) => True
  | (scope, shape name _ _) => known name ∧ ∀ outer, scope = some outer → known outer
  | (_, mapping _ kind source target) =>
    (∃ k, MappingKind.ofName? kind = some k) ∧ known source ∧ known target
  | (scope, property name _) =>
    ∃ outer, scope = some outer ∧ known outer ∧ ∃ p, Property.ofName? name = some p
  | (_, invariant claim) => ∀ name ∈ claim.names, known name

theorem Admissible.mono {known known' : String → Prop} (hknown : ∀ n, known n → known' n)
    {item : Scoped} (h : Admissible known item) : Admissible known' item := by
  obtain ⟨scope, d⟩ := item
  cases d with
  | space name type body => trivial
  | shape name type body => exact ⟨hknown _ h.1, fun outer houter => hknown _ (h.2 outer houter)⟩
  | mapping name kind source target => exact ⟨h.1, hknown _ h.2.1, hknown _ h.2.2⟩
  | property name value =>
    obtain ⟨outer, hscope, houter, hp⟩ := h
    exact ⟨outer, hscope, hknown _ houter, hp⟩
  | invariant claim => exact fun name hname => hknown _ (h name hname)

/-- If no name is declared twice, only one declaration declares a name. -/
theorem eq_of_signature? {items : List Scoped} (hnodup : (declaredNames items).Nodup)
    {item item' : Scoped} (hmem : item ∈ items) (hmem' : item' ∈ items)
    {e e' : String × Option TypeExpr} (he : item.2.signature? = some e)
    (he' : item'.2.signature? = some e') (hname : e.1 = e'.1) : item = item' := by
  have hpairwise : items.Pairwise fun a a' => ∀ e, a.2.signature? = some e →
      ∀ e', a'.2.signature? = some e' → e.1 ≠ e'.1 := by
    rw [← List.pairwise_filterMap, ← List.pairwise_map]
    exact hnodup
  have hsymm : Std.Symm fun a a' : Scoped => ∀ e, a.2.signature? = some e →
      ∀ e', a'.2.signature? = some e' → e.1 ≠ e'.1 :=
    ⟨fun a a' h e he e' he' heq => h e' he' e he heq.symm⟩
  by_contra hne
  exact hpairwise.forall hmem hmem' hne e he e' he' hname

end Declaration

namespace Collection

variable {ρ : Type} {c c' : Collection ρ} {items : List Scoped}

/-! ## Variables -/

/-- The names refer to the variables that they are the names of. -/
def Indexed (c : Collection ρ) : Prop :=
  ∀ name i, c.names.find? name = some i ↔ c.system.vars.name? i = some name

theorem name?_spawn (vars : Variables ρ) (name : String) (binding : Option (Ty ρ)) (i : Nat) :
    (vars.spawn name binding).name? i = if i = vars.size then some name else vars.name? i := by
  unfold Variables.name? Variables.spawn
  by_cases hlt : i < vars.size
  · rw [List.getElem?_append_left hlt, if_neg (Nat.ne_of_lt hlt)]
  · have hle : vars.entries.length ≤ i := Nat.le_of_not_lt hlt
    rw [List.getElem?_append_right hle]
    by_cases heq : i = vars.size
    · simp [heq, Variables.size]
    · have hlt' : vars.entries.length < i := Nat.lt_of_le_of_ne hle (Ne.symm heq)
      rw [if_neg heq, List.getElem?_eq_none hle,
        List.getElem?_eq_none (by rw [List.length_singleton]; omega)]

theorem Indexed.declareName (h : c.Indexed) {name : String} (hfresh : c.names.find? name = none)
    (type : Option TypeExpr) : (c.declareName name type).1.Indexed := by
  intro other i
  simp only [Collection.declareName, GoalSystem.spawn, name?_spawn]
  by_cases hname : other = name
  · subst hname
    rw [NameTable.find?_insert_self]
    by_cases hi : i = c.system.vars.size
    · simp [hi]
    · rw [if_neg hi, ← h other i, hfresh]
      simpa using Ne.symm hi
  · rw [NameTable.find?_insert_of_ne _ hname]
    by_cases hi : i = c.system.vars.size
    · rw [if_pos hi, h other i, hi]
      have hnone : c.system.vars.name? c.system.vars.size = none := by
        simp [Variables.name?, Variables.size]
      simp [hnone, Ne.symm hname]
    · rw [if_neg hi, h other i]

/-- The variable that a declaration makes. -/
def toVariable (e : String × Option TypeExpr) : Variable ρ := ⟨e.1, e.2.map TypeExpr.toTy⟩

theorem declare_eq (c : Collection ρ) (d : Declaration) :
    c.declare d = match d.signature? with
      | some e => c.declareName e.1 e.2
      | none => (c, none) := by
  cases d <;> rfl

/-- The first round makes a variable for each declared name and changes nothing else. -/
theorem declareAll_spec (hc : c.Indexed) (h : c.declareAll items = (c', none)) :
    c'.Indexed ∧
    c'.system.vars.entries =
      c.system.vars.entries ++ (Declaration.declared items).map toVariable ∧
    c'.system.goals = c.system.goals ∧ c'.mappings = c.mappings ∧
      c'.invariants = c.invariants ∧
    (Declaration.declaredNames items).Nodup ∧
    ∀ name ∈ Declaration.declaredNames items, c.names.find? name = none := by
  induction items generalizing c with
  | nil =>
    cases h
    exact ⟨hc, (List.append_nil _).symm, rfl, rfl, rfl, List.nodup_nil,
      fun name hname => absurd hname List.not_mem_nil⟩
  | cons item rest ih =>
    rw [declareAll, declare_eq] at h
    cases he : item.2.signature? with
    | none =>
      simp only [he] at h
      simpa [Declaration.declared, Declaration.declaredNames, he] using ih hc h
    | some e =>
      simp only [he, declareName] at h
      cases hfind : c.names.find? e.1 with
      | some i => simp [NameTable.contains, hfind] at h
      | none =>
        simp only [NameTable.contains, hfind, Option.isSome_none, Bool.false_eq_true,
          if_false] at h
        obtain ⟨hindexed, hentries, hgoals, hmappings, hinvariants, hnodup, hfresh⟩ :=
          ih (hc.declareName hfind e.2) h
        have hother : ∀ name ∈ Declaration.declaredNames rest,
            name ≠ e.1 ∧ c.names.find? name = none := by
          intro name hname
          have hnone : (c.names.insert e.1 c.system.vars.size).find? name = none :=
            hfresh name hname
          have hne : name ≠ e.1 := by
            rintro rfl
            simp at hnone
          exact ⟨hne, by rwa [NameTable.find?_insert_of_ne _ hne] at hnone⟩
        rw [Declaration.declaredNames_cons_of_some he]
        refine ⟨hindexed, ?_, hgoals, hmappings, hinvariants, ?_, ?_⟩
        · rw [hentries]
          simp [Declaration.declared, he, declareName, GoalSystem.spawn, Variables.spawn,
            toVariable]
        · exact List.nodup_cons.2 ⟨fun hmem => (hother e.1 hmem).1 rfl, hnodup⟩
        · intro name hname
          rcases List.mem_cons.1 hname with rfl | hname
          · exact hfind
          · exact (hother name hname).2

/-- The first round succeeds if the declared names are new and different. -/
theorem declareAll_ok (hnodup : (Declaration.declaredNames items).Nodup)
    (hfresh : ∀ name ∈ Declaration.declaredNames items, c.names.find? name = none) :
    ∃ c', c.declareAll items = (c', none) := by
  induction items generalizing c with
  | nil => exact ⟨c, rfl⟩
  | cons item rest ih =>
    rw [declareAll, declare_eq]
    cases he : item.2.signature? with
    | none =>
      rw [Declaration.declaredNames_cons_of_none he] at hnodup hfresh
      exact ih hnodup hfresh
    | some e =>
      rw [Declaration.declaredNames_cons_of_some he] at hnodup hfresh
      obtain ⟨hnew, hnodup⟩ := List.nodup_cons.1 hnodup
      have hfind : c.names.find? e.1 = none := hfresh e.1 List.mem_cons_self
      simp only [declareName, NameTable.contains, hfind, Option.isSome_none, Bool.false_eq_true,
        if_false]
      refine ih hnodup fun name hname => ?_
      have hne : name ≠ e.1 := by
        rintro rfl
        exact hnew hname
      rw [NameTable.find?_insert_of_ne _ hne]
      exact hfresh name (List.mem_cons_of_mem _ hname)

/-! ## Goals and claims -/

/-- The collection with the goals and claims of the declarations. -/
def extend (c : Collection ρ) (items : List Scoped) : Collection ρ :=
  { c with
    system.goals := c.system.goals ++ items.filterMap (Declaration.goal? c.names.find?)
    mappings := c.mappings ++ items.filterMap Declaration.mappingClaim?
    invariants := c.invariants ++ items.filterMap Declaration.invariantClaim? }

/-- The name has a variable. -/
def Knows (c : Collection ρ) (name : String) : Prop := ∃ i, c.names.find? name = some i

theorem lookup_eq_ok_iff {name : String} {i : Nat} :
    c.lookup name = .ok i ↔ c.names.find? name = some i := by
  unfold lookup
  split <;> simp_all

theorem lookupAll_eq_ok_iff {names : List String} :
    c.lookupAll names = .ok () ↔ ∀ name ∈ names, c.Knows name := by
  induction names with
  | nil => simp [lookupAll]
  | cons name rest ih =>
    simp only [lookupAll, bind_eq_ok_iff, lookup_eq_ok_iff, ih, List.forall_mem_cons, Knows,
      exists_and_right]

/-- An admissible declaration is collected. -/
theorem addDeclaration_ok {item : Scoped} (h : Declaration.Admissible c.Knows item) :
    c.addDeclaration item.1 item.2 = .ok (c.extend [item]) := by
  have extend_goal : ∀ {item : Scoped} {goal : Goal},
      Declaration.goal? c.names.find? item = some goal →
      Declaration.mappingClaim? item = none → Declaration.invariantClaim? item = none →
      c.extend [item] = c.addGoal goal := by
    intro item goal hgoal hmapping hinvariant
    simp [extend, addGoal, GoalSystem.addGoal, hgoal, hmapping, hinvariant]
  obtain ⟨scope, d⟩ := item
  cases d with
  | space name type body =>
    simp [addDeclaration, extend, List.filterMap_cons, Declaration.goal?,
      Declaration.mappingClaim?, Declaration.invariantClaim?]
  | shape name type body =>
    obtain ⟨⟨i, hi⟩, houter⟩ := h
    refine bind_eq_ok_iff.2 ⟨i, lookup_eq_ok_iff.2 hi, ?_⟩
    cases scope with
    | none =>
      simp [extend, List.filterMap_cons, Declaration.goal?, Declaration.mappingClaim?,
        Declaration.invariantClaim?, pure, Except.pure]
    | some outer =>
      obtain ⟨j, hj⟩ := houter outer rfl
      refine bind_eq_ok_iff.2 ⟨j, lookup_eq_ok_iff.2 hj, ?_⟩
      cases type with
      | none =>
        rw [extend_goal (by simp only [Declaration.goal?, Option.bind_some, hi, hj]; rfl) rfl rfl]
        rfl
      | some type =>
        rw [extend_goal (by simp only [Declaration.goal?, Option.bind_some, hi, hj]; rfl) rfl rfl]
        rfl
  | mapping name kind source target =>
    obtain ⟨⟨k, hk⟩, ⟨i, hi⟩, j, hj⟩ := h
    have hnamed : (MappingKind.named kind).mapError ProgramError.assembly = .ok k := by
      simp [MappingKind.named, hk, Except.mapError]
    refine bind_eq_ok_iff.2 ⟨k, hnamed, bind_eq_ok_iff.2 ⟨i, lookup_eq_ok_iff.2 hi,
      bind_eq_ok_iff.2 ⟨j, lookup_eq_ok_iff.2 hj, ?_⟩⟩⟩
    simp [extend, addGoal, GoalSystem.addGoal, Declaration.goal?, Declaration.mappingClaim?,
      Declaration.invariantClaim?, hk, hi, hj, pure, Except.pure]
  | property name value =>
    obtain ⟨outer, rfl, ⟨i, hi⟩, p, hp⟩ := h
    have hnamed : (Property.named name).mapError ProgramError.assembly = .ok p := by
      simp [Property.named, hp, Except.mapError]
    refine bind_eq_ok_iff.2 ⟨i, lookup_eq_ok_iff.2 hi, bind_eq_ok_iff.2 ⟨p, hnamed, ?_⟩⟩
    rw [extend_goal (by simp only [Declaration.goal?, Option.bind_some, hi, hp]; rfl) rfl rfl]
    rfl
  | invariant claim =>
    refine bind_eq_ok_iff.2 ⟨(), lookupAll_eq_ok_iff.2 h, ?_⟩
    simp [extend, List.filterMap_cons, Declaration.goal?, Declaration.mappingClaim?,
      Declaration.invariantClaim?, pure, Except.pure]

/-- Only admissible declarations are collected. -/
theorem admissible_of_addDeclaration {item : Scoped}
    (h : c.addDeclaration item.1 item.2 = .ok c') : Declaration.Admissible c.Knows item := by
  obtain ⟨scope, d⟩ := item
  cases d with
  | space name type body => trivial
  | shape name type body =>
    obtain ⟨i, hi, htail⟩ := bind_eq_ok_iff.1 h
    refine ⟨⟨i, lookup_eq_ok_iff.1 hi⟩, ?_⟩
    rintro outer rfl
    obtain ⟨j, hj, -⟩ := bind_eq_ok_iff.1 htail
    exact ⟨j, lookup_eq_ok_iff.1 hj⟩
  | mapping name kind source target =>
    obtain ⟨k, hk, htail⟩ := bind_eq_ok_iff.1 h
    obtain ⟨i, hi, htail'⟩ := bind_eq_ok_iff.1 htail
    obtain ⟨j, hj, -⟩ := bind_eq_ok_iff.1 htail'
    refine ⟨⟨k, ?_⟩, ⟨i, lookup_eq_ok_iff.1 hi⟩, j, lookup_eq_ok_iff.1 hj⟩
    unfold MappingKind.named at hk
    split at hk
    case h_1 kind' hkind =>
      cases hk
      exact hkind
    case h_2 => cases hk
  | property name value =>
    cases scope with
    | none => cases h
    | some outer =>
      obtain ⟨i, hi, htail⟩ := bind_eq_ok_iff.1 h
      obtain ⟨p, hp, -⟩ := bind_eq_ok_iff.1 htail
      refine ⟨outer, rfl, ⟨i, lookup_eq_ok_iff.1 hi⟩, p, ?_⟩
      unfold Property.named at hp
      split at hp
      case h_1 p' hname =>
        cases hp
        exact hname
      case h_2 => cases hp
  | invariant claim =>
    obtain ⟨⟨⟩, hnames, -⟩ := bind_eq_ok_iff.1 h
    exact lookupAll_eq_ok_iff.1 hnames

theorem extend_append (c : Collection ρ) (items items' : List Scoped) :
    (c.extend items).extend items' = c.extend (items ++ items') := by
  simp [extend]

/-- The second round adds the goals and claims of all declarations, if they are admissible. -/
theorem addAll_ok (h : ∀ item ∈ items, Declaration.Admissible c.Knows item) :
    c.addAll items = (c.extend items, none) := by
  induction items generalizing c with
  | nil => simp [addAll, extend]
  | cons item rest ih =>
    have hrest : ∀ item' ∈ rest, Declaration.Admissible (c.extend [item]).Knows item' :=
      fun item' hmem => h item' (List.mem_cons_of_mem _ hmem)
    rw [addAll, addDeclaration_ok (h item List.mem_cons_self)]
    dsimp only
    rw [ih hrest, extend_append]
    rfl

theorem admissible_of_addAll (h : c.addAll items = (c', none)) :
    ∀ item ∈ items, Declaration.Admissible c.Knows item := by
  induction items generalizing c with
  | nil =>
    intro item hmem
    cases hmem
  | cons item rest ih =>
    rw [addAll] at h
    cases hadd : c.addDeclaration item.1 item.2 with
    | error e => simp [hadd] at h
    | ok mid =>
      have hadmissible := admissible_of_addDeclaration hadd
      have hmid : mid = c.extend [item] :=
        Except.ok.inj (hadd.symm.trans (addDeclaration_ok hadmissible))
      simp only [hadd] at h
      intro item' hmem
      rcases List.mem_cons.1 hmem with rfl | hmem
      · exact hadmissible
      · subst hmid
        exact ih h item' hmem

/-! ## Whole programs -/

/-- What is collected from the declarations of a program. -/
structure Collected (config : Config) (items : List Scoped) (c : Collection ρ) : Prop where
  /-- Names and variables belong together. -/
  indexed : c.Indexed
  /-- No name is declared twice. -/
  nodup : (Declaration.declaredNames items).Nodup
  /-- Every declaration is admissible. -/
  admissible : ∀ item ∈ items, Declaration.Admissible c.Knows item
  /-- There is a variable for each declared name. -/
  entries_eq : c.system.vars.entries = (Declaration.declared items).map toVariable
  /-- The goals are those of the declarations, and the rules apply to each variable. -/
  goals_eq : c.system.goals = items.filterMap (Declaration.goal? c.names.find?) ++
    if config.deriveByRules then (List.range c.system.vars.size).map .derive else []
  /-- The mappings are those of the declarations. -/
  mappings_eq : c.mappings = items.filterMap Declaration.mappingClaim?
  /-- The invariants are those of the declarations. -/
  invariants_eq : c.invariants = items.filterMap Declaration.invariantClaim?

theorem indexed_empty : ({} : Collection ρ).Indexed := by
  intro name i
  constructor
  · intro h
    cases h
  · intro h
    simp [Variables.name?, Variables.empty] at h

/-- With an index every variable is the one of its name. -/
theorem Indexed.namedVariables_eq (h : c.Indexed) :
    c.namedVariables = List.range c.system.vars.size := by
  refine List.filter_eq_self.2 fun i hi => ?_
  have hlt : i < c.system.vars.entries.length := List.mem_range.1 hi
  have hname : c.system.vars.name? i = some c.system.vars.entries[i].name := by
    simp [Variables.name?, List.getElem?_eq_getElem hlt]
  simp [hname, (h _ i).2 hname]

/-- The names with a variable are the declared ones. -/
theorem Indexed.knows_iff (h : c.Indexed)
    (hentries : c.system.vars.entries = (Declaration.declared items).map toVariable)
    {name : String} : c.Knows name ↔ name ∈ Declaration.declaredNames items := by
  have hnames : ∀ i, c.system.vars.name? i = (Declaration.declaredNames items)[i]? := by
    intro i
    simp only [Variables.name?, hentries, Declaration.declaredNames, List.getElem?_map,
      Option.map_map]
    rfl
  simp only [Knows, h name, hnames, List.mem_iff_getElem?]

theorem collected_of_collect {config : Config} {declarations : List Declaration}
    (h : ({} : Collection ρ).collect config declarations = (c, none)) :
    Collected config (Declaration.flattenAll none declarations) c := by
  unfold collect at h
  rcases hdeclare : ({} : Collection ρ).declareAll (Declaration.flattenAll none declarations)
    with ⟨mid, _ | error⟩
  case some => simp [hdeclare] at h
  obtain ⟨hindexed, hentries, hgoals, hmappings, hinvariants, hnodup, -⟩ :=
    declareAll_spec indexed_empty hdeclare
  rcases hadd : mid.addAll (Declaration.flattenAll none declarations) with ⟨last, _ | error⟩
  case some => simp [hdeclare, hadd] at h
  have hadmissible := admissible_of_addAll hadd
  rw [addAll_ok hadmissible] at hadd
  obtain ⟨rfl, -⟩ := Prod.mk.inj hadd
  have hindexed' : (mid.extend (Declaration.flattenAll none declarations)).Indexed := hindexed
  simp only [hdeclare, addAll_ok hadmissible, Prod.mk.injEq, and_true] at h
  cases hrules : config.deriveByRules with
  | true =>
    simp only [hrules, if_true] at h
    subst h
    refine ⟨hindexed, hnodup, hadmissible, hentries, ?_, ?_, ?_⟩
    · rw [if_pos hrules]
      simp only [addDerivations, hindexed'.namedVariables_eq]
      simp [extend, hgoals]
    · simp [addDerivations, extend, hmappings]
    · simp [addDerivations, extend, hinvariants]
  | false =>
    simp only [hrules, Bool.false_eq_true, if_false] at h
    subst h
    refine ⟨hindexed, hnodup, hadmissible, hentries, ?_, ?_, ?_⟩
    · simp [extend, hgoals, hrules]
    · simp [extend, hmappings]
    · simp [extend, hinvariants]

/-- Collecting succeeds if no name is declared twice and every declaration is admissible. -/
theorem collect_ok (config : Config) {declarations : List Declaration}
    (hnodup : (Declaration.declaredNames (Declaration.flattenAll none declarations)).Nodup)
    (hadmissible : ∀ item ∈ Declaration.flattenAll none declarations, Declaration.Admissible
      (· ∈ Declaration.declaredNames (Declaration.flattenAll none declarations)) item) :
    ∃ c, ({} : Collection ρ).collect config declarations = (c, none) := by
  obtain ⟨mid, hdeclare⟩ := declareAll_ok (c := ({} : Collection ρ)) hnodup fun _ _ => rfl
  obtain ⟨hindexed, hentries, -⟩ := declareAll_spec indexed_empty hdeclare
  have hadd := addAll_ok fun item hitem => (hadmissible item hitem).mono fun name hname =>
    (hindexed.knows_iff hentries).2 hname
  unfold collect
  simp only [hdeclare, hadd]
  exact ⟨_, rfl⟩

end Collection

end SpaceTypes
