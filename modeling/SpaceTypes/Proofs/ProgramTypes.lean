import SpaceTypes.Proofs.Accepted
import SpaceTypes.Proofs.LeastTypes
import SpaceTypes.Refinement

/-!
# The types of an accepted program

What the environment of an accepted program says about the names, in terms of the declarations as
they are written (`Environment.Realizes`). A declaration stands directly in one space or shape, or
outside of all (`Declaration.StandsIn`), however deep it is nested and in whatever order names are
declared and used. A space or shape has the type that it is declared with, or without one the type
of what it stands in together with all of its properties; a shape with a type has a subtype of what
it stands in; and the properties that stand in it are in the outermost registry of its type.

Only outermost registries are ever written to, so those below are empty (`Solved.registry_cases`),
and what is said of the registries of a type holds for all of them.
-/

namespace SpaceTypes

/-! ## Nested declarations -/

namespace Declaration

/-- The declaration stands somewhere in the program, directly inside the space or shape of the
given name, or outside of all. -/
inductive StandsIn (program : List Declaration) : Option String → Declaration → Prop where
  | outermost {d : Declaration} (hmem : d ∈ program) : StandsIn program none d
  | inside {scope : Option String} {outer d : Declaration} {name : String}
      {type : Option TypeExpr} (houter : StandsIn program scope outer)
      (hname : outer.signature? = some (name, type)) (hmem : d ∈ outer.body) :
      StandsIn program (some name) d

variable {program : List Declaration}

theorem mem_flatten_self (scope : Option String) (d : Declaration) :
    (scope, d) ∈ flatten scope d := by
  cases d <;> simp [flatten]

mutual

theorem StandsIn.of_mem_flatten (scope : Option String) (d : Declaration)
    (h : StandsIn program scope d) {item : Scoped} (hitem : item ∈ flatten scope d) :
    StandsIn program item.1 item.2 := by
  cases d with
  | space name type body | shape name type body =>
    rw [flatten, List.mem_cons] at hitem
    rcases hitem with rfl | hitem
    · exact h
    · exact of_mem_flattenAll (some name) body (fun d hd => .inside h rfl hd) hitem
  | _ =>
    rw [flatten, List.mem_singleton] at hitem
    rw [hitem]
    exact h

theorem StandsIn.of_mem_flattenAll (scope : Option String) (ds : List Declaration)
    (h : ∀ d ∈ ds, StandsIn program scope d) {item : Scoped}
    (hitem : item ∈ flattenAll scope ds) : StandsIn program item.1 item.2 := by
  cases ds with
  | nil => cases hitem
  | cons d rest =>
    rw [flattenAll, List.mem_append] at hitem
    rcases hitem with hitem | hitem
    · exact of_mem_flatten scope d (h d List.mem_cons_self) hitem
    · exact of_mem_flattenAll scope rest (fun d hd => h d (List.mem_cons_of_mem _ hd)) hitem

end

mutual

/-- With a declaration, all that stands in it is listed. -/
theorem body_subset_flatten (scope : Option String) (d : Declaration) {item : Scoped}
    (hitem : item ∈ flatten scope d) {e : String × Option TypeExpr}
    (he : item.2.signature? = some e) :
    flattenAll (some e.1) item.2.body ⊆ flatten scope d := by
  cases d with
  | space name type body | shape name type body =>
    rw [flatten, List.mem_cons] at hitem
    rw [flatten]
    rcases hitem with rfl | hitem
    · cases he
      exact List.subset_cons_self _ _
    · exact List.subset_cons_of_subset _ (body_subset_flattenAll (some name) body hitem he)
  | _ =>
    rw [flatten, List.mem_singleton] at hitem
    rw [hitem] at he
    cases he

theorem body_subset_flattenAll (scope : Option String) (ds : List Declaration) {item : Scoped}
    (hitem : item ∈ flattenAll scope ds) {e : String × Option TypeExpr}
    (he : item.2.signature? = some e) :
    flattenAll (some e.1) item.2.body ⊆ flattenAll scope ds := by
  cases ds with
  | nil => cases hitem
  | cons d rest =>
    rw [flattenAll, List.mem_append] at hitem
    rw [flattenAll]
    rcases hitem with hitem | hitem
    · exact List.subset_append_of_subset_left _ (body_subset_flatten scope d hitem he)
    · exact List.subset_append_of_subset_right _ (body_subset_flattenAll scope rest hitem he)

end

/-- The list of all declarations with their scopes lists what stands in the program. -/
theorem mem_flattenAll_iff {scope : Option String} {d : Declaration} :
    (scope, d) ∈ flattenAll none program ↔ StandsIn program scope d := by
  have mem_of_mem : ∀ {scope : Option String} {ds : List Declaration} {d : Declaration},
      d ∈ ds → (scope, d) ∈ flattenAll scope ds := by
    intro scope ds d hd
    rw [flattenAll_eq_flatMap]
    exact List.mem_flatMap.2 ⟨d, hd, mem_flatten_self scope d⟩
  constructor
  · exact StandsIn.of_mem_flattenAll none program fun d hd => .outermost hd
  · intro h
    induction h with
    | outermost hmem => exact mem_of_mem hmem
    | inside _ hname hmem ih => exact body_subset_flattenAll none program ih hname (mem_of_mem hmem)

theorem mem_declaredNames_iff {name : String} :
    name ∈ declaredNames (flattenAll none program) ↔
      ∃ scope d type, StandsIn program scope d ∧ d.signature? = some (name, type) := by
  constructor
  · intro hmem
    obtain ⟨⟨_, type⟩, hdeclared, rfl⟩ := List.mem_map.1 hmem
    obtain ⟨⟨scope, d⟩, hitem, he⟩ := List.mem_filterMap.1 hdeclared
    exact ⟨scope, d, type, mem_flattenAll_iff.1 hitem, he⟩
  · rintro ⟨scope, d, type, hstands, he⟩
    exact List.mem_map.2 ⟨_, List.mem_filterMap.2 ⟨_, mem_flattenAll_iff.2 hstands, he⟩, rfl⟩

end Declaration

open Declaration

variable {ρ : Type}

/-! ## Registries under the outermost one -/

/-- All registries of a written type are empty. -/
theorem TypeExpr.registry_eq_empty (e : TypeExpr) {layer : Ty ρ} (hlayer : layer ∈ e.toTy.chain)
    {r : Registry TopologyProperty} (hr : layer.topologyRegistry? = some r) : r = .empty := by
  obtain ⟨inner, rfl⟩ := e.exists_toTy_of_mem_chain hlayer
  cases inner with
  | basic name => cases hr
  | layer modifier base =>
    cases modifier with
    | topology =>
      cases hr
      rfl
    | quantum => cases hr

theorem Registry.violatedBy_empty : ∀ rule ∈ separationRules, rule.violatedBy .empty = false := by
  decide

theorem Registry.isClosed_empty : (Registry.empty : Registry TopologyProperty).IsClosed := by
  decide

variable [Meaning ρ] [DecidableEq ρ] {config : Config} {items : List Scoped} {c : Collection ρ}
  {solution : Solution ρ}

namespace Solved

/-- A registry of an inferred type is the outermost one, or empty. -/
theorem registry_cases (h : Solved config items c solution) {i : Nat} {t : Ty ρ}
    (ht : solution.vars.get? i = some t) {layer : Ty ρ} (hlayer : layer ∈ t.chain)
    {r : Registry TopologyProperty} (hr : layer.topologyRegistry? = some r) :
    t.topologyRegistry? = some r ∨ r = .empty := by
  obtain ⟨type, hbare⟩ := h.exists_toTy ht
  rcases Ty.mem_chain_of_bare_eq hbare hlayer with rfl | hlayer
  · exact Or.inl hr
  · exact Or.inr (type.registry_eq_empty hlayer hr)

/-- No registry of an inferred type breaks a separation rule. -/
theorem violatedBy_eq_false (h : Solved config items c solution) {i : Nat} {t : Ty ρ}
    (ht : solution.vars.get? i = some t) {layer : Ty ρ} (hlayer : layer ∈ t.chain)
    {r : Registry TopologyProperty} (hr : layer.topologyRegistry? = some r) :
    ∀ rule ∈ separationRules, rule.violatedBy r = false := by
  rcases h.registry_cases ht hlayer hr with hr | rfl
  · exact (Ty.inconsistency?_eq_none_iff.1 (GoalSystem.solution_consistent h.solve_eq ht)).1 r hr
  · exact Registry.violatedBy_empty

/-- All registries of inferred types are closed if inference derives by the rules. -/
theorem isClosed (h : Solved config items c solution) (hrules : config.deriveByRules = true)
    {i : Nat} {t : Ty ρ} (ht : solution.vars.get? i = some t) {layer : Ty ρ}
    (hlayer : layer ∈ t.chain) {r : Registry TopologyProperty}
    (hr : layer.topologyRegistry? = some r) : r.IsClosed := by
  rcases h.registry_cases ht hlayer hr with hr | rfl
  · obtain ⟨base, rfl⟩ := Ty.topologyRegistry?_eq_some_iff.1 hr
    have hi : i < c.system.vars.size := by
      rw [← (GoalSystem.solution_growsTo h.solve_eq).size_eq]
      exact Variables.lt_size_of_get? ht
    exact h.holds (.derive i) (h.collected.mem_goals_iff.2 (Or.inr ⟨hrules, i, hi, rfl⟩)) base r ht
  · exact Registry.isClosed_empty

end Solved

/-! ## Environments and declarations -/

/-- The environment gives the names of the program the types that the declarations ask for. -/
structure Environment.Realizes (config : Config) (program : List Declaration)
    (env : Environment ρ) : Prop where
  /-- The names are those of the spaces and shapes. -/
  names : ∀ name, name ∈ env.table.names ↔
    ∃ scope d type, StandsIn program scope d ∧ d.signature? = some (name, type)
  /-- What is declared with a type has a type that reads the same. -/
  written : ∀ scope d name type, StandsIn program scope d →
    d.signature? = some (name, some type) → ∃ t, env.find? name = some t ∧ t.text = type.text
  /-- Properties stand in spaces and shapes, and have the declared values there. -/
  properties : ∀ scope word v, StandsIn program scope (.property word v) →
    ∃ outer p t, scope = some outer ∧ Property.ofName? word = some p ∧
      env.find? outer = some t ∧ t.value? p = some v
  /-- Shapes without types stand in spaces and shapes, and have their types and properties. -/
  inherited : ∀ scope name body, StandsIn program scope (.shape name none body) →
    ∃ outer t s, scope = some outer ∧ env.find? name = some t ∧ env.find? outer = some s ∧
      t.text = s.text ∧ ∀ p v, s.value? p = some v → t.value? p = some v
  /-- A shape with a type has a subtype of what it stands in. -/
  subtypes : ∀ outer name type body, StandsIn program (some outer) (.shape name (some type) body) →
    ∃ t s, env.find? name = some t ∧ env.find? outer = some s ∧
      t.isSubtype config.hierarchy s = true
  /-- No registry breaks a separation rule. -/
  rules : ∀ name t, env.find? name = some t → ∀ layer ∈ t.chain, ∀ r ∈ layer.topologyRegistry?,
    ∀ rule ∈ separationRules, rule.violatedBy r = false
  /-- All registries are closed under the rules, if inference derives by them. -/
  closed : config.deriveByRules = true → ∀ name t, env.find? name = some t →
    ∀ layer ∈ t.chain, ∀ r ∈ layer.topologyRegistry?, r.IsClosed

namespace Solved

variable {env : Environment ρ} {scope : Option String} {name : String}

/-- The environment has the type of the variable of each name. -/
theorem exists_type (h : Solved config items c solution) (henv : solution.toEnvironment = .ok env)
    {i : Nat} (hi : c.names.find? name = some i) :
    ∃ t, solution.vars.get? i = some t ∧ env.find? name = some t := by
  obtain ⟨t, ht⟩ := h.exists_get? hi
  exact ⟨t, ht, (h.find?_eq_some_iff henv hi).2 ht⟩

theorem mem_names_iff (h : Solved config items c solution)
    (henv : solution.toEnvironment = .ok env) :
    name ∈ env.table.names ↔ name ∈ declaredNames items := by
  rw [NameTable.mem_names_iff, ← h.collected.indexed.knows_iff h.collected.entries_eq]
  constructor
  · rintro ⟨t, ht⟩
    obtain ⟨i, hi, -⟩ := h.exists_find? henv ht
    exact ⟨i, hi⟩
  · rintro ⟨i, hi⟩
    obtain ⟨t, -, ht⟩ := h.exists_type henv hi
    exact ⟨t, ht⟩

/-- What is declared with a type keeps its layers. -/
theorem text_eq_written (h : Solved config items c solution)
    (henv : solution.toEnvironment = .ok env) {d : Declaration} (hmem : (scope, d) ∈ items)
    {type : TypeExpr} (he : d.signature? = some (name, some type)) :
    ∃ t, env.find? name = some t ∧ t.text = type.text := by
  have hdeclared : (name, some type) ∈ declared items := List.mem_filterMap.2 ⟨_, hmem, he⟩
  obtain ⟨i, hi⟩ := (h.collected.indexed.knows_iff h.collected.entries_eq).2
    (List.mem_map.2 ⟨_, hdeclared, rfl⟩)
  have hstart := (h.collected.get?_eq_some_iff hi).2 ⟨type, hdeclared, rfl⟩
  obtain ⟨t, ht, hgrow⟩ := (GoalSystem.solution_growsTo h.solve_eq).get?_grows hstart
  refine ⟨t, (h.find?_eq_some_iff henv hi).2 ht, ?_⟩
  rw [← Ty.text_eq_of_bare_eq hgrow.bare_eq, type.text_toTy]

/-- A declared property has its value in what it stands in. -/
theorem value?_of_property (h : Solved config items c solution)
    (henv : solution.toEnvironment = .ok env) {word : String} {v : Bool}
    (hmem : (scope, .property word v) ∈ items) :
    ∃ outer p t, scope = some outer ∧ Property.ofName? word = some p ∧
      env.find? outer = some t ∧ t.value? p = some v := by
  obtain ⟨outer, rfl, ⟨i, hi⟩, p, hp⟩ := h.collected.admissible _ hmem
  obtain ⟨t, ht, hvalue⟩ :=
    h.holds _ (h.collected.property_mem_goals_iff.2 ⟨outer, word, hmem, hi, hp⟩)
  exact ⟨outer, p, t, rfl, hp, (h.find?_eq_some_iff henv hi).2 ht, hvalue⟩

/-- A shape without a type has the layers and the properties of what it stands in. -/
theorem inherits_of_shape (h : Solved config items c solution)
    (henv : solution.toEnvironment = .ok env) {body : List Declaration}
    (hmem : (scope, .shape name none body) ∈ items) :
    ∃ outer t s, scope = some outer ∧ env.find? name = some t ∧ env.find? outer = some s ∧
      t.text = s.text ∧ ∀ p v, s.value? p = some v → t.value? p = some v := by
  obtain ⟨⟨i, hi⟩, -⟩ := h.collected.admissible _ hmem
  obtain ⟨t, ht, htype⟩ := h.exists_type henv hi
  obtain ⟨outer, j, s, rfl, hj, hs, hbare⟩ := h.exists_outer hmem hi ht
  obtain ⟨_, _, ht', hs', -, -, hrecorded⟩ :=
    h.holds _ (h.collected.sameAs_mem_goals_iff.2 ⟨name, outer, body, hmem, hi, hj⟩)
  cases ht.symm.trans ht'
  cases hs.symm.trans hs'
  exact ⟨outer, t, s, rfl, htype, (h.find?_eq_some_iff henv hj).2 hs,
    (Ty.text_eq_of_bare_eq hbare).symm,
    fun p v hvalue => hrecorded (p, v) (Ty.mem_recorded_iff.2 hvalue)⟩

/-- A shape with a type has a subtype of what it stands in. -/
theorem isSubtype_of_shape (h : Solved config items c solution)
    (henv : solution.toEnvironment = .ok env) {outer : String} {type : TypeExpr}
    {body : List Declaration} (hmem : (some outer, .shape name (some type) body) ∈ items) :
    ∃ t s, env.find? name = some t ∧ env.find? outer = some s ∧
      t.isSubtype config.hierarchy s = true := by
  obtain ⟨⟨i, hi⟩, houter⟩ := h.collected.admissible _ hmem
  obtain ⟨j, hj⟩ := houter outer rfl
  obtain ⟨t, s, ht, hs, hsub⟩ :=
    h.holds _ (h.collected.mem_goals_iff.2 (Or.inl ⟨_, hmem, .subtype hi hj⟩))
  exact ⟨t, s, (h.find?_eq_some_iff henv hi).2 ht, (h.find?_eq_some_iff henv hj).2 hs, hsub⟩

end Solved

/-- The environment of an accepted program gives its names the types that the declarations ask
for, at any depth of nesting. -/
theorem checked_env_realizes {program : List Declaration} {checked : Checked ρ}
    (hcheck : checkProgram config program = .ok checked) :
    checked.env.Realizes config program := by
  obtain ⟨c, solution, -, h, hverify⟩ := solved_of_checkProgram hcheck
  obtain ⟨henv, -⟩ := Inferred.verify_eq_ok hverify
  constructor
  case names =>
    intro name
    rw [h.mem_names_iff henv, mem_declaredNames_iff]
  case written =>
    intro scope d name type hstands he
    exact h.text_eq_written henv (mem_flattenAll_iff.2 hstands) he
  case properties =>
    intro scope word v hstands
    exact h.value?_of_property henv (mem_flattenAll_iff.2 hstands)
  case inherited =>
    intro scope name body hstands
    exact h.inherits_of_shape henv (mem_flattenAll_iff.2 hstands)
  case subtypes =>
    intro outer name type body hstands
    exact h.isSubtype_of_shape henv (mem_flattenAll_iff.2 hstands)
  case rules =>
    intro name t hfind layer hlayer r hr
    obtain ⟨i, -, ht⟩ := h.exists_find? henv hfind
    exact h.violatedBy_eq_false ht hlayer hr
  case closed =>
    intro hrules name t hfind layer hlayer r hr
    obtain ⟨i, -, ht⟩ := h.exists_find? henv hfind
    exact h.isClosed hrules ht hlayer hr

/-- A face that has its type from the solid it is in, with a corner that has one of its own, and a
mapping that comes before both of its sides. -/
def nestedShapes : List Declaration :=
  [.mapping "projection" "homotopy" "face" "image",
    .space "solid" (.layer .topology (.layer .quantum (.basic "number")))
      [.shape "face" none
        [.shape "corner" (some (.layer .topology (.layer .quantum (.basic "int"))))
          [.property "compact" true],
          .property "metrizable" true],
        .property "connected" false],
    .space "image" (.layer .topology (.basic "real")) []]

theorem nestedShapes_realized : ∃ checked : Checked Refinement,
    checkProgram {} nestedShapes = .ok checked ∧
    checked.env.table.names = ["corner", "face", "image", "solid"] ∧
    (checked.env.find? "face").bind (Ty.value? · (.topology .connected)) = some false ∧
    checked.env.Realizes {} nestedShapes := by
  obtain ⟨checked, hcheck, hnames, hconnected⟩ : ∃ checked : Checked Refinement,
      checkProgram {} nestedShapes = .ok checked ∧
      checked.env.table.names = ["corner", "face", "image", "solid"] ∧
      (checked.env.find? "face").bind (Ty.value? · (.topology .connected)) = some false := by
    simp only [← mem_toOption_iff]
    decide +kernel
  exact ⟨checked, hcheck, hnames, hconnected, checked_env_realizes hcheck⟩

end SpaceTypes
