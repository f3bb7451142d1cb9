import SpaceTypes.Proofs.Inheritance
import SpaceTypes.Proofs.Verification

/-!
# Programs with inferred types

A program has inferred types if its declarations could be collected and inference found a solution
(`Solved`). The names then have types of which all goals hold, with the denials that the
declarations make and no others (`Solved.value?_eq_false_iff`), and the environment gives each name
the type of its variable.
-/

namespace SpaceTypes

open Declaration

variable {ρ : Type} [Meaning ρ] [DecidableEq ρ] {config : Config} {items : List Scoped}
  {c : Collection ρ} {solution : Solution ρ}

/-- The declarations were collected, and the types of their names inferred. -/
structure Solved (config : Config) (items : List Scoped) (c : Collection ρ)
    (solution : Solution ρ) : Prop where
  /-- What was collected. -/
  collected : c.Collected config items
  /-- What was inferred. -/
  solve_eq : c.system.solve config = .ok solution

namespace Solved

/-- All goals hold of the inferred types. -/
theorem holds (h : Solved config items c solution) :
    ∀ goal ∈ c.system.goals, goal.Holds config.hierarchy solution.vars.get? := fun _ hgoal =>
  GoalSystem.solution_holds h.solve_eq hgoal (h.collected.subjects_lt_size hgoal)

/-- Every declared name has a type. -/
theorem exists_get? (h : Solved config items c solution) {name : String} {i : Nat}
    (hi : c.names.find? name = some i) : ∃ t, solution.vars.get? i = some t :=
  GoalSystem.solution_bound h.solve_eq (h.collected.lt_size_of_find? hi)

/-- The layers of every inferred type are those of a type that is written. -/
theorem exists_toTy (h : Solved config items c solution) {i : Nat} {t : Ty ρ}
    (ht : solution.vars.get? i = some t) : ∃ type : TypeExpr, t.bare = type.toTy.bare := by
  obtain ⟨n, hrun⟩ := GoalSystem.solution_run h.solve_eq
  refine GoalSystem.forall_of_run (P := fun t => ∃ type : TypeExpr, t.bare = type.toTy.bare) hrun
    (fun j s hs => ?_) (fun s p v hs => ?_) ht
  · obtain ⟨type, rfl⟩ := h.collected.exists_toTy_of_get? hs
    exact ⟨type, rfl⟩
  · rwa [Ty.bare_record]

/-- A shape without a type of its own stands in a space or shape, and has its layers. -/
theorem exists_outer (h : Solved config items c solution) {scope : Option String} {name : String}
    {body : List Declaration} (hmem : (scope, .shape name none body) ∈ items) {i : Nat}
    (hi : c.names.find? name = some i) {t : Ty ρ} (ht : solution.vars.get? i = some t) :
    ∃ outer j s, scope = some outer ∧ c.names.find? outer = some j ∧
      solution.vars.get? j = some s ∧ s.bare = t.bare := by
  have hentry : ∀ {item type}, item ∈ items → item.2.signature? = some (name, type) →
      item = (scope, .shape name none body) := fun hitem he =>
    eq_of_signature? h.collected.nodup hitem hmem he rfl rfl
  have hfree : c.system.vars.get? i = none := by
    refine Option.eq_none_iff_forall_ne_some.2 fun t ht => ?_
    obtain ⟨type, hdeclared, -⟩ := (h.collected.get?_eq_some_iff hi).1 ht
    obtain ⟨item, hitem, he⟩ := List.mem_filterMap.1 hdeclared
    rw [hentry hitem he] at he
    cases he
  -- the only sharing goal of the variable is the one of this declaration
  obtain ⟨n, hrun⟩ := GoalSystem.solution_run h.solve_eq
  obtain ⟨j, s, hshare, hs, hbare⟩ := GoalSystem.shared_of_run hrun ht hfree
  obtain ⟨name', outer, body', hitem, hi', hj⟩ := h.collected.sameAs_mem_goals_iff.1 hshare
  cases h.collected.find?_injective hi hi'
  cases hentry hitem rfl
  exact ⟨outer, j, s, rfl, hj, hs, hbare⟩

/-- A property is false for a name exactly if the declarations deny it. -/
theorem value?_eq_false_iff (h : Solved config items c solution) {name : String} {i : Nat}
    (hi : c.names.find? name = some i) {t : Ty ρ} (ht : solution.vars.get? i = some t)
    {p : Property} : t.value? p = some false ↔ Denies items name p := by
  rw [← h.collected.denied_iff hi]
  constructor
  · intro hfalse
    obtain ⟨n, hrun⟩ := GoalSystem.solution_run h.solve_eq
    refine GoalSystem.denied_of_run hrun (fun j s hs e he => ?_) ht hfalse
    obtain ⟨type, rfl⟩ := h.collected.exists_toTy_of_get? hs
    rw [type.recorded_toTy] at he
    cases he
  · intro hdenied
    obtain ⟨t', ht', hfalse⟩ := GoalSystem.value?_of_denied h.holds hdenied
    rw [ht] at ht'
    cases ht'
    exact hfalse

/-- The solution has an environment, because no name is declared twice. -/
theorem toEnvironment_ok (h : Solved config items c solution) :
    ∃ env, solution.toEnvironment = .ok env := by
  have hnames : solution.vars.entries.map Variable.name = declaredNames items := by
    apply List.ext_getElem?
    intro i
    have hname := (GoalSystem.solution_growsTo h.solve_eq).name?_eq i
    rw [Variables.name?, Variables.name?, h.collected.entries_eq] at hname
    rw [List.getElem?_map, hname, declaredNames, List.getElem?_map, List.getElem?_map,
      Option.map_map]
    rfl
  refine Solution.define_ok ?_ fun entry hmem => rfl
  rw [hnames]
  exact h.collected.nodup

/-- The environment of the solution gives each name the type of its variable. -/
theorem find?_eq_some_iff (h : Solved config items c solution) {env : Environment ρ}
    (henv : solution.toEnvironment = .ok env) {name : String} {i : Nat}
    (hi : c.names.find? name = some i) {t : Ty ρ} :
    env.find? name = some t ↔ solution.vars.get? i = some t := by
  have hnames := (GoalSystem.solution_growsTo h.solve_eq).name?_eq
  rw [Solution.find?_of_toEnvironment henv]
  constructor
  · rintro ⟨j, hname, ht⟩
    rw [hnames, ← h.collected.indexed, hi] at hname
    cases hname
    exact ht
  · intro ht
    exact ⟨i, by rw [hnames, ← h.collected.indexed, hi], ht⟩

/-- The names in the environment are declared. -/
theorem exists_find? (h : Solved config items c solution) {env : Environment ρ}
    (henv : solution.toEnvironment = .ok env) {name : String} {t : Ty ρ}
    (ht : env.find? name = some t) :
    ∃ i, c.names.find? name = some i ∧ solution.vars.get? i = some t := by
  obtain ⟨i, hname, hget⟩ := (Solution.find?_of_toEnvironment henv name t).1 ht
  rw [(GoalSystem.solution_growsTo h.solve_eq).name?_eq, ← h.collected.indexed] at hname
  exact ⟨i, hname, hget⟩

end Solved

/-- Once types are inferred, checking a program is verifying its claims. -/
theorem checkProgram_eq_verify {declarations : List Declaration}
    (hcollect : ({} : Collection ρ).collect config declarations = (c, none))
    (hsolve : c.system.solve config = .ok solution) :
    checkProgram config declarations =
      Inferred.verify config ⟨solution, c.mappings, c.invariants⟩ := by
  simp only [checkProgram, inferProgram, hcollect, Collection.infer, hsolve]
  rfl

/-- Inferred types come from collected declarations. -/
theorem solved_of_inferProgram {declarations : List Declaration} {inferred : Inferred ρ}
    (hinfer : inferProgram config declarations = .ok inferred) :
    ∃ (c : Collection ρ) (solution : Solution ρ),
      ({} : Collection ρ).collect config declarations = (c, none) ∧
      Solved config (flattenAll none declarations) c solution ∧
      inferred = ⟨solution, c.mappings, c.invariants⟩ := by
  unfold inferProgram at hinfer
  split at hinfer
  case h_1 => cases hinfer
  case h_2 c hcollect =>
    obtain ⟨solution, hsolve, hend⟩ := bind_eq_ok_iff.1 hinfer
    cases hend
    exact ⟨c, solution, hcollect, ⟨Collection.collected_of_collect hcollect,
      mapError_eq_ok_iff.1 hsolve⟩, rfl⟩

/-- A result comes from collected declarations, inferred types and their verification. -/
theorem solved_of_checkProgram {declarations : List Declaration} {checked : Checked ρ}
    (hcheck : checkProgram config declarations = .ok checked) :
    ∃ (c : Collection ρ) (solution : Solution ρ),
      ({} : Collection ρ).collect config declarations = (c, none) ∧
      Solved config (flattenAll none declarations) c solution ∧
      Inferred.verify config ⟨solution, c.mappings, c.invariants⟩ = .ok checked := by
  obtain ⟨inferred, hinfer, hverify⟩ := bind_eq_ok_iff.1 hcheck
  obtain ⟨c, solution, hcollect, hsolved, rfl⟩ := solved_of_inferProgram hinfer
  exact ⟨c, solution, hcollect, hsolved, hverify⟩

end SpaceTypes
