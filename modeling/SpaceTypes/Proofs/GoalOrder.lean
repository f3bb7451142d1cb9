import SpaceTypes.Proofs.LeastTypes

/-!
# The order of goals

Inference applies the goals in the order in which they are given, and another order takes it
through other variables: types are bound in other passes and properties recorded in other places.
A solution whose mappings carry over what they preserve does not depend on that. It satisfies the
goals, in whatever order they are, and inference finds the least types that do; so each of two
orders leads to types below those of the other, and they differ in the order of entries only
(`GoalSystem.Regular.solve_of_perm`).

Only with one thing to share for each free variable are its layers determined by the goals, and
not by which of them was applied first.
-/

namespace SpaceTypes

variable {ρ : Type}

/-! ## Regular systems -/

namespace Ty

/-- The two types differ at most in the order of the entries of their outermost registries. -/
structure Rearranges (t t' : Ty ρ) : Prop where
  /-- The layers below are the same. -/
  bare_eq : t.bare = t'.bare
  /-- The entries are the same, in some order. -/
  recorded_perm : t.recorded.Perm t'.recorded

variable {t t' : Ty ρ}

/-- Types that are below each other differ in the order of their entries only. -/
theorem Below.rearranges (h : t.Below t') (h' : t'.Below t) : t.Rearranges t' := by
  refine ⟨h.bare_eq, ?_⟩
  rw [List.perm_ext_iff_of_nodup t.nodup_recorded.of_map t'.nodup_recorded.of_map]
  exact fun e => ⟨fun he => mem_recorded_iff.2 (h.value?_eq e he),
    fun he => mem_recorded_iff.2 (h'.value?_eq e he)⟩

end Ty

theorem Solution.carries_of_forall_notMem (solution : Solution ρ) {goals : List Goal}
    (hnone : ∀ source target mapping, .preserve source target mapping ∉ goals) :
    solution.Carries goals := by
  intro goal hmem
  cases goal with
  | preserve source target mapping => exact absurd hmem (hnone source target mapping)
  | _ => trivial

namespace GoalSystem

/-- The systems of goals for which every type is determined, whatever the order of the goals. -/
structure Regular (system : GoalSystem ρ) : Prop where
  /-- The goals are about variables that there are. -/
  range : ∀ goal ∈ system.goals, ∀ i ∈ goal.subjects, i < system.vars.size
  /-- No type at the start has a dependent layer on the outside. -/
  kind_ne : ∀ i t, system.vars.get? i = some t → t.kind ≠ .dependent
  /-- There is at most one variable that a free one should share the type of. -/
  source_eq : ∀ var, system.vars.get? var = none → ∀ source source',
    .sameAs var source ∈ system.goals → .sameAs var source' ∈ system.goals → source = source'

/-- The system with its goals in another order. -/
theorem Regular.of_perm {system : GoalSystem ρ} (h : system.Regular) {goals : List Goal}
    (hperm : system.goals.Perm goals) : ({ system with goals } : GoalSystem ρ).Regular where
  range goal hmem := h.range goal (hperm.mem_iff.2 hmem)
  kind_ne := h.kind_ne
  source_eq var hfree source source' hmem hmem' :=
    h.source_eq var hfree source source' (hperm.mem_iff.2 hmem) (hperm.mem_iff.2 hmem')

theorem Grounded.of_perm {system : GoalSystem ρ} {goals : List Goal}
    (hperm : system.goals.Perm goals) {i : Nat} (h : system.Grounded i) :
    ({ system with goals } : GoalSystem ρ).Grounded i := by
  obtain ⟨j, t, hshares, ht⟩ := h
  refine ⟨j, t, Relation.ReflTransGen.mono (fun var source hmem => ?_) i j hshares, ht⟩
  exact hperm.mem_iff.1 hmem

/-! ## Solutions in another order -/

variable [Meaning ρ] [DecidableEq ρ] {config : Config} {system : GoalSystem ρ}
  {solution : Solution ρ} {goals : List Goal}

theorem SatisfiedBy.of_perm {h : Hierarchy} {types : Nat → Ty ρ}
    (hsat : system.SatisfiedBy h types) (hperm : system.goals.Perm goals) :
    ({ system with goals } : GoalSystem ρ).SatisfiedBy h types where
  start := hsat.start
  goals goal hmem := hsat.goals goal (hperm.mem_iff.2 hmem)
  rules := hsat.rules
  coherent := hsat.coherent

/-- A solution of a regular system whose mappings carry over what they preserve satisfies the
system. -/
theorem Regular.solution_satisfies (hregular : system.Regular)
    (hsolve : system.solve config = .ok solution) (hcarries : solution.Carries system.goals) :
    system.SatisfiedBy config.hierarchy solution.type := by
  refine GoalSystem.solution_satisfies hregular.range hsolve ?_ hcarries
  intro var source t s hmem hfree ht hs
  -- the variable got its layers from the only one that it should share the type of
  obtain ⟨n, hrun⟩ := solution_run hsolve
  obtain ⟨source', s', hmem', hs', hbare⟩ := shared_of_run hrun ht hfree
  cases hregular.source_eq var hfree source source' hmem hmem'
  cases hs.symm.trans hs'
  exact hbare

/-- In another order there is a solution too, with no more properties. -/
theorem Regular.solve_of_perm (hregular : system.Regular) (hlimit : config.passLimit = none)
    (hperm : system.goals.Perm goals) (hsolve : system.solve config = .ok solution)
    (hcarries : solution.Carries system.goals) :
    ∃ solution', ({ system with goals } : GoalSystem ρ).solve config = .ok solution' ∧
      solution'.Carries goals ∧
      ∀ i t', solution'.vars.get? i = some t' → t'.Below (solution.type i) := by
  have hregular' := hregular.of_perm hperm
  have hsat := (hregular.solution_satisfies hsolve hcarries).of_perm hperm
  rcases solve_below_satisfying hlimit hregular'.range hregular'.kind_ne hsat with
    ⟨solution', hsolve', hbelow⟩ | ⟨-, i, hi, hfree⟩
  · exact ⟨solution', hsolve', carries_of_below hregular'.range hsat hsolve' hbelow, hbelow⟩
  · obtain ⟨t, ht⟩ := solution_bound hsolve hi
    obtain ⟨n, hrun⟩ := solution_run hsolve
    exact absurd ((grounded_of_run hrun ht).of_perm hperm) hfree

/-- In a regular system, if inference finds a solution whose mappings carry over what they
preserve, then it finds one in any order of the goals, with the same types up to the order of the
entries. In particular the order does not decide whether there is a solution, if there are no
mappings. -/
theorem solve_in_any_order (hlimit : config.passLimit = none) (hregular : system.Regular)
    (hperm : system.goals.Perm goals) :
    (∀ solution, system.solve config = .ok solution → solution.Carries system.goals →
      ∃ solution', ({ system with goals } : GoalSystem ρ).solve config = .ok solution' ∧
        ∀ i < system.vars.size, ∃ t t', solution.vars.get? i = some t ∧
          solution'.vars.get? i = some t' ∧ t.Rearranges t') ∧
    ((∀ source target mapping, .preserve source target mapping ∉ system.goals) →
      ((∃ solution, system.solve config = .ok solution) ↔
        ∃ solution', ({ system with goals } : GoalSystem ρ).solve config = .ok solution')) := by
  refine ⟨fun solution hsolve hcarries => ?_, fun hnone => ⟨?_, ?_⟩⟩
  · obtain ⟨solution', hsolve', hcarries', hbelow'⟩ :=
      hregular.solve_of_perm hlimit hperm hsolve hcarries
    obtain ⟨_, hsolve'', -, hbelow⟩ :=
      (hregular.of_perm hperm).solve_of_perm hlimit hperm.symm hsolve' hcarries'
    cases hsolve.symm.trans hsolve''
    refine ⟨solution', hsolve', fun i hi => ?_⟩
    obtain ⟨t, ht⟩ := solution_bound hsolve hi
    obtain ⟨t', ht'⟩ := solution_bound hsolve' hi
    have htt' : t.Below t' := by
      rw [← Solution.type_eq ht']
      exact hbelow i t ht
    have ht't : t'.Below t := by
      rw [← Solution.type_eq ht]
      exact hbelow' i t' ht'
    exact ⟨t, t', ht, ht', htt'.rearranges ht't⟩
  · rintro ⟨solution, hsolve⟩
    obtain ⟨solution', hsolve', -⟩ :=
      hregular.solve_of_perm hlimit hperm hsolve (solution.carries_of_forall_notMem hnone)
    exact ⟨solution', hsolve'⟩
  · rintro ⟨solution', hsolve'⟩
    have hnone' : ∀ source target mapping, .preserve source target mapping ∉ goals :=
      fun source target mapping hmem => hnone source target mapping (hperm.mem_iff.2 hmem)
    obtain ⟨solution, hsolve, -⟩ := (hregular.of_perm hperm).solve_of_perm hlimit hperm.symm
      hsolve' (solution'.carries_of_forall_notMem hnone')
    exact ⟨solution, hsolve⟩

theorem embeddedShape_regular : embeddedShape.Regular := by
  have hstart : ∀ i < embeddedShape.vars.size, ∀ t ∈ embeddedShape.vars.get? i,
      t.kind ≠ .dependent := by decide
  refine ⟨by decide, fun i t ht => hstart i (Variables.lt_size_of_get? ht) t ht, ?_⟩
  intro var _ source source' hmem hmem'
  simp only [embeddedShape, List.mem_cons, Goal.sameAs.injEq, reduceCtorEq, List.not_mem_nil,
    or_false, false_or] at hmem hmem'
  rw [hmem.2, hmem'.2]

/-- With the goals backwards, the shape is bound before its space is embedded. -/
theorem embeddedShape_in_any_order :
    embeddedShape.Regular ∧ embeddedShape.goals.Perm embeddedShape.goals.reverse ∧
    ∃ solution solution' : Solution Refinement, embeddedShape.solve {} = .ok solution ∧
      solution.Carries embeddedShape.goals ∧
      (GoalSystem.mk embeddedShape.vars embeddedShape.goals.reverse).solve {} = .ok solution' ∧
      ∀ i < embeddedShape.vars.size, ∃ t t', solution.vars.get? i = some t ∧
        solution'.vars.get? i = some t' ∧ t.Rearranges t' := by
  obtain ⟨solution, hsolve, hcarries⟩ : ∃ solution : Solution Refinement,
      embeddedShape.solve {} = .ok solution ∧ solution.Carries embeddedShape.goals := by
    simp only [← mem_toOption_iff]
    decide +kernel
  have hperm : embeddedShape.goals.Perm embeddedShape.goals.reverse := by decide
  obtain ⟨solution', hsolve', htypes⟩ :=
    (solve_in_any_order rfl embeddedShape_regular hperm).1 solution hsolve hcarries
  exact ⟨embeddedShape_regular, hperm, solution, solution', hsolve, hcarries, hsolve', htypes⟩

end GoalSystem

end SpaceTypes
