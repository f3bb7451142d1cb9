import SpaceTypes.Proofs.Moves
import SpaceTypes.Refinement

/-!
# Soundness of inference

Goals are applied at different moments to types that keep changing, and a demand that was met at
one moment need not be met later: a type may stop being a subtype of a dependent type when a
property is recorded. What makes a solution sound is that it is settled. The last pass applied
every goal to the final types and changed nothing, so that each goal was judged on the types that
the solution gives (`Goal.holds_of_settled`).

`Goal.Holds` says what a goal demands of types, whatever way they were found in.
-/

namespace SpaceTypes

variable {ρ : Type}

/-- The variables that a goal is about. -/
def Goal.subjects : Goal → List Nat
  | sameAs var source => [var, source]
  | subtype sub sup => [sub, sup]
  | property var _ _ => [var]
  | preserve source target _ => [source, target]
  | derive var => [var]

/-- What a goal demands of the types of the variables. -/
def Goal.Holds [Meaning ρ] [DecidableEq ρ] (h : Hierarchy) (types : Nat → Option (Ty ρ)) :
    Goal → Prop
  | sameAs var source =>
    ∃ t s, types var = some t ∧ types source = some s ∧ t.isSubtype h s = true ∧
      s.isSubtype h t = true ∧ ∀ e ∈ s.recorded, t.value? e.1 = some e.2
  | subtype sub sup => ∃ t s, types sub = some t ∧ types sup = some s ∧ t.isSubtype h s = true
  | property var p v => ∃ t, types var = some t ∧ t.value? p = some v
  | preserve source target mapping =>
    ∃ base r base' r', types source = some (.topology base r) ∧
      types target = some (.topology base' r') ∧
      ∀ p ∈ mapping.preserves, r.get? p = some true → r'.get? p ≠ none
  | derive var => ∀ base r, types var = some (.topology base r) →
      ∀ rule ∈ separationRules, rule.fires r = true → r.get? rule.consequent = some true

namespace Variables

variable {vars vars' : Variables ρ} {i : Nat} {t : Ty ρ}

/-! ## Free and contradictory variables -/

theorem exists_get?_of_freeNames (h : vars.freeNames = []) (hi : i < vars.size) :
    ∃ t, vars.get? i = some t := by
  have hlt : i < vars.entries.length := hi
  cases hbinding : vars.entries[i].binding with
  | some t => exact ⟨t, by simp [get?, List.getElem?_eq_getElem hlt, hbinding]⟩
  | none =>
    have hmem : vars.entries[i] ∈ vars.entries.filter fun entry => entry.binding.isNone :=
      List.mem_filter.2 ⟨List.getElem_mem hlt, by rw [hbinding]; rfl⟩
    rw [List.map_eq_nil_iff.1 h] at hmem
    cases hmem

theorem freeNames_eq_nil (h : ∀ i < vars.size, ∃ t, vars.get? i = some t) :
    vars.freeNames = [] := by
  refine List.map_eq_nil_iff.2 (List.filter_eq_nil_iff.2 fun entry hmem hnone => ?_)
  obtain ⟨i, hi, rfl⟩ := List.mem_iff_getElem.1 hmem
  obtain ⟨t, ht⟩ := h i hi
  simp only [get?, List.getElem?_eq_getElem hi, Option.bind_some] at ht
  simp [ht] at hnone

theorem inconsistency?_of_checkConsistent (h : vars.checkConsistent = .ok ())
    (ht : vars.get? i = some t) : inconsistency? t = none := by
  unfold checkConsistent at h
  split at h
  case h_1 => cases h
  case h_2 hnone =>
    obtain ⟨entry, hentry, hbinding⟩ := Option.bind_eq_some_iff.1 ht
    have hentry := List.findSome?_eq_none_iff.1 hnone entry (List.mem_of_getElem? hentry)
    rw [hbinding] at hentry
    simpa using hentry

theorem get?_consequent_of_consistent {base : Ty ρ} {r : Registry TopologyProperty}
    (h : inconsistency? (.topology base r) = none) {rule : Rule} (hmem : rule ∈ separationRules)
    (hfires : rule.fires r = true) : r.get? rule.consequent ≠ some false := by
  intro hdenied
  have hnone : r.violatedRule? = none := by simpa [inconsistency?] using h
  have hnot := List.find?_eq_none.1 hnone rule hmem
  simp [Rule.violatedBy, hfires, hdenied] at hnot

theorem get?_superposition_of_consistent {base : Ty ρ} {r : Registry QuantumProperty}
    (h : inconsistency? (.quantum base r) = none) (hentangled : r.get? .entangled = some true) :
    r.get? .superposition ≠ some false := by
  intro hdenied
  simp [inconsistency?, Registry.isCoherent, Registry.holds, hentangled, hdenied] at h

/-! ## Operations without effect -/

theorem value?_of_require {p : Property} {v : Bool} (h : vars.require i p v = .ok (vars', []))
    (ht : vars.get? i = some t) : vars' = vars ∧ t.value? p = some v := by
  rcases require_cases h with ⟨rfl, -, hmet⟩ | ⟨_, -, -, -, -, heffects⟩
  · exact ⟨rfl, (hmet t ht).2⟩
  · cases heffects

theorem value?_of_requireAll {demands : List (Property × Bool)}
    (h : vars.requireAll i demands = .ok (vars', [])) (ht : vars.get? i = some t) :
    ∀ e ∈ demands, t.value? e.1 = some e.2 := by
  induction demands with
  | nil =>
    intro e he
    cases he
  | cons first rest ih =>
    obtain ⟨⟨mid, effects⟩, hfirst, htail⟩ := bind_eq_ok_iff.1 h
    obtain ⟨⟨last, others⟩, hrest, hend⟩ := bind_eq_ok_iff.1 htail
    obtain ⟨rfl, hnil⟩ := Prod.mk.inj (Except.ok.inj hend)
    obtain ⟨rfl, rfl⟩ := List.append_eq_nil_iff.1 hnil
    obtain ⟨rfl, hvalue⟩ := value?_of_require hfirst ht
    intro e he
    rcases List.mem_cons.1 he with rfl | he
    · exact hvalue
    · exact ih hrest e he

theorem value?_of_fillAll {properties : List TopologyProperty}
    (h : vars.fillAll i properties = .ok (vars', [])) (ht : vars.get? i = some t) :
    ∀ p ∈ properties, t.value? (.topology p) ≠ none := by
  induction properties with
  | nil =>
    intro p hp
    cases hp
  | cons first rest ih =>
    obtain ⟨⟨mid, effects⟩, hfirst, htail⟩ := bind_eq_ok_iff.1 h
    obtain ⟨⟨last, others⟩, hrest, hend⟩ := bind_eq_ok_iff.1 htail
    obtain ⟨rfl, hnil⟩ := Prod.mk.inj (Except.ok.inj hend)
    obtain ⟨rfl, rfl⟩ := List.append_eq_nil_iff.1 hnil
    have hknown : mid = vars ∧ t.value? (.topology first) ≠ none := by
      unfold fill at hfirst
      simp only [ht, Option.bind_some] at hfirst
      split at hfirst
      case h_1 v hv =>
        cases hfirst
        exact ⟨rfl, by rw [hv]; simp⟩
      case h_2 =>
        obtain ⟨rfl, hvalue⟩ := value?_of_require hfirst ht
        exact ⟨rfl, by rw [hvalue]; simp⟩
    obtain ⟨rfl, hvalue⟩ := hknown
    intro p hp
    rcases List.mem_cons.1 hp with rfl | hp
    · exact hvalue
    · exact ih hrest p hp

/-- A registry in which nothing was derived has nothing left to derive. -/
theorem nextRule?_of_applyDerive {base : Ty ρ} {r : Registry TopologyProperty}
    (h : vars.applyDerive i = .ok (vars', [])) (ht : vars.get? i = some (.topology base r)) :
    r.nextRule? = none := by
  cases hnext : r.nextRule? with
  | none => rfl
  | some rule =>
    -- the first of the twelve rounds already derives the consequent
    have hsat : r.saturate.2 = rule.consequent :: (Registry.deriveUpTo 11
        (r.set rule.consequent true)).2 := by
      change (r.deriveUpTo (11 + 1)).2 = _
      rw [Registry.deriveUpTo, hnext]
    simp [applyDerive, ht, hsat] at h

end Variables

variable [Meaning ρ] [DecidableEq ρ]

/-- A goal that had nothing to change holds, if the variables it is about are bound. -/
theorem Goal.holds_of_settled {h : Hierarchy} {vars : Variables ρ} {goal : Goal}
    (hbound : ∀ i ∈ goal.subjects, ∃ t, vars.get? i = some t)
    (hconsistent : vars.checkConsistent = .ok ())
    (hsettled : goal.apply h vars = .ok (vars, [])) : goal.Holds h vars.get? := by
  cases goal with
  | sameAs var source =>
    obtain ⟨t, ht⟩ := hbound var (by simp [subjects])
    obtain ⟨s, hs⟩ := hbound source (by simp [subjects])
    simp only [apply, Variables.applySameAs, hs, ht] at hsettled
    split at hsettled
    case isTrue hmutual =>
      obtain ⟨hts, hst⟩ := Bool.and_eq_true_iff.1 hmutual
      exact ⟨t, s, ht, hs, hts, hst, Variables.value?_of_requireAll hsettled ht⟩
    case isFalse => cases hsettled
  | subtype sub sup =>
    obtain ⟨t, ht⟩ := hbound sub (by simp [subjects])
    obtain ⟨s, hs⟩ := hbound sup (by simp [subjects])
    simp only [apply, Variables.applySubtype, hs, ht] at hsettled
    split at hsettled
    case isTrue hts => exact ⟨t, s, ht, hs, hts⟩
    case isFalse => cases hsettled
  | property var p v =>
    obtain ⟨t, ht⟩ := hbound var (by simp [subjects])
    simp only [apply, Variables.applyProperty, ht] at hsettled
    exact ⟨t, ht, (Variables.value?_of_require hsettled ht).2⟩
  | preserve source target mapping =>
    obtain ⟨s, hs⟩ := hbound source (by simp [subjects])
    obtain ⟨t, ht⟩ := hbound target (by simp [subjects])
    simp only [apply, Variables.applyPreserve, hs, ht] at hsettled
    obtain ⟨r, hr, hrest⟩ := bind_eq_ok_iff.1 hsettled
    obtain ⟨r', hr', hfill⟩ := bind_eq_ok_iff.1 hrest
    have topology_of_expect : ∀ {i : Nat} {t : Ty ρ} {r : Registry TopologyProperty},
        vars.expectTopology i t = .ok r → ∃ base, t = .topology base r := by
      intro i t r hr
      cases t with
      | topology base registry =>
        cases hr
        exact ⟨base, rfl⟩
      | _ => cases hr
    obtain ⟨base, rfl⟩ := topology_of_expect hr
    obtain ⟨base', rfl⟩ := topology_of_expect hr'
    refine ⟨base, r, base', r', hs, ht, fun p hp hheld => ?_⟩
    refine Variables.value?_of_fillAll hfill ht p (List.mem_map.2 ⟨(p, true), ?_, rfl⟩)
    refine List.mem_filter.2 ⟨?_, by simpa using hp⟩
    have hmem : (Property.topology p, true) ∈ (Ty.topology base r).recorded :=
      Ty.mem_recorded_iff.2 hheld
    simpa [Ty.recorded] using hmem
  | derive var =>
    intro base r ht rule hmem hfires
    have hset := Registry.nextRule?_eq_none (Variables.nextRule?_of_applyDerive hsettled ht) hmem
      hfires
    have hnot := Variables.get?_consequent_of_consistent
      (Variables.inconsistency?_of_checkConsistent hconsistent ht) hmem hfires
    exact eq_some_true hset hnot

namespace GoalSystem

variable {config : Config} {system : GoalSystem ρ} {solution : Solution ρ}

theorem solution_run (hsolve : system.solve config = .ok solution) :
    ∃ n, Run system.goals n system.vars solution.vars :=
  (iterate_ok hsolve).1

theorem solution_growsTo (hsolve : system.solve config = .ok solution) :
    system.vars.GrowsTo solution.vars := by
  obtain ⟨n, hrun⟩ := solution_run hsolve
  exact hrun.growsTo

theorem solution_bound (hsolve : system.solve config = .ok solution) {i : Nat}
    (hi : i < system.vars.size) : ∃ t, solution.vars.get? i = some t := by
  obtain ⟨-, -, -, hfree⟩ := iterate_ok hsolve
  refine Variables.exists_get?_of_freeNames hfree ?_
  rw [(solution_growsTo hsolve).size_eq]
  exact hi

theorem solution_consistent (hsolve : system.solve config = .ok solution) {i : Nat} {t : Ty ρ}
    (ht : solution.vars.get? i = some t) : Variables.inconsistency? t = none := by
  obtain ⟨-, -, hconsistent, -⟩ := iterate_ok hsolve
  exact Variables.inconsistency?_of_checkConsistent hconsistent ht

/-- Every goal on variables that exist holds of the types that inference finds. -/
theorem solution_holds (hsolve : system.solve config = .ok solution) {goal : Goal}
    (hmem : goal ∈ system.goals) (hrange : ∀ i ∈ goal.subjects, i < system.vars.size) :
    goal.Holds config.hierarchy solution.vars.get? := by
  obtain ⟨-, hsettled, hconsistent, -⟩ := iterate_ok hsolve
  exact Goal.holds_of_settled (fun i hi => solution_bound hsolve (hrange i hi)) hconsistent
    (hsettled goal hmem)

/-- Whatever inference finds is a type for every variable such that every goal holds and no type
contradicts itself. -/
theorem solution_meets_goals
    (hrange : ∀ goal ∈ system.goals, ∀ i ∈ goal.subjects, i < system.vars.size)
    (hsolve : system.solve config = .ok solution) :
    (solution.vars.size = system.vars.size ∧
      ∀ i < system.vars.size, ∃ t, solution.vars.get? i = some t) ∧
    (∀ goal ∈ system.goals, goal.Holds config.hierarchy solution.vars.get?) ∧
    (∀ i base r, solution.vars.get? i = some (.topology base r) → ∀ rule ∈ separationRules,
      rule.fires r = true → r.get? rule.consequent ≠ some false) ∧
    ∀ i base r, solution.vars.get? i = some (.quantum base r) →
      r.get? .entangled = some true → r.get? .superposition ≠ some false := by
  refine ⟨⟨(solution_growsTo hsolve).size_eq, fun i hi => solution_bound hsolve hi⟩,
    fun goal hmem => solution_holds hsolve hmem (hrange goal hmem), ?_, ?_⟩
  · intro i base r ht rule hmem hfires
    exact Variables.get?_consequent_of_consistent (solution_consistent hsolve ht) hmem hfires
  · intro i base r ht hentangled
    exact Variables.get?_superposition_of_consistent (solution_consistent hsolve ht) hentangled

/-- A metrizable space with a shape, which is below a dependent type once it is found to be
Hausdorff, and with an image under a homeomorphism. -/
def metrizableSpace : GoalSystem Refinement where
  vars := ⟨[⟨"space", some (.topology (.basic "real") (.ofList [(.metrizable, true)]))⟩,
    ⟨"shape", none⟩, ⟨"separated", some (.dependent (.topology (.basic "real") .empty)
      ⟨⟨0, .always⟩, ⟨1, .topologyHas [.hausdorff]⟩, ⟨2, .always⟩⟩)⟩,
    ⟨"image", some (.topology (.basic "real") (.ofList [(.compact, false)]))⟩]⟩
  goals := [.derive 0, .sameAs 1 0, .subtype 1 2, .preserve 1 3 .homeomorphism,
    .property 3 (.topology .connected) true, .derive 3]

theorem metrizableSpace_meets_goals :
    (∀ goal ∈ metrizableSpace.goals, ∀ i ∈ goal.subjects, i < metrizableSpace.vars.size) ∧
    ∃ solution, metrizableSpace.solve {} = .ok solution ∧
      ∀ goal ∈ metrizableSpace.goals, goal.Holds .standard solution.vars.get? := by
  have hrange : ∀ goal ∈ metrizableSpace.goals, ∀ i ∈ goal.subjects,
      i < metrizableSpace.vars.size := by decide
  obtain ⟨solution, hsolve⟩ : ∃ solution, metrizableSpace.solve {} = .ok solution :=
    ⟨_, by cbv⟩
  exact ⟨hrange, solution, hsolve, (solution_meets_goals hrange hsolve).2.1⟩

end GoalSystem

end SpaceTypes
