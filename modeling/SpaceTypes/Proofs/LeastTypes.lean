import SpaceTypes.Proofs.Completeness
import SpaceTypes.Proofs.Subtyping

/-!
# The least types that satisfy the goals

Types satisfy a goal system if they extend the types at the start, contradict nothing, and meet
every goal, where the target of a mapping has all that the mapping preserves and its source has
(`GoalSystem.SatisfiedBy`). Whenever there are such types, inference raises no alarm: it ends with
a solution, or with variables that no goal gives a type to. A solution is then itself among the
types that satisfy the system, and it is the least of them: it has no property that is not in all
of the others (`GoalSystem.solve_below_satisfying`).

What inference knows at any moment is below every satisfying choice of types, and a goal that is
met there cannot fail below.
-/

namespace SpaceTypes

variable {ρ : Type}

/-- Every rule that fires in the registry has its consequent there. -/
def Registry.IsClosed (r : Registry TopologyProperty) : Prop :=
  ∀ rule ∈ separationRules, rule.fires r = true → r.get? rule.consequent = some true

instance (r : Registry TopologyProperty) : Decidable r.IsClosed :=
  inferInstanceAs (Decidable (∀ rule ∈ separationRules, _ → _))

instance [DecidableEq ρ] (t m : Ty ρ) : Decidable (t.Below m) :=
  decidable_of_iff (t.bare = m.bare ∧ ∀ e ∈ t.recorded, m.value? e.1 = some e.2)
    ⟨fun h => ⟨h.1, h.2⟩, fun h => ⟨h.bare_eq, h.value?_eq⟩⟩

section

variable [Meaning ρ] [DecidableEq ρ]

/-- What a goal asks of types for the variables, given which of them were bound at the start. -/
def Goal.SatisfiedBy (h : Hierarchy) (start : Variables ρ) (types : Nat → Ty ρ) : Goal → Prop
  | sameAs var source =>
    (∀ e ∈ (types source).recorded, (types var).value? e.1 = some e.2) ∧
    ((start.get? var).isSome = true → (types var).isSubtype h (types source) = true ∧
      (types source).isSubtype h (types var) = true) ∧
    (start.get? var = none → (types source).bare = (types var).bare)
  | subtype sub sup => (types sub).isSubtype h (types sup) = true
  | property var p v => (types var).value? p = some v
  | preserve source target mapping =>
    ∃ r ∈ Ty.topologyRegistry? (types source), ∃ r' ∈ Ty.topologyRegistry? (types target),
      ∀ p ∈ mapping.preserves, r.get? p = some true → r'.get? p = some true
  | derive var => ∀ r ∈ Ty.topologyRegistry? (types var), r.IsClosed

instance (h : Hierarchy) (start : Variables ρ) (types : Nat → Ty ρ) (goal : Goal) :
    Decidable (goal.SatisfiedBy h start types) :=
  match goal with
  | .sameAs _ _ => inferInstanceAs (Decidable (_ ∧ (_ → _) ∧ (_ → _)))
  | .subtype _ _ => inferInstanceAs (Decidable (_ = true))
  | .property _ _ _ => inferInstanceAs (Decidable (_ = some _))
  | .preserve _ _ _ => inferInstanceAs (Decidable (∃ r ∈ Ty.topologyRegistry? _, _))
  | .derive _ => inferInstanceAs (Decidable (∀ r ∈ Ty.topologyRegistry? _, Registry.IsClosed r))

/-- Types for the variables that extend those at the start, meet all goals and contradict
nothing. -/
structure GoalSystem.SatisfiedBy (h : Hierarchy) (system : GoalSystem ρ) (types : Nat → Ty ρ) :
    Prop where
  /-- A type at the start is kept, with more properties in its outermost layer. -/
  start : ∀ i < system.vars.size, ∀ t ∈ system.vars.get? i, t.Below (types i)
  /-- All goals are met. -/
  goals : ∀ goal ∈ system.goals, goal.SatisfiedBy h system.vars types
  /-- No separation rule is broken. -/
  rules : ∀ i < system.vars.size, ∀ r ∈ Ty.topologyRegistry? (types i), ∀ rule ∈ separationRules,
    rule.violatedBy r = false
  /-- Nothing is entangled but denied to be in superposition. -/
  coherent : ∀ i < system.vars.size, ∀ r ∈ Ty.quantumRegistry? (types i), r.isCoherent = true

instance (h : Hierarchy) (system : GoalSystem ρ) (types : Nat → Ty ρ) :
    Decidable (system.SatisfiedBy h types) :=
  decidable_of_iff
    ((∀ i < system.vars.size, ∀ t ∈ system.vars.get? i, t.Below (types i)) ∧
      (∀ goal ∈ system.goals, goal.SatisfiedBy h system.vars types) ∧
      (∀ i < system.vars.size, ∀ r ∈ Ty.topologyRegistry? (types i), ∀ rule ∈ separationRules,
        rule.violatedBy r = false) ∧
      ∀ i < system.vars.size, ∀ r ∈ Ty.quantumRegistry? (types i), r.isCoherent = true)
    ⟨fun h => ⟨h.1, h.2.1, h.2.2.1, h.2.2.2⟩, fun h => ⟨h.start, h.goals, h.rules, h.coherent⟩⟩

end

/-! ## Types and their registries -/

namespace Ty

variable {t m : Ty ρ}

theorem topologyRegistry?_eq_some_iff {r : Registry TopologyProperty} :
    t.topologyRegistry? = some r ↔ ∃ base, t = topology base r := by
  cases t <;> simp [ topologyRegistry?]

theorem value?_eq_get? {r : Registry TopologyProperty} (hr : t.topologyRegistry? = some r)
    (p : TopologyProperty) : t.value? (.topology p) = r.get? p := by
  obtain ⟨base, rfl⟩ := topologyRegistry?_eq_some_iff.1 hr
  rfl

theorem inconsistency?_eq_none_iff : Variables.inconsistency? t = none ↔
    (∀ r ∈ t.topologyRegistry?, ∀ rule ∈ separationRules, rule.violatedBy r = false) ∧
      ∀ r ∈ t.quantumRegistry?, r.isCoherent = true := by
  cases t <;> simp [Variables.inconsistency?, topologyRegistry?, quantumRegistry?,
    Registry.violatedRule?]

theorem isSubtype_of_bare_eq [Meaning ρ] [DecidableEq ρ] (h : Hierarchy)
    (hbare : t.bare = m.bare) : t.isSubtype h m = true := by
  by_cases ht : t.kind = .dependent
  · -- a dependent layer has no registry, so the two types are the same
    have hm : m.kind = .dependent := (kind_eq_of_bare_eq hbare).symm.trans ht
    have heq : t = m := by
      cases t <;> cases ht
      cases m <;> cases hm
      exact hbare
    rw [heq]
    exact (Conforms.refl h m).isSubtype
  · have hm : m.kind ≠ .dependent := by rwa [← kind_eq_of_bare_eq hbare]
    rw [isSubtype_bare h ht hm, hbare]
    exact (Conforms.refl h _).isSubtype

theorem GrowsTo.below (h : t.GrowsTo m) : t.Below m :=
  ⟨h.bare_eq, fun _ he => h.value? (mem_recorded_iff.1 he)⟩

end Ty

/-! ## Satisfying types as a model -/

namespace GoalSystem

/-- The types of the variables that there are. -/
def typing (system : GoalSystem ρ) (types : Nat → Ty ρ) (i : Nat) : Option (Ty ρ) :=
  if i < system.vars.size then some (types i) else none

theorem typing_eq_some_iff {system : GoalSystem ρ} {types : Nat → Ty ρ} {i : Nat} {m : Ty ρ} :
    system.typing types i = some m ↔ i < system.vars.size ∧ types i = m := by
  simp [typing]

namespace SatisfiedBy

variable [Meaning ρ] [DecidableEq ρ] {h : Hierarchy} {system : GoalSystem ρ}
  {types : Nat → Ty ρ} {goal : Goal}

/-- A goal that is satisfied holds. -/
theorem holds (hsat : system.SatisfiedBy h types) (hmem : goal ∈ system.goals)
    (hrange : ∀ i ∈ goal.subjects, i < system.vars.size) :
    goal.Holds h (system.typing types) := by
  have htyping : ∀ i ∈ goal.subjects, system.typing types i = some (types i) := fun i hi =>
    typing_eq_some_iff.2 ⟨hrange i hi, rfl⟩
  have hgoal := hsat.goals goal hmem
  cases goal with
  | sameAs var source =>
    obtain ⟨hshare, hbound, hfree⟩ := hgoal
    have hmutual : (types var).isSubtype h (types source) = true ∧
        (types source).isSubtype h (types var) = true := by
      cases hstart : system.vars.get? var with
      | some t => exact hbound (by rw [hstart]; rfl)
      | none =>
        have hbare := hfree hstart
        exact ⟨Ty.isSubtype_of_bare_eq h hbare.symm, Ty.isSubtype_of_bare_eq h hbare⟩
    exact ⟨_, _, htyping var (by simp [Goal.subjects]), htyping source (by simp [Goal.subjects]),
      hmutual.1, hmutual.2, hshare⟩
  | subtype sub sup =>
    exact ⟨_, _, htyping sub (by simp [Goal.subjects]), htyping sup (by simp [Goal.subjects]),
      hgoal⟩
  | property var p v => exact ⟨_, htyping var (by simp [Goal.subjects]), hgoal⟩
  | preserve source target mapping =>
    obtain ⟨r, hr, r', hr', hcarried⟩ := hgoal
    obtain ⟨base, hs⟩ := Ty.topologyRegistry?_eq_some_iff.1 hr
    obtain ⟨base', ht⟩ := Ty.topologyRegistry?_eq_some_iff.1 hr'
    refine ⟨base, r, base', r', by rw [htyping source (by simp [Goal.subjects]), hs],
      by rw [htyping target (by simp [Goal.subjects]), ht], fun p hp hheld => ?_⟩
    rw [hcarried p hp hheld]
    simp
  | derive var =>
    intro base r hr
    exact hgoal r (Ty.topologyRegistry?_eq_some_iff.2 ⟨base, (typing_eq_some_iff.1 hr).2⟩)

theorem model (hsat : system.SatisfiedBy h types)
    (hrange : ∀ goal ∈ system.goals, ∀ i ∈ goal.subjects, i < system.vars.size)
    (hkind : ∀ i t, system.vars.get? i = some t → t.kind ≠ .dependent) :
    Model h system (system.typing types) where
  lt_size hm := (typing_eq_some_iff.1 hm).1
  kind_ne := hkind
  consistent i m hm := by
    obtain ⟨hi, rfl⟩ := typing_eq_some_iff.1 hm
    exact Ty.inconsistency?_eq_none_iff.2 ⟨hsat.rules i hi, hsat.coherent i hi⟩
  start i t ht := by
    have hi := Variables.lt_size_of_get? ht
    exact ⟨types i, typing_eq_some_iff.2 ⟨hi, rfl⟩, hsat.start i hi t ht⟩
  holds goal hmem := hsat.holds hmem (hrange goal hmem)
  bare_eq hmem hfree ht hs := by
    obtain ⟨-, rfl⟩ := typing_eq_some_iff.1 ht
    obtain ⟨-, rfl⟩ := typing_eq_some_iff.1 hs
    exact (hsat.goals _ hmem).2.2 hfree

/-- What a mapping fills below satisfying types, they have. -/
theorem value?_of_fills (hsat : system.SatisfiedBy h types) (hmem : goal ∈ system.goals)
    {vars : Variables ρ} (hbelow : vars.Below (system.typing types)) {i : Nat}
    {q : TopologyProperty} (hfills : goal.Fills vars i q) :
    (types i).value? (.topology q) = some true := by
  cases goal with
  | preserve source target mapping =>
    obtain ⟨rfl, hq, ⟨s, hs, hheld⟩, -⟩ := hfills
    obtain ⟨r, hr, r', hr', hcarried⟩ := hsat.goals _ hmem
    obtain ⟨m, hm, hsm⟩ := hbelow source s hs
    obtain ⟨-, rfl⟩ := typing_eq_some_iff.1 hm
    rw [Ty.value?_eq_get? hr']
    refine hcarried q hq ?_
    rw [← Ty.value?_eq_get? hr]
    exact hsm.value? hheld
  | _ => exact hfills.elim

end SatisfiedBy

end GoalSystem

/-! ## The solution among the satisfying types -/

/-- If the goal is a mapping, its target has what the mapping preserves and its source has. -/
def Goal.Carries (types : Nat → Option (Ty ρ)) : Goal → Prop
  | preserve source target mapping => ∀ s ∈ types source, ∀ t ∈ types target,
    ∀ p ∈ mapping.preserves, s.value? (.topology p) = some true →
      t.value? (.topology p) = some true
  | _ => True

instance (types : Nat → Option (Ty ρ)) (goal : Goal) : Decidable (goal.Carries types) :=
  match goal with
  | .preserve source _ _ => inferInstanceAs (Decidable (∀ s ∈ types source, _))
  | .sameAs _ _ | .subtype _ _ | .property _ _ _ | .derive _ => inferInstanceAs (Decidable True)

namespace Solution

/-- The type that a solution gives to a variable. -/
def type (solution : Solution ρ) (i : Nat) : Ty ρ := (solution.vars.get? i).getD default

theorem type_eq {solution : Solution ρ} {i : Nat} {t : Ty ρ}
    (ht : solution.vars.get? i = some t) : solution.type i = t := by
  simp [type, ht]

/-- The target of each mapping has what the mapping preserves and its source has. -/
def Carries (solution : Solution ρ) (goals : List Goal) : Prop :=
  ∀ goal ∈ goals, goal.Carries solution.vars.get?

instance (solution : Solution ρ) (goals : List Goal) : Decidable (solution.Carries goals) :=
  inferInstanceAs (Decidable (∀ goal ∈ goals, _))

end Solution

namespace GoalSystem

variable [Meaning ρ] [DecidableEq ρ] {config : Config} {system : GoalSystem ρ}
  {types : Nat → Ty ρ} {solution : Solution ρ}

/-- A solution satisfies the system, if its mappings carry over what they preserve and free
variables have got the layers of everything that they should share the type of. -/
theorem solution_satisfies
    (hrange : ∀ goal ∈ system.goals, ∀ i ∈ goal.subjects, i < system.vars.size)
    (hsolve : system.solve config = .ok solution)
    (hbare : ∀ var source t s, .sameAs var source ∈ system.goals →
      system.vars.get? var = none → solution.vars.get? var = some t →
      solution.vars.get? source = some s → s.bare = t.bare)
    (hcarries : solution.Carries system.goals) :
    system.SatisfiedBy config.hierarchy solution.type := by
  have hconsistent : ∀ i < system.vars.size, Variables.inconsistency? (solution.type i) = none := by
    intro i hi
    obtain ⟨t, ht⟩ := solution_bound hsolve hi
    rw [Solution.type_eq ht]
    exact solution_consistent hsolve ht
  refine ⟨fun i _ t ht => ?_, fun goal hmem => ?_,
    fun i hi => (Ty.inconsistency?_eq_none_iff.1 (hconsistent i hi)).1,
    fun i hi => (Ty.inconsistency?_eq_none_iff.1 (hconsistent i hi)).2⟩
  · obtain ⟨t', ht', hgrow⟩ := (solution_growsTo hsolve).get?_grows ht
    rw [Solution.type_eq ht']
    exact hgrow.below
  · have hholds := solution_holds hsolve hmem (hrange goal hmem)
    cases goal with
    | sameAs var source =>
      obtain ⟨t, s, ht, hs, hts, hst, hshare⟩ := hholds
      simp only [Goal.SatisfiedBy, Solution.type_eq ht, Solution.type_eq hs]
      exact ⟨hshare, fun _ => ⟨hts, hst⟩, fun hfree => hbare var source t s hmem hfree ht hs⟩
    | subtype sub sup =>
      obtain ⟨t, s, ht, hs, hts⟩ := hholds
      simpa only [Goal.SatisfiedBy, Solution.type_eq ht, Solution.type_eq hs] using hts
    | property var p v =>
      obtain ⟨t, ht, hv⟩ := hholds
      simpa only [Goal.SatisfiedBy, Solution.type_eq ht] using hv
    | preserve source target mapping =>
      obtain ⟨base, r, base', r', hs, ht, -⟩ := hholds
      simp only [Goal.SatisfiedBy, Solution.type_eq hs, Solution.type_eq ht]
      exact ⟨r, rfl, r', rfl, hcarries _ hmem _ hs _ ht⟩
    | derive var =>
      intro r hr
      obtain ⟨t, ht⟩ := solution_bound hsolve (hrange _ hmem var (by simp [Goal.subjects]))
      rw [Solution.type_eq ht] at hr
      obtain ⟨base, rfl⟩ := Ty.topologyRegistry?_eq_some_iff.1 hr
      exact hholds base r ht

/-- If there are types that satisfy the system, inference has no fault to find: below them it ends
with a solution, unless some variable shares the type of none that is bound. -/
theorem solve_below_satisfying (hlimit : config.passLimit = none)
    (hrange : ∀ goal ∈ system.goals, ∀ i ∈ goal.subjects, i < system.vars.size)
    (hkind : ∀ i t, system.vars.get? i = some t → t.kind ≠ .dependent)
    (hsat : system.SatisfiedBy config.hierarchy types) :
    (∃ solution, system.solve config = .ok solution ∧
      ∀ i t, solution.vars.get? i = some t → t.Below (types i)) ∨
    (∃ names, system.solve config = .error (.unresolved names)) ∧
      ∃ i < system.vars.size, ¬system.Grounded i := by
  obtain ⟨last, path, hsolve, ⟨n, hrun⟩, hbelow, hsettled⟩ := solve_eq_conclude_of_model
    (hsat.model hrange hkind) (fun n hn => by rw [hlimit] at hn; cases hn)
    (fun x hx hbelow i q m hfills hm hfalse => by
      obtain ⟨-, rfl⟩ := typing_eq_some_iff.1 hm
      rw [hsat.value?_of_fills (mem_goals_of_traceFrom hx) hbelow hfills] at hfalse
      cases hfalse)
  by_cases hfree : last.freeNames = []
  · refine Or.inl ⟨⟨last, path⟩, ?_, fun i t ht => ?_⟩
    · rw [hsolve, conclude, hfree]
      rfl
    · obtain ⟨m, hm, htm⟩ := hbelow i t ht
      rwa [← (typing_eq_some_iff.1 hm).2] at htm
  · refine Or.inr ⟨⟨last.freeNames, ?_⟩, ?_⟩
    · rw [hsolve, conclude, if_neg (by simpa using hfree)]
    · by_contra hall
      push Not at hall
      exact hfree (freeNames_eq_nil_of_settled hsettled hrun.growsTo hall)

/-- A solution below satisfying types carries over what its mappings preserve. -/
theorem carries_of_below
    (hrange : ∀ goal ∈ system.goals, ∀ i ∈ goal.subjects, i < system.vars.size)
    (hsat : system.SatisfiedBy config.hierarchy types)
    (hsolve : system.solve config = .ok solution)
    (hbelow : ∀ i t, solution.vars.get? i = some t → t.Below (types i)) :
    solution.Carries system.goals := by
  intro goal hmem
  cases goal with
  | preserve source target mapping =>
    intro s hs t ht p hp hheld
    obtain ⟨base, r, base', r', hs', ht', hset⟩ := solution_holds hsolve hmem (hrange _ hmem)
    obtain ⟨m, hm, m', hm', hcarried⟩ := hsat.goals _ hmem
    cases hs.symm.trans hs'
    cases ht.symm.trans ht'
    -- the property has a value in the target, and the value above it is true
    refine eq_some_true (hset p hp hheld) fun hfalse => ?_
    have hheld : m.get? p = some true := by
      rw [← Ty.value?_eq_get? hm]
      exact (hbelow source _ hs).value? hheld
    have hdenied : m'.get? p = some false := by
      rw [← Ty.value?_eq_get? hm']
      exact (hbelow target _ ht).value? hfalse
    rw [hcarried p hp hheld] at hdenied
    cases hdenied
  | _ => trivial

/-- Inference without a limit on the passes raises no false alarm and invents nothing. If there are
types that satisfy the system, it finds a solution, or leaves variables free that share the type of
no bound one; and the solution satisfies the system and is below all types that do. -/
theorem solve_least (hlimit : config.passLimit = none)
    (hrange : ∀ goal ∈ system.goals, ∀ i ∈ goal.subjects, i < system.vars.size)
    (hkind : ∀ i t, system.vars.get? i = some t → t.kind ≠ .dependent)
    (hsat : system.SatisfiedBy config.hierarchy types) :
    (∃ solution, system.solve config = .ok solution ∧
      system.SatisfiedBy config.hierarchy solution.type ∧
      ∀ i t, solution.vars.get? i = some t → t.Below (types i)) ∨
    (∃ names, system.solve config = .error (.unresolved names)) ∧
      ∃ i < system.vars.size, ¬system.Grounded i := by
  rcases solve_below_satisfying hlimit hrange hkind hsat with ⟨solution, hsolve, hbelow⟩ | hfree
  · refine Or.inl ⟨solution, hsolve, ?_, hbelow⟩
    refine solution_satisfies hrange hsolve ?_ (carries_of_below hrange hsat hsolve hbelow)
    intro var source t s hmem hfree ht hs
    rw [(hbelow source s hs).bare_eq, (hbelow var t ht).bare_eq]
    exact (hsat.goals _ hmem).2.2 hfree
  · exact Or.inr hfree

/-- A metric space with a shape, which is embedded in a space that is not compact, and an entangled
state. -/
def embeddedShape : GoalSystem Refinement where
  vars := ⟨[⟨"space", some (.topology (.basic "real") (.ofList [(.metrizable, true)]))⟩,
    ⟨"shape", none⟩, ⟨"image", some (.topology (.basic "real") (.ofList [(.compact, false)]))⟩,
    ⟨"state", some (.quantum (.basic "qubit") (.ofList [(.entangled, true)]))⟩]⟩
  goals := [.preserve 1 2 .embedding, .derive 2, .sameAs 1 0, .subtype 1 2,
    .property 2 (.topology .connected) true, .property 3 (.quantum .superposition) true]

/-- Types for it in which the space is connected too. -/
def embeddedShapeTypes : Nat → Ty Refinement
  | 0 => .topology (.basic "real") (.ofList [(.connected, true), (.metrizable, true)])
  | 1 => .topology (.basic "real")
      (.ofList [(.metrizable, true), (.connected, true), (.compact, false)])
  | 2 => .topology (.basic "real")
      (.ofList [(.compact, false), (.connected, true), (.metrizable, true), (.hausdorff, true),
        (.t2, true), (.t1, true), (.t0, true), (.normal, true), (.paracompact, true),
        (.regular, true)])
  | _ => .quantum (.basic "qubit") (.ofList [(.superposition, true), (.entangled, true)])

theorem embeddedShape_least :
    embeddedShape.SatisfiedBy .standard embeddedShapeTypes ∧
    ∃ solution, embeddedShape.solve {} = .ok solution ∧
      embeddedShape.SatisfiedBy .standard solution.type ∧
      ∀ i t, solution.vars.get? i = some t → t.Below (embeddedShapeTypes i) := by
  have hsat : embeddedShape.SatisfiedBy ({} : Config).hierarchy embeddedShapeTypes := by
    decide +kernel
  have hrange : ∀ goal ∈ embeddedShape.goals, ∀ i ∈ goal.subjects,
      i < embeddedShape.vars.size := by decide
  have hkind : ∀ i t, embeddedShape.vars.get? i = some t → t.kind ≠ .dependent := by
    have hall : ∀ i < embeddedShape.vars.size, ∀ t ∈ embeddedShape.vars.get? i,
      t.kind ≠ .dependent := by decide
    exact fun i t ht => hall i (Variables.lt_size_of_get? ht) t ht
  refine ⟨hsat, (solve_least rfl hrange hkind hsat).resolve_right ?_⟩
  rintro ⟨⟨names, hnames⟩, -⟩
  have hok : (embeddedShape.solve {}).toOption.isSome = true := by decide +kernel
  rw [hnames] at hok
  cases hok

end GoalSystem

end SpaceTypes
