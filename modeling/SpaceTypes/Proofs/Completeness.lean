import SpaceTypes.Proofs.Convergence
import SpaceTypes.Proofs.Provenance

/-!
# When inference succeeds

The trace of inference has the goals in the order in which they are applied, each with the
variables that it is applied to. An invariant under which every goal of the trace can be applied
leads to settled variables (`GoalSystem.iterate_eq_conclude_of_invariant`), and in a successful
inference whatever a goal of the trace has recorded is part of the solution
(`GoalSystem.apply_of_traceFrom`).

A model gives types to the variables such that the goals hold. What inference knows stays below
every model, because all that a goal demands is met there, with one exception: a mapping fills
what its target leaves unset at that moment, whether or not the target will be denied it later.
So inference finds a solution below any model that denies nothing that a mapping fills on the way
(`GoalSystem.solve_ok_of_model`).
-/

namespace SpaceTypes

variable {ρ : Type}

/-- The goal is a mapping that would record the property for the variable. -/
def Goal.Fills (vars : Variables ρ) : Goal → Nat → TopologyProperty → Prop
  | preserve source target mapping, i, q =>
    i = target ∧ q ∈ mapping.preserves ∧
      (∃ s, vars.get? source = some s ∧ s.value? (.topology q) = some true) ∧
      ∃ t, vars.get? target = some t ∧ t.value? (.topology q) = none
  | _, _, _ => False

namespace GoalSystem

variable [Meaning ρ] [DecidableEq ρ]

/-! ## The trace of inference -/

/-- The goals of a pass with the variables they are applied to, up to the first that fails. -/
def passTrace (h : Hierarchy) (vars : Variables ρ) : List Goal → List (Goal × Variables ρ)
  | [] => []
  | goal :: rest =>
    (goal, vars) ::
      match goal.apply h vars with
      | .ok (after, _) => passTrace h after rest
      | .error _ => []

/-- The goals of all passes with the variables they are applied to. -/
def traceFrom (h : Hierarchy) (goals : List Goal) : (remaining : Nat) → (pass : Nat) →
    Variables ρ → List (Goal × Variables ρ)
  | 0, _, _ => []
  | remaining + 1, pass, vars =>
    passTrace h vars goals ++
      match applyAll h pass 0 vars goals with
      | .ok (after, _ :: _) =>
        match after.checkConsistent with
        | .ok _ => traceFrom h goals remaining (pass + 1) after
        | .error _ => []
      | _ => []

/-- What inference applies its goals to, in order. -/
def trace (config : Config) (system : GoalSystem ρ) : List (Goal × Variables ρ) :=
  traceFrom config.hierarchy system.goals (config.passLimit.getD system.passBound) 0 system.vars

variable {h : Hierarchy} {goals : List Goal} {vars after : Variables ρ} {pass index : Nat}

theorem mem_goals_of_passTrace {x : Goal × Variables ρ} (hx : x ∈ passTrace h vars goals) :
    x.1 ∈ goals := by
  induction goals generalizing vars with
  | nil => cases hx
  | cons goal rest ih =>
    rcases List.mem_cons.1 hx with rfl | hx
    · exact List.mem_cons_self
    · split at hx
      · exact List.mem_cons_of_mem _ (ih hx)
      · cases hx

theorem mem_goals_of_traceFrom {remaining : Nat} {x : Goal × Variables ρ}
    (hx : x ∈ traceFrom h goals remaining pass vars) : x.1 ∈ goals := by
  induction remaining generalizing pass vars with
  | zero => cases hx
  | succ remaining ih =>
    rcases List.mem_append.1 hx with hx | hx
    · exact mem_goals_of_passTrace hx
    · split at hx
      · split at hx
        · exact ih hx
        · cases hx
      · cases hx

/-- A pass succeeds if an invariant lets each of its goals be applied. -/
theorem applyAll_ok_of_invariant {P : Variables ρ → Prop}
    (hstep : ∀ x ∈ passTrace h vars goals, P x.2 →
      ∃ after effects, x.1.apply h x.2 = .ok (after, effects) ∧ P after)
    (hP : P vars) (pass index : Nat) :
    ∃ after steps, applyAll h pass index vars goals = .ok (after, steps) ∧ P after := by
  induction goals generalizing vars index with
  | nil => exact ⟨vars, [], rfl, hP⟩
  | cons goal rest ih =>
    obtain ⟨mid, effects, hgoal, hmid⟩ := hstep (goal, vars) List.mem_cons_self hP
    have hlater : ∀ x ∈ passTrace h mid rest, x ∈ passTrace h vars (goal :: rest) := by
      intro x hx
      refine List.mem_cons_of_mem _ ?_
      rwa [hgoal]
    obtain ⟨after, steps, hrest, hafter⟩ :=
      ih (fun x hx => hstep x (hlater x hx)) hmid (index + 1)
    refine ⟨after, _, bind_eq_ok_iff.2 ⟨_, hgoal, bind_eq_ok_iff.2 ⟨_, hrest, rfl⟩⟩, hafter⟩

/-- If an invariant lets each goal of its trace be applied and excludes contradictions, inference
comes to an end with settled variables, and with a solution unless some of them are free. -/
theorem iterate_eq_conclude_of_invariant {P : Variables ρ → Prop} {remaining : Nat}
    (hstep : ∀ x ∈ traceFrom h goals remaining pass vars, P x.2 →
      ∃ after effects, x.1.apply h x.2 = .ok (after, effects) ∧ P after)
    (hconsistent : ∀ vars, P vars → vars.checkConsistent = .ok ())
    (henough : vars.unknowns < remaining) (hP : P vars) (path : List Step) :
    ∃ last path', iterate h goals remaining pass vars path = conclude last path' ∧ P last ∧
      Settled h goals last := by
  induction remaining generalizing pass vars path with
  | zero => omega
  | succ remaining ih =>
    obtain ⟨after, steps, hpass, hafter⟩ := applyAll_ok_of_invariant
      (fun x hx => hstep x (List.mem_append_left _ hx)) hP pass 0
    have hrest : iterate h goals (remaining + 1) pass vars path =
        if steps.isEmpty then conclude after path
        else iterate h goals remaining (pass + 1) after (path ++ steps) := by
      simp only [iterate, hpass, hconsistent after hafter, bind, Except.bind]
    cases steps with
    | nil =>
      obtain ⟨rfl, hsettled⟩ := settled_of_applyAll hpass
      exact ⟨after, path, hrest, hafter, hsettled⟩
    | cons step later =>
      have hlater : ∀ x ∈ traceFrom h goals remaining (pass + 1) after,
          x ∈ traceFrom h goals (remaining + 1) pass vars := by
        intro x hx
        refine List.mem_append_right _ ?_
        rw [hpass]
        simpa only [hconsistent after hafter] using hx
      have hless := unknowns_lt_of_applyAll hpass (by simp)
      obtain ⟨last, path', hlast, hsound⟩ :=
        ih (fun x hx => hstep x (hlater x hx)) (by omega) hafter (path ++ step :: later)
      exact ⟨last, path', hrest.trans hlast, hsound⟩

/-- In a pass that succeeds, every goal of its trace was applied with success, and what it led to
has only grown since. -/
theorem apply_of_passTrace {steps : List Step}
    (happly : applyAll h pass index vars goals = .ok (after, steps)) {x : Goal × Variables ρ}
    (hx : x ∈ passTrace h vars goals) :
    ∃ mid effects, x.1.apply h x.2 = .ok (mid, effects) ∧ mid.GrowsTo after := by
  induction goals generalizing vars index steps with
  | nil => cases hx
  | cons goal rest ih =>
    obtain ⟨⟨mid, effects⟩, hgoal, htail⟩ := bind_eq_ok_iff.1 happly
    obtain ⟨⟨last, later⟩, hrest, hend⟩ := bind_eq_ok_iff.1 htail
    cases hend
    rcases List.mem_cons.1 hx with rfl | hx
    · obtain ⟨n, hrun, -⟩ := applyAll_run hrest
      exact ⟨mid, effects, hgoal, hrun.growsTo⟩
    · rw [hgoal] at hx
      exact ih hrest hx

/-- In a successful inference, every goal of the trace was applied with success, and the solution
has grown out of what it led to. -/
theorem apply_of_traceFrom {remaining : Nat} {path : List Step} {solution : Solution ρ}
    (hsolve : iterate h goals remaining pass vars path = .ok solution) {x : Goal × Variables ρ}
    (hx : x ∈ traceFrom h goals remaining pass vars) :
    ∃ mid effects, x.1.apply h x.2 = .ok (mid, effects) ∧ mid.GrowsTo solution.vars := by
  induction remaining generalizing pass vars path with
  | zero => cases hx
  | succ remaining ih =>
    obtain ⟨⟨after, steps⟩, hpass, hloop⟩ := bind_eq_ok_iff.1 hsolve
    obtain ⟨⟨⟩, hconsistent, hend⟩ := bind_eq_ok_iff.1 hloop
    cases steps with
    | nil =>
      change conclude after path = .ok solution at hend
      unfold conclude at hend
      split at hend
      case isTrue =>
        cases hend
        rcases List.mem_append.1 hx with hx | hx
        · exact apply_of_passTrace hpass hx
        · rw [hpass] at hx
          cases hx
      case isFalse => cases hend
    | cons step later =>
      rcases List.mem_append.1 hx with hx | hx
      · obtain ⟨mid, effects, happly, hgrow⟩ := apply_of_passTrace hpass hx
        obtain ⟨⟨n, hrun⟩, -⟩ := iterate_ok hend
        exact ⟨mid, effects, happly, hgrow.trans hrun.growsTo⟩
      · rw [hpass] at hx
        simp only [hconsistent] at hx
        exact ih hend hx

end GoalSystem

/-! ## Below a model -/

/-- The second type is the first one with more properties, in any order. -/
structure Ty.Below (t m : Ty ρ) : Prop where
  /-- The layers below are the same. -/
  bare_eq : t.bare = m.bare
  /-- Each entry is the value of its property in the second type. -/
  value?_eq : ∀ e ∈ t.recorded, m.value? e.1 = some e.2

namespace Ty.Below

variable {t m : Ty ρ} {p : Property} {v : Bool}

theorem value? (h : t.Below m) (hv : t.value? p = some v) : m.value? p = some v :=
  h.value?_eq (p, v) (mem_recorded_iff.2 hv)

theorem kind_eq (h : t.Below m) : t.kind = m.kind := kind_eq_of_bare_eq h.bare_eq

theorem record (h : t.Below m) (hunset : t.value? p = none) (hv : m.value? p = some v) :
    (t.record p v).Below m := by
  have hkind : t.kind = p.kind := h.kind_eq.trans (kind_of_value? hv)
  refine ⟨by rw [bare_record, h.bare_eq], fun e he => ?_⟩
  rw [recorded_record hkind hunset, List.mem_append, List.mem_singleton] at he
  rcases he with he | rfl
  · exact h.value?_eq e he
  · exact hv

theorem fires {base base' : Ty ρ} {r r' : Registry TopologyProperty}
    (h : (topology base r).Below (topology base' r')) {rule : Rule} (hfires : rule.fires r = true) :
    rule.fires r' = true :=
  Rule.fires_iff.2 fun a ha => h.value? (p := .topology a) (Rule.fires_iff.1 hfires a ha)

/-- A type below one without contradiction is without contradiction. -/
theorem inconsistency?_eq_none (h : t.Below m) (hm : Variables.inconsistency? m = none) :
    Variables.inconsistency? t = none := by
  have hkind := h.kind_eq
  cases t with
  | basic name => rfl
  | dependent base clauses => rfl
  | topology base r =>
    cases m with
    | topology base' r' =>
      have hnone : r.violatedRule? = none := by
        refine List.find?_eq_none.2 fun rule hmem hviolated => ?_
        obtain ⟨hfires, hdenied⟩ := Bool.and_eq_true_iff.1 hviolated
        have hdenied : r.get? rule.consequent = some false := by simpa using hdenied
        exact Variables.get?_consequent_of_consistent hm hmem (h.fires hfires)
          (h.value? (p := .topology rule.consequent) hdenied)
      simp [Variables.inconsistency?, hnone]
    | _ => cases hkind
  | quantum base r =>
    cases m with
    | quantum base' r' =>
      have hcoherent : r.isCoherent = true := by
        cases hincoherent : r.isCoherent with
        | true => rfl
        | false =>
          have hclash : r.get? .entangled = some true ∧ r.get? .superposition = some false := by
            simpa [Registry.isCoherent, Registry.holds_iff] using hincoherent
          exact absurd (h.value? (p := .quantum .superposition) hclash.2)
            (Variables.get?_superposition_of_consistent hm
              (h.value? (p := .quantum .entangled) hclash.1))
      simp [Variables.inconsistency?, hcoherent]
    | _ => cases hkind

/-- Without dependent layers on the outside, types are in the same order as those they are
below. -/
theorem isSubtype_eq [Meaning ρ] [DecidableEq ρ] (hierarchy : Hierarchy) {s n : Ty ρ}
    (h : t.Below m) (h' : s.Below n) (ht : t.kind ≠ .dependent) (hs : s.kind ≠ .dependent) :
    t.isSubtype hierarchy s = m.isSubtype hierarchy n := by
  have hm : m.kind ≠ .dependent := by rwa [← h.kind_eq]
  have hn : n.kind ≠ .dependent := by rwa [← h'.kind_eq]
  rw [isSubtype_bare hierarchy ht hs, isSubtype_bare hierarchy hm hn, h.bare_eq, h'.bare_eq]

end Ty.Below

namespace Variables

/-- Every bound variable is below the type that it is given. -/
def Below (vars : Variables ρ) (types : Nat → Option (Ty ρ)) : Prop :=
  ∀ i t, vars.get? i = some t → ∃ m, types i = some m ∧ t.Below m

variable {vars : Variables ρ} {types : Nat → Option (Ty ρ)} {i : Nat} {m : Ty ρ}

theorem Below.below (h : vars.Below types) {t : Ty ρ} (ht : vars.get? i = some t)
    (hm : types i = some m) : t.Below m := by
  obtain ⟨m', hm', hbelow⟩ := h i t ht
  rw [hm] at hm'
  cases hm'
  exact hbelow

theorem Below.put (h : vars.Below types) {t : Ty ρ} (hm : types i = some m) (ht : t.Below m) :
    (vars.put i t).Below types := by
  intro j s hs
  rw [get?_put] at hs
  split at hs
  case isTrue hij =>
    cases hs
    exact ⟨m, by rw [← hij.1, hm], ht⟩
  case isFalse => exact h j s hs

theorem Below.checkConsistent (h : vars.Below types)
    (htypes : ∀ i m, types i = some m → inconsistency? m = none) :
    vars.checkConsistent = .ok () := by
  have hnone : vars.entries.findSome? (fun entry =>
      (entry.binding.bind inconsistency?).map fun what => (entry.name, what)) = none := by
    refine List.findSome?_eq_none_iff.2 fun entry hmem => ?_
    obtain ⟨i, hentry⟩ := List.mem_iff_getElem?.1 hmem
    cases hbinding : entry.binding with
    | none => rfl
    | some t =>
      obtain ⟨m, hm, hbelow⟩ := h i t (by simp [get?, hentry, hbinding])
      simp [hbelow.inconsistency?_eq_none (htypes i m hm)]
  rw [Variables.checkConsistent, hnone]

/-! ## Operations below a model -/

/-- A demand that is met in the model succeeds below it. -/
theorem Below.require_ok (h : vars.Below types) (hi : i < vars.size) (hm : types i = some m)
    {p : Property} {v : Bool} (hv : m.value? p = some v) :
    ∃ after effects, vars.require i p v = .ok (after, effects) ∧ after.Below types := by
  obtain ⟨name, hname⟩ := name_eq_ok hi
  simp only [require, hname]
  cases ht : vars.get? i with
  | none => exact ⟨vars, [], rfl, h⟩
  | some t =>
    have hbelow := h.below ht hm
    have hkind : t.kind = p.kind := hbelow.kind_eq.trans (Ty.kind_of_value? hv)
    simp only [hkind, if_true]
    cases hvalue : t.value? p with
    | none => exact ⟨_, _, rfl, h.put hm (hbelow.record hvalue hv)⟩
    | some known =>
      have hknown : known = v := Option.some.inj ((hbelow.value? hvalue).symm.trans hv)
      simp only [hknown, if_true]
      exact ⟨vars, [], rfl, h⟩

theorem Below.requireAll_ok (h : vars.Below types) (hi : i < vars.size) (hm : types i = some m)
    {demands : List (Property × Bool)} (hv : ∀ e ∈ demands, m.value? e.1 = some e.2) :
    ∃ after effects, vars.requireAll i demands = .ok (after, effects) ∧ after.Below types := by
  induction demands generalizing vars with
  | nil => exact ⟨vars, [], rfl, h⟩
  | cons e rest ih =>
    obtain ⟨mid, first, hfirst, hmid⟩ := h.require_ok hi hm (hv e List.mem_cons_self)
    have hi' : i < mid.size := by rwa [size_of_require hfirst]
    obtain ⟨after, others, hrest, hafter⟩ := ih hmid hi' fun e' he' =>
      hv e' (List.mem_cons_of_mem _ he')
    exact ⟨after, _, bind_eq_ok_iff.2 ⟨_, hfirst, bind_eq_ok_iff.2 ⟨_, hrest, rfl⟩⟩, hafter⟩

/-- What filling a property does to a bound variable: the property has a value afterwards, and
nothing is denied that was not denied before. -/
theorem fill_cases {t : Ty ρ} {p : TopologyProperty} {after : Variables ρ}
    {effects : List Effect} (h : vars.fill i p = .ok (after, effects))
    (ht : vars.get? i = some t) :
    ∃ t', after.get? i = some t' ∧ t.GrowsTo t' ∧ t'.value? (.topology p) ≠ none ∧
      ∀ q, t'.value? q = some false → t.value? q = some false := by
  unfold fill at h
  simp only [ht, Option.bind_some] at h
  split at h
  case h_1 v hv =>
    cases h
    exact ⟨t, ht, .refl t, by rw [hv]; simp, fun q hq => hq⟩
  case h_2 hunset =>
    rcases require_cases h with ⟨-, -, hmet⟩ | ⟨s, hs, hkind, -, rfl, -⟩
    · rw [(hmet t ht).2] at hunset
      cases hunset
    · rw [ht] at hs
      cases hs
      refine ⟨t.record (.topology p) true, get?_put_self (lt_size_of_get? ht) _,
        Ty.growsTo_record hkind hunset true, by simp [Ty.value?_record_self hkind], ?_⟩
      intro q hq
      by_cases hqp : q = .topology p
      · rw [hqp, Ty.value?_record_self hkind] at hq
        cases hq
      · rwa [Ty.value?_record_of_ne hqp] at hq

/-- Filling succeeds below a model that has what was unset. -/
theorem Below.fillAll_ok (h : vars.Below types) (hm : types i = some m) {t : Ty ρ}
    (ht : vars.get? i = some t) {properties : List TopologyProperty}
    (hv : ∀ p ∈ properties, t.value? (.topology p) = none → m.value? (.topology p) = some true) :
    ∃ after effects, vars.fillAll i properties = .ok (after, effects) ∧ after.Below types := by
  induction properties generalizing vars t with
  | nil => exact ⟨vars, [], rfl, h⟩
  | cons p rest ih =>
    have hfill : ∃ mid effects, vars.fill i p = .ok (mid, effects) ∧ mid.Below types := by
      unfold fill
      simp only [ht, Option.bind_some]
      cases hvalue : t.value? (.topology p) with
      | some v => exact ⟨vars, [], rfl, h⟩
      | none => exact h.require_ok (lt_size_of_get? ht) hm (hv p List.mem_cons_self hvalue)
    obtain ⟨mid, first, hfirst, hmid⟩ := hfill
    obtain ⟨t', ht', hgrow, -⟩ := fill_cases hfirst ht
    have hv' : ∀ q ∈ rest, t'.value? (.topology q) = none → m.value? (.topology q) = some true := by
      intro q hq hunset
      refine hv q (List.mem_cons_of_mem _ hq) ?_
      cases hvalue : t.value? (.topology q) with
      | none => rfl
      | some v =>
        rw [hgrow.value? hvalue] at hunset
        cases hunset
    obtain ⟨after, others, hrest, hafter⟩ := ih hmid ht' hv'
    exact ⟨after, _, bind_eq_ok_iff.2 ⟨_, hfirst, bind_eq_ok_iff.2 ⟨_, hrest, rfl⟩⟩, hafter⟩

/-- After filling, a property that was not denied is recorded. -/
theorem value?_of_fillAll_ok {t : Ty ρ} {properties : List TopologyProperty}
    {after : Variables ρ} {effects : List Effect}
    (h : vars.fillAll i properties = .ok (after, effects)) (ht : vars.get? i = some t)
    {q : TopologyProperty} (hset : q ∈ properties ∨ t.value? (.topology q) = some true)
    (hdenied : t.value? (.topology q) ≠ some false) :
    ∃ t', after.get? i = some t' ∧ t'.value? (.topology q) = some true := by
  induction properties generalizing vars t effects with
  | nil =>
    cases h
    exact ⟨t, ht, hset.resolve_left List.not_mem_nil⟩
  | cons p rest ih =>
    obtain ⟨⟨mid, first⟩, hfirst, htail⟩ := bind_eq_ok_iff.1 h
    obtain ⟨⟨last, others⟩, hrest, hend⟩ := bind_eq_ok_iff.1 htail
    cases hend
    obtain ⟨t', ht', hgrow, hknown, hnew⟩ := fill_cases hfirst ht
    have hdenied' : t'.value? (.topology q) ≠ some false := fun hfalse =>
      hdenied (hnew _ hfalse)
    refine ih hrest ht' ?_ hdenied'
    rcases hset with hmem | hheld
    · rcases List.mem_cons.1 hmem with rfl | hmem
      · exact Or.inr (eq_some_true hknown hdenied')
      · exact Or.inl hmem
    · exact Or.inr (hgrow.value? hheld)

end Variables

/-! ## Inference below a model -/

variable [Meaning ρ] [DecidableEq ρ]

/-- Types for the variables of a system, above those at the start, of which all goals hold. -/
structure GoalSystem.Model (h : Hierarchy) (system : GoalSystem ρ)
    (types : Nat → Option (Ty ρ)) : Prop where
  /-- Only the variables of the system have types. -/
  lt_size : ∀ {i m}, types i = some m → i < system.vars.size
  /-- The types at the start have no dependent layer on the outside. -/
  kind_ne : ∀ i t, system.vars.get? i = some t → t.kind ≠ .dependent
  /-- No type contradicts itself. -/
  consistent : ∀ i m, types i = some m → Variables.inconsistency? m = none
  /-- The types at the start are below. -/
  start : system.vars.Below types
  /-- All goals hold. -/
  holds : ∀ goal ∈ system.goals, goal.Holds h types
  /-- A variable that is free at the start has the layers of what it should share the type of. -/
  bare_eq : ∀ {var source t s}, .sameAs var source ∈ system.goals →
    system.vars.get? var = none → types var = some t → types source = some s → s.bare = t.bare

namespace GoalSystem.Model

variable {h : Hierarchy} {system : GoalSystem ρ} {types : Nat → Option (Ty ρ)}
  {vars : Variables ρ} {n : Nat}

theorem applySameAs_ok (model : Model h system types) (hrun : Run system.goals n system.vars vars)
    (hbelow : vars.Below types) {var source : Nat} (hmem : .sameAs var source ∈ system.goals) :
    ∃ after effects, vars.applySameAs h var source = .ok (after, effects) ∧
      after.Below types := by
  obtain ⟨t, s, ht, hs, hts, hst, hshare⟩ := model.holds _ hmem
  have hgrow := hrun.growsTo
  unfold Variables.applySameAs
  cases hsource : vars.get? source with
  | none => exact ⟨vars, [], rfl, hbelow⟩
  | some s' =>
    have hs' : s'.Below s := hbelow.below hsource hs
    have hshare' : ∀ e ∈ s'.recorded, t.value? e.1 = some e.2 := fun e he =>
      hshare e (Ty.mem_recorded_iff.2 (hs'.value?_eq e he))
    cases hvar : vars.get? var with
    | none =>
      have hlt : var < vars.size := by
        rw [hgrow.size_eq]
        exact model.lt_size ht
      have hfree : system.vars.get? var = none := by
        cases hstart : system.vars.get? var with
        | none => rfl
        | some t =>
          obtain ⟨t', ht', -⟩ := hgrow.get?_grows hstart
          rw [hvar] at ht'
          cases ht'
      have hbare : s'.bare = t.bare := hs'.bare_eq.trans (model.bare_eq hmem hfree ht hs)
      simp only [Variables.assign, hvar, Nat.not_le.2 hlt, if_false, Option.isSome_none,
        Bool.false_eq_true]
      exact ⟨_, _, rfl, hbelow.put ht ⟨hbare, hshare'⟩⟩
    | some t' =>
      have ht' : t'.Below t := hbelow.below hvar ht
      have hmutual : (t'.isSubtype h s' && s'.isSubtype h t') = true := by
        have htkind := kind_ne_of_run hrun model.kind_ne hvar
        have hskind := kind_ne_of_run hrun model.kind_ne hsource
        rw [ht'.isSubtype_eq h hs' htkind hskind, hs'.isSubtype_eq h ht' hskind htkind, hts, hst]
        rfl
      simp only [hmutual, if_true]
      exact hbelow.requireAll_ok (Variables.lt_size_of_get? hvar) ht hshare'

theorem applySubtype_ok (model : Model h system types)
    (hrun : Run system.goals n system.vars vars) (hbelow : vars.Below types) {sub sup : Nat}
    (hmem : .subtype sub sup ∈ system.goals) :
    ∃ after effects, vars.applySubtype h sub sup = .ok (after, effects) ∧ after.Below types := by
  obtain ⟨t, s, ht, hs, hts⟩ := model.holds _ hmem
  unfold Variables.applySubtype
  split
  case h_1 t' s' ht' hs' =>
    rw [(hbelow.below ht' ht).isSubtype_eq h (hbelow.below hs' hs)
      (kind_ne_of_run hrun model.kind_ne ht') (kind_ne_of_run hrun model.kind_ne hs'), hts]
    exact ⟨vars, [], rfl, hbelow⟩
  case h_2 => exact ⟨vars, [], rfl, hbelow⟩

theorem applyPreserve_ok (model : Model h system types) (hbelow : vars.Below types)
    {source target : Nat} {mapping : MappingKind}
    (hmem : .preserve source target mapping ∈ system.goals)
    (hfill : ∀ i q m, (Goal.preserve source target mapping).Fills vars i q → types i = some m →
      m.value? (.topology q) ≠ some false) :
    ∃ after effects, vars.applyPreserve source target mapping = .ok (after, effects) ∧
      after.Below types := by
  obtain ⟨base, r, base', r', hs, ht, hcarried⟩ := model.holds _ hmem
  unfold Variables.applyPreserve
  split
  case h_1 s' t' hs' ht' =>
    have hsbelow := hbelow.below hs' hs
    have htbelow := hbelow.below ht' ht
    have hskind : s'.kind = .topology := hsbelow.kind_eq
    have htkind : t'.kind = .topology := htbelow.kind_eq
    cases s' with
    | topology sbase sr =>
      cases t' with
      | topology tbase tr =>
        refine hbelow.fillAll_ok ht ht' fun q hq hunset => ?_
        obtain ⟨e, he, rfl⟩ := List.mem_map.1 hq
        obtain ⟨hentry, hkept⟩ := List.mem_filter.1 he
        obtain ⟨htrue, hpreserved⟩ := Bool.and_eq_true_iff.1 hkept
        have hpreserved : e.1 ∈ mapping.preserves := List.contains_iff_mem.1 hpreserved
        have hrecorded : (Property.topology e.1, true) ∈ (Ty.topology sbase sr).recorded :=
          List.mem_map.2 ⟨e, hentry, by rw [htrue]⟩
        have hheld : r.get? e.1 = some true := hsbelow.value?_eq _ hrecorded
        have hread : (Ty.topology sbase sr).value? (.topology e.1) = some true :=
          Ty.mem_recorded_iff.1 hrecorded
        have hdenied := hfill target e.1 _ ⟨rfl, hpreserved, ⟨_, hs', hread⟩, _, ht', hunset⟩ ht
        exact eq_some_true (hcarried e.1 hpreserved hheld) hdenied
      | _ => cases htkind
    | _ => cases hskind
  case h_2 => exact ⟨vars, [], rfl, hbelow⟩

theorem applyDerive_ok (model : Model h system types) (hbelow : vars.Below types) {var : Nat}
    (hmem : .derive var ∈ system.goals) :
    ∃ after effects, vars.applyDerive var = .ok (after, effects) ∧ after.Below types := by
  have hok : ∃ after effects, vars.applyDerive var = .ok (after, effects) := by
    unfold Variables.applyDerive
    split
    · dsimp only
      split
      · exact ⟨_, _, rfl⟩
      · exact ⟨_, _, rfl⟩
    · exact ⟨_, _, rfl⟩
  obtain ⟨after, effects, happly⟩ := hok
  obtain ⟨n, hrun, -⟩ := Variables.applyDerive_run happly
  refine ⟨after, effects, happly, hrun.induct (P := fun vars => vars.Below types) ?_ hbelow⟩
  intro goal hgoal vars vars' hmove hbelow
  rw [List.mem_singleton] at hgoal
  subst hgoal
  cases hmove with
  | bind hgoal => cases hgoal
  | record hdemand hbound hkind hunset =>
    obtain ⟨rfl, rfl, rule, hrule, rfl, t, ht, hfires⟩ := hdemand
    rw [hbound] at ht
    cases ht
    obtain ⟨m, hm, htm⟩ := hbelow _ _ hbound
    -- the rule fires in the model too, where its consequent is held
    have hmkind : m.kind = .topology := htm.kind_eq.symm.trans hkind
    cases m with
    | topology base r =>
      have hheld : r.get? rule.consequent = some true := model.holds _ hmem base r hm rule hrule
        (Rule.fires_iff.2 fun a ha => htm.value? (hfires a ha))
      exact hbelow.put hm (htm.record hunset hheld)
    | _ => cases hmkind

/-- A goal can be applied below a model, unless it fills what the model denies. -/
theorem apply_ok (model : Model h system types) (hrun : Run system.goals n system.vars vars)
    (hbelow : vars.Below types) {goal : Goal} (hmem : goal ∈ system.goals)
    (hfill : ∀ i q m, goal.Fills vars i q → types i = some m →
      m.value? (.topology q) ≠ some false) :
    ∃ after effects, goal.apply h vars = .ok (after, effects) ∧ after.Below types := by
  cases goal with
  | sameAs var source => exact model.applySameAs_ok hrun hbelow hmem
  | subtype sub sup => exact model.applySubtype_ok hrun hbelow hmem
  | property var p v =>
    obtain ⟨m, hm, hv⟩ := model.holds _ hmem
    simp only [Goal.apply, Variables.applyProperty]
    split
    case h_1 => exact ⟨vars, [], rfl, hbelow⟩
    case h_2 t ht => exact hbelow.require_ok (Variables.lt_size_of_get? ht) hm hv
  | preserve source target mapping => exact model.applyPreserve_ok hbelow hmem hfill
  | derive var => exact model.applyDerive_ok hbelow hmem

end GoalSystem.Model

namespace GoalSystem

/-- Inference with enough passes ends below a model with settled variables, if no mapping that is
met below the model fills what the model denies. -/
theorem solve_eq_conclude_of_model {config : Config} {system : GoalSystem ρ}
    {types : Nat → Option (Ty ρ)} (model : Model config.hierarchy system types)
    (hlimit : ∀ n, config.passLimit = some n → system.passBound ≤ n)
    (hfill : ∀ x ∈ system.trace config, x.2.Below types → ∀ i q m, x.1.Fills x.2 i q →
      types i = some m → m.value? (.topology q) ≠ some false) :
    ∃ last path, system.solve config = conclude last path ∧
      (∃ n, Run system.goals n system.vars last) ∧ last.Below types ∧
      Settled config.hierarchy system.goals last := by
  have henough : system.vars.unknowns < config.passLimit.getD system.passBound :=
    unknowns_lt_limit hlimit
  have hstep : ∀ x ∈ system.trace config,
      (∃ n, Run system.goals n system.vars x.2) ∧ x.2.Below types →
      ∃ after effects, x.1.apply config.hierarchy x.2 = .ok (after, effects) ∧
        (∃ n, Run system.goals n system.vars after) ∧ after.Below types := by
    rintro x hx ⟨⟨m, hrun⟩, hbelow⟩
    have hmem := mem_goals_of_traceFrom hx
    obtain ⟨after, effects, happly, hafter⟩ :=
      model.apply_ok hrun hbelow hmem (hfill x hx hbelow)
    obtain ⟨n, hrun', -⟩ := Goal.apply_run happly
    have hsub : [x.1] ⊆ system.goals := by simpa using hmem
    exact ⟨after, effects, happly, ⟨m + n, hrun.trans (hrun'.mono hsub)⟩, hafter⟩
  obtain ⟨last, path, hsolve, ⟨hrun, hbelow⟩, hsettled⟩ :=
    iterate_eq_conclude_of_invariant
      (P := fun vars => (∃ n, Run system.goals n system.vars vars) ∧ vars.Below types) hstep
      (fun vars hP => hP.2.checkConsistent model.consistent) henough
      ⟨⟨0, .refl _⟩, model.start⟩ []
  exact ⟨last, path, hsolve, hrun, hbelow, hsettled⟩

/-- If every variable is grounded, inference below a model finds a solution. -/
theorem solve_ok_of_model {config : Config} {system : GoalSystem ρ}
    {types : Nat → Option (Ty ρ)} (model : Model config.hierarchy system types)
    (hlimit : ∀ n, config.passLimit = some n → system.passBound ≤ n)
    (hground : ∀ i < system.vars.size, system.Grounded i)
    (hfill : ∀ x ∈ system.trace config, x.2.Below types → ∀ i q m, x.1.Fills x.2 i q →
      types i = some m → m.value? (.topology q) ≠ some false) :
    ∃ solution, system.solve config = .ok solution ∧ solution.vars.Below types := by
  obtain ⟨last, path, hsolve, ⟨n, hrun⟩, hbelow, hsettled⟩ :=
    solve_eq_conclude_of_model model hlimit hfill
  refine ⟨⟨last, path⟩, ?_, hbelow⟩
  rw [hsolve, conclude, freeNames_eq_nil_of_settled hsettled hrun.growsTo hground]
  rfl

/-- What a mapping has filled on the way is held in the solution. -/
theorem value?_of_fills {config : Config} {system : GoalSystem ρ} {solution : Solution ρ}
    (hsolve : system.solve config = .ok solution) {x : Goal × Variables ρ}
    (hx : x ∈ system.trace config) {i : Nat} {q : TopologyProperty} (hfills : x.1.Fills x.2 i q) :
    ∃ t, solution.vars.get? i = some t ∧ t.value? (.topology q) = some true := by
  obtain ⟨goal, vars⟩ := x
  obtain ⟨mid, effects, happly, hgrow⟩ := apply_of_traceFrom hsolve hx
  cases goal with
  | preserve source target mapping =>
    obtain ⟨rfl, hq, ⟨s, hs, hheld⟩, t, ht, hunset⟩ := hfills
    simp only [Goal.apply, Variables.applyPreserve] at hs ht happly
    simp only [hs, ht] at happly
    obtain ⟨r, hr, htail⟩ := bind_eq_ok_iff.1 happly
    obtain ⟨_, -, hfill⟩ := bind_eq_ok_iff.1 htail
    cases s with
    | topology base registry =>
      cases hr
      have hentry : (Property.topology q, true) ∈ (Ty.topology base r).recorded :=
        Ty.mem_recorded_iff.2 hheld
      obtain ⟨e, he, heq⟩ := List.mem_map.1 hentry
      simp only [Prod.mk.injEq, Property.topology.injEq] at heq
      have hlisted : q ∈ (r.entries.filter fun e =>
          e.2 && mapping.preserves.contains e.1).map Prod.fst :=
        List.mem_map.2 ⟨e, List.mem_filter.2 ⟨he, by simpa [heq] using hq⟩, heq.1⟩
      obtain ⟨t', ht', htrue⟩ := Variables.value?_of_fillAll_ok hfill ht (Or.inl hlisted)
        (by rw [hunset]; simp)
      obtain ⟨t'', ht'', hgrow'⟩ := hgrow.get?_grows ht'
      exact ⟨t'', ht'', hgrow'.value? htrue⟩
    | _ => cases hr
  | _ => exact hfills.elim

end GoalSystem

end SpaceTypes
