import SpaceTypes.Proofs.Replay
import SpaceTypes.Proofs.Soundness

/-!
# Inference only adds

Whatever inference knows about a variable, it knows ever after. A type that a variable has is kept
with all its layers, and all that happens to it is that entries are put at the end of its outermost
registry (`Ty.Appends`). A variable without a type gets one in a single step of the path, by a goal
that it should share the type of a source, and has from then on the type that the source had at
this point, with entries appended (`Variables.exists_binding_step`).

Both are read off the path: its steps can be replayed, and each of them makes something known and
changes nothing else.
-/

namespace SpaceTypes

variable {ρ : Type}

/-! ## Appended entries -/

/-- The second type is the first one, with more entries at the end of the outermost registry if it
has one. -/
def Ty.Appends : Ty ρ → Ty ρ → Prop
  | topology base r, t => ∃ r' later, r'.entries = r.entries ++ later ∧ t = topology base r'
  | quantum base r, t => ∃ r' later, r'.entries = r.entries ++ later ∧ t = quantum base r'
  | basic name, t => t = basic name
  | dependent base clauses, t => t = dependent base clauses

/-- Entries that are kept as properties of either family are kept as they are. -/
theorem prefix_of_map_property {α : Type} {f : α → Property} (hf : Function.Injective f)
    {entries entries' : List (α × Bool)}
    (h : entries.map (fun e => (f e.1, e.2)) <+: entries'.map fun e => (f e.1, e.2)) :
    entries <+: entries' := by
  refine (List.prefix_map_iff_of_injective fun e e' heq => ?_).1 h
  obtain ⟨hp, hv⟩ := Prod.mk.inj heq
  exact Prod.ext (hf hp) hv

/-- To grow is to have entries appended. -/
theorem Ty.GrowsTo.appends {t t' : Ty ρ} (h : t.GrowsTo t') : t.Appends t' := by
  obtain ⟨hbare, hrecorded⟩ := h
  cases t with
  | basic name =>
    cases t' <;> cases hbare
    rfl
  | dependent base clauses =>
    cases t' <;> cases hbare
    rfl
  | topology base r =>
    cases t' <;> cases hbare
    obtain ⟨later, hlater⟩ := prefix_of_map_property (fun _ _ => Property.topology.inj) hrecorded
    exact ⟨_, later, hlater.symm, rfl⟩
  | quantum base r =>
    cases t' <;> cases hbare
    obtain ⟨later, hlater⟩ := prefix_of_map_property (fun _ _ => Property.quantum.inj) hrecorded
    exact ⟨_, later, hlater.symm, rfl⟩

/-! ## The step that binds a variable -/

namespace Variables

variable {vars vars' : Variables ρ} {i : Nat} {t : Ty ρ}

/-- Recording a property binds no variable. -/
theorem get?_eq_none_of_record? {j : Nat} {p : Property} {value : Bool}
    (h : vars.record? j p value = some vars') (hfree : vars.get? i = none) :
    vars'.get? i = none := by
  obtain ⟨s, hs, -, -, rfl⟩ := record?_eq_some_iff.1 h
  have hne : j ≠ i := by
    rintro rfl
    rw [hfree] at hs
    cases hs
  rw [get?_put_of_ne vars hne, hfree]

theorem get?_eq_none_of_recordAll? {j : Nat} {properties : List TopologyProperty}
    (h : vars.recordAll? j properties = some vars') (hfree : vars.get? i = none) :
    vars'.get? i = none := by
  induction properties generalizing vars with
  | nil =>
    cases h
    exact hfree
  | cons p rest ih =>
    rw [recordAll?, List.foldlM_cons] at h
    obtain ⟨mid, hfirst, hrest⟩ := Option.bind_eq_some_iff.1 h
    exact ih hrest (get?_eq_none_of_record? hfirst hfree)

end Variables

/-- A variable becomes bound only by an effect that says so, to the type of a source. -/
theorem Effect.binding_of_replay {cause : Option Goal} {vars vars' : Variables ρ} {effect : Effect}
    {i : Nat} {t : Ty ρ} (h : effect.replay? cause vars = some vars') (hfree : vars.get? i = none)
    (ht : vars'.get? i = some t) :
    effect = .bound i ∧ ∃ source, cause = some (.sameAs i source) ∧ vars.get? source = some t := by
  cases effect with
  | bound var =>
    simp only [replay?] at h
    split at h
    case h_1 v source =>
      split at h
      case isTrue hv =>
        obtain ⟨-, hlt, s, hs, rfl⟩ := Variables.copy?_eq_some_iff.1 h
        rw [Variables.get?_put] at ht
        split at ht
        case isTrue hi =>
          cases ht
          exact ⟨by rw [hi.1], source, by rw [hv, hi.1], hs⟩
        case isFalse =>
          rw [hfree] at ht
          cases ht
      case isFalse => cases h
    case h_2 => cases h
  | set var p value =>
    rw [Variables.get?_eq_none_of_record? h hfree] at ht
    cases ht
  | derived var properties =>
    simp only [replay?] at h
    split at h
    · cases h
    · rw [Variables.get?_eq_none_of_recordAll? h hfree] at ht
      cases ht

namespace Variables

variable {vars vars' : Variables ρ} {i : Nat} {t : Ty ρ} {goals : List Goal}

/-- The path before `step` leads to variables in which the source of its goal has the type `s`, and
the step binds the variable to this type. -/
structure BindingStep (vars : Variables ρ) (goals : List Goal) (before : List Step) (step : Step)
    (i source : Nat) (s : Ty ρ) : Prop where
  /-- The step is recorded as the binding of the variable. -/
  effect_eq : step.effect = .bound i
  /-- Its goal is that the variable shares the type of the source. -/
  goal_eq : goals[step.goal]? = some (.sameAs i source)
  /-- The source has its type at this point. -/
  source_eq : ∃ mid, vars.replay? goals before = some mid ∧ mid.get? source = some s

/-- A variable that becomes bound along a path is bound by one of its steps, and from then on both
the variable and the source only grow. -/
theorem exists_binding_step {path : List Step} (h : vars.replay? goals path = some vars')
    (hfree : vars.get? i = none) (ht : vars'.get? i = some t) :
    ∃ before step after source s s', path = before ++ step :: after ∧
      vars.BindingStep goals before step i source s ∧ vars'.get? source = some s' ∧
      s.GrowsTo t ∧ s.GrowsTo s' := by
  induction path generalizing vars with
  | nil =>
    cases h
    rw [hfree] at ht
    cases ht
  | cons step rest ih =>
    have hcons := h
    rw [replay?, List.foldlM_cons] at hcons
    obtain ⟨mid, hstep, hrest⟩ := Option.bind_eq_some_iff.1 hcons
    cases hmid : mid.get? i with
    | none =>
      obtain ⟨before, next, after, source, s, s', rfl, hbinding, hgrown⟩ := ih hrest hmid
      refine ⟨step :: before, next, after, source, s, s', rfl, ?_, hgrown⟩
      obtain ⟨last, hlast, hsource⟩ := hbinding.source_eq
      refine ⟨hbinding.effect_eq, hbinding.goal_eq, last, ?_, hsource⟩
      rw [replay?, List.foldlM_cons]
      exact Option.bind_eq_some_iff.2 ⟨mid, hstep, hlast⟩
    | some s =>
      obtain ⟨heffect, source, hgoal, hsource⟩ := Effect.binding_of_replay hstep hfree hmid
      obtain ⟨t', ht', hgrow⟩ := (learns_replay hrest).growsTo.get?_grows hmid
      cases ht.symm.trans ht'
      obtain ⟨s', hs', hgrow'⟩ := (learns_replay h).growsTo.get?_grows hsource
      exact ⟨[], step, rest, source, s, s', rfl, ⟨heffect, hgoal, vars, rfl, hsource⟩, hs', hgrow,
        hgrow'⟩

/-- No other step of a path binds the same variable. -/
theorem binding_step_unique {before after : List Step} {step other : Step}
    (h : vars.replay? goals (before ++ step :: after) = some vars')
    (heffect : step.effect = .bound i) (hother : other ∈ before ++ after) :
    other.effect ≠ .bound i := by
  intro hsame
  have hslot : ∀ {step : Step}, step.effect = .bound i → Slot.type i ∈ step.effect.slots := by
    intro step heq
    rw [heq]
    exact List.mem_singleton_self _
  have hnodup := (learns_replay h).nodup
  rw [List.flatMap_append, List.flatMap_cons] at hnodup
  obtain ⟨-, hlater, hapart⟩ := List.nodup_append'.1 hnodup
  rcases List.mem_append.1 hother with hmem | hmem
  · exact hapart (List.mem_flatMap.2 ⟨other, hmem, hslot hsame⟩)
      (List.mem_append_left _ (hslot heffect))
  · exact (List.nodup_append'.1 hlater).2.2 (hslot heffect)
      (List.mem_flatMap.2 ⟨other, hmem, hslot hsame⟩)

end Variables

/-! ## Solutions -/

namespace GoalSystem

variable [Meaning ρ] [DecidableEq ρ] {config : Config} {system : GoalSystem ρ}
  {solution : Solution ρ}

/-- Inference only adds to what is known. A variable that has a type at the start keeps it, with
entries appended to its outermost registry. One that has none is bound in exactly one step of the
path, by a goal that it should share the type of a source, and it and the source have in the end
the type that the source had at this step, with entries appended to each. At no point of the path
has a property that is known at the start another value. -/
theorem solution_only_adds (hsolve : system.solve config = .ok solution) :
    (∀ i t, system.vars.get? i = some t →
      ∃ t', solution.vars.get? i = some t' ∧ t.Appends t') ∧
    (∀ i < system.vars.size, system.vars.get? i = none →
      ∃ before step after source s s' t, solution.path = before ++ step :: after ∧
        system.vars.BindingStep system.goals before step i source s ∧
        (∀ other ∈ before ++ after, other.effect ≠ .bound i) ∧
        solution.vars.get? source = some s' ∧ solution.vars.get? i = some t ∧
        s.Appends s' ∧ s.Appends t) ∧
    ∀ before after, solution.path = before ++ after →
      ∃ vars, system.vars.replay? system.goals before = some vars ∧
        ∀ i t p v, system.vars.get? i = some t → t.value? p = some v →
          ∃ t', vars.get? i = some t' ∧ t'.value? p = some v := by
  obtain ⟨path, hpath, hlogs⟩ := iterate_logs hsolve
  rw [List.nil_append] at hpath
  subst hpath
  have hreplay := hlogs.replay_eq
  refine ⟨fun i t ht => ?_, fun i hi hfree => ?_, fun before after hsplit => ?_⟩
  · obtain ⟨t', ht', hgrow⟩ := (solution_growsTo hsolve).get?_grows ht
    exact ⟨t', ht', hgrow.appends⟩
  · obtain ⟨t, ht⟩ := solution_bound hsolve hi
    obtain ⟨before, step, after, source, s, s', hsplit, hbinding, hs', hgrow, hgrow'⟩ :=
      Variables.exists_binding_step hreplay hfree ht
    rw [hsplit] at hreplay
    exact ⟨before, step, after, source, s, s', t, hsplit, hbinding,
      fun other hother => Variables.binding_step_unique hreplay hbinding.effect_eq hother, hs', ht,
      hgrow'.appends, hgrow.appends⟩
  · rw [hsplit, Variables.replay?, List.foldlM_append] at hreplay
    obtain ⟨vars, hbefore, -⟩ := Option.bind_eq_some_iff.1 hreplay
    refine ⟨vars, hbefore, fun i t p v ht hv => ?_⟩
    obtain ⟨t', ht', hgrow⟩ := (Variables.learns_replay hbefore).growsTo.get?_grows ht
    exact ⟨t', ht', hgrow.value? hv⟩

/-- In the metric shape, the image keeps that it is not compact although it is mapped onto. -/
theorem metricShape_only_adds :
    ∃ solution, metricShape.solve {} = .ok solution ∧
      (∃ t, solution.vars.get? 2 = some t ∧
        (Ty.topology (.basic "real") (.ofList [(.compact, false)])).Appends t) ∧
      ∃ before step after source s s' t, solution.path = before ++ step :: after ∧
        metricShape.vars.BindingStep metricShape.goals before step 1 source s ∧
        (∀ other ∈ before ++ after, other.effect ≠ .bound 1) ∧
        solution.vars.get? source = some s' ∧ solution.vars.get? 1 = some t ∧
        s.Appends s' ∧ s.Appends t := by
  obtain ⟨solution, hsolve⟩ : ∃ solution, metricShape.solve {} = .ok solution := ⟨_, by cbv⟩
  obtain ⟨hkept, hbound, -⟩ := solution_only_adds hsolve
  exact ⟨solution, hsolve, hkept 2 _ rfl, hbound 1 (by decide) rfl⟩

end GoalSystem

end SpaceTypes
