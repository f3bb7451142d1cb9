import SpaceTypes.Proofs.Soundness

/-!
# Errors of inference

Goals speak of variables by their numbers. A number that is not in the table has no name and cannot
be bound, and a variable that has a type cannot be bound again; these are faults of the table, not
answers. Error messages name the variables that they are about, so that every error is a possible
fault too.

The operations look at a variable before they use it, and no goal changes the number of variables.
So an error of a goal is a contradiction between demands, never for want of information, and it is
a fault only if the goal is about a variable that does not exist (`Goal.rejects_of_apply`). If all
variables of the goals exist, inference has no faults (`GoalSystem.solve_isFault`).
-/

namespace SpaceTypes

variable {ρ : Type}

namespace Variables

variable {vars mid : Variables ρ} {i : Nat} {subjects : List Nat} {e : InferenceError}

/-- Operations on the variables of the given numbers may end with the error. -/
structure Rejects (vars : Variables ρ) (subjects : List Nat) (e : InferenceError) : Prop where
  /-- The error is not for want of information. -/
  isIncomplete_eq : e.isIncomplete = false
  /-- It is not a fault if the variables exist. -/
  isFault_eq : (∀ i ∈ subjects, i < vars.size) → e.isFault = false

namespace Rejects

/-- An error that is neither for want of information nor a fault is about the demands. -/
theorem of_contradiction (hincomplete : e.isIncomplete = false) (hfault : e.isFault = false) :
    vars.Rejects subjects e :=
  ⟨hincomplete, fun _ => hfault⟩

theorem mono (h : vars.Rejects subjects e) {subjects' : List Nat} (hsub : subjects ⊆ subjects') :
    vars.Rejects subjects' e :=
  ⟨h.isIncomplete_eq, fun hrange => h.isFault_eq fun i hi => hrange i (hsub hi)⟩

theorem of_mem (h : vars.Rejects [i] e) (hi : i ∈ subjects) : vars.Rejects subjects e :=
  h.mono (List.cons_subset.2 ⟨hi, List.nil_subset subjects⟩)

theorem of_size_eq (h : mid.Rejects subjects e) (hsize : mid.size = vars.size) :
    vars.Rejects subjects e :=
  ⟨h.isIncomplete_eq, fun hrange => h.isFault_eq fun i hi => hsize ▸ hrange i hi⟩

end Rejects

/-! ## Names and types by number -/

theorem name_eq_ok (h : i < vars.size) : ∃ name, vars.name i = .ok name := by
  have hlt : i < vars.entries.length := h
  exact ⟨vars.entries[i].name, by simp [name, name?, List.getElem?_eq_getElem hlt]⟩

/-- The lack of a name is a fault, which only a variable that does not exist can have. -/
theorem rejects_of_name {what : VariableFault} (h : vars.name i = .error what) :
    vars.Rejects [i] (.fault what) := by
  refine ⟨rfl, fun hrange => ?_⟩
  obtain ⟨name, hname⟩ := name_eq_ok (hrange i List.mem_cons_self)
  rw [h] at hname
  cases hname

theorem rejects_blame (hi : i ∈ subjects) {error : String → InferenceError}
    (herror : ∀ name, vars.Rejects subjects (error name)) :
    vars.Rejects subjects (vars.blame i error) := by
  unfold blame
  split
  case h_1 name _ => exact herror name
  case h_2 what hname => exact (rejects_of_name hname).of_mem hi

/-- A free variable can be bound, if it exists. -/
theorem rejects_of_assign {t : Ty ρ} {what : VariableFault} (hfree : vars.get? i = none)
    (h : vars.assign i t = (some what, mid)) : vars.Rejects [i] (.fault what) := by
  refine ⟨rfl, fun hrange => ?_⟩
  have hlt : ¬vars.size ≤ i := Nat.not_le.2 (hrange i List.mem_cons_self)
  simp [assign, hlt, hfree] at h

/-! ## Operations -/

theorem rejects_of_require {p : Property} {v : Bool} (h : vars.require i p v = .error e) :
    vars.Rejects [i] e := by
  unfold require at h
  split at h
  case h_1 what hname =>
    cases h
    exact rejects_of_name hname
  case h_2 name hname =>
    split at h
    · cases h
    · split at h
      · split at h
        · cases h
        · split at h
          · cases h
          · cases h
            exact .of_contradiction rfl rfl
      · cases h
        exact .of_contradiction rfl rfl

theorem rejects_of_requireAll {demands : List (Property × Bool)}
    (h : vars.requireAll i demands = .error e) : vars.Rejects [i] e := by
  induction demands generalizing vars with
  | nil => cases h
  | cons first rest ih =>
    rcases bind_eq_error_iff.1 h with hfirst | ⟨⟨mid, effects⟩, hfirst, htail⟩
    · exact rejects_of_require hfirst
    · rcases bind_eq_error_iff.1 htail with hrest | ⟨_, -, hend⟩
      · exact (ih hrest).of_size_eq (size_of_require hfirst)
      · cases hend

theorem rejects_of_fill {p : TopologyProperty} (h : vars.fill i p = .error e) :
    vars.Rejects [i] e := by
  unfold fill at h
  split at h
  · cases h
  · exact rejects_of_require h

theorem size_of_fill {p : TopologyProperty} {effects : List Effect}
    (h : vars.fill i p = .ok (mid, effects)) : mid.size = vars.size := by
  unfold fill at h
  split at h
  · cases h
    rfl
  · exact size_of_require h

theorem rejects_of_fillAll {properties : List TopologyProperty}
    (h : vars.fillAll i properties = .error e) : vars.Rejects [i] e := by
  induction properties generalizing vars with
  | nil => cases h
  | cons first rest ih =>
    rcases bind_eq_error_iff.1 h with hfirst | ⟨⟨mid, effects⟩, hfirst, htail⟩
    · exact rejects_of_fill hfirst
    · rcases bind_eq_error_iff.1 htail with hrest | ⟨_, -, hend⟩
      · exact (ih hrest).of_size_eq (size_of_fill hfirst)
      · cases hend

theorem rejects_of_expectTopology {t : Ty ρ} (h : vars.expectTopology i t = .error e) :
    vars.Rejects [i] e := by
  unfold expectTopology at h
  split at h
  · cases h
  · cases h
    exact rejects_blame List.mem_cons_self fun name => .of_contradiction rfl rfl

theorem rejects_of_checkConsistent (h : vars.checkConsistent = .error e) :
    vars.Rejects [] e := by
  unfold checkConsistent at h
  split at h
  · cases h
    exact .of_contradiction rfl rfl
  · cases h

end Variables

/-! ## Goals and passes -/

variable [Meaning ρ] [DecidableEq ρ] {h : Hierarchy} {vars vars' : Variables ρ}
  {e : InferenceError}

/-- A goal fails with a contradiction, or with a fault if it is about a variable that does not
exist. -/
theorem Goal.rejects_of_apply {goal : Goal} (happly : goal.apply h vars = .error e) :
    vars.Rejects goal.subjects e := by
  cases goal with
  | sameAs var source =>
    have hvar : var ∈ [var, source] := List.mem_cons_self
    have hsource : source ∈ [var, source] := by simp
    simp only [apply, Variables.applySameAs] at happly
    split at happly
    · cases happly
    · split at happly
      case h_1 hfree =>
        split at happly
        case h_1 hassign =>
          cases happly
          exact (Variables.rejects_of_assign hfree hassign).of_mem hvar
        case h_2 => cases happly
      case h_2 =>
        split at happly
        · exact (Variables.rejects_of_requireAll happly).of_mem hvar
        · cases happly
          exact Variables.rejects_blame hvar fun _ => Variables.rejects_blame hsource fun _ =>
            .of_contradiction rfl rfl
  | subtype sub sup =>
    simp only [apply, Variables.applySubtype] at happly
    split at happly
    · split at happly
      · cases happly
      · cases happly
        exact Variables.rejects_blame (by simp [subjects]) fun _ =>
          Variables.rejects_blame (by simp [subjects]) fun _ => .of_contradiction rfl rfl
    · cases happly
  | property var p v =>
    simp only [apply, Variables.applyProperty] at happly
    split at happly
    · cases happly
    · exact Variables.rejects_of_require happly
  | preserve source target mapping =>
    simp only [apply, Variables.applyPreserve] at happly
    split at happly
    · rcases bind_eq_error_iff.1 happly with hs | ⟨_, -, htail⟩
      · exact (Variables.rejects_of_expectTopology hs).of_mem (by simp [subjects])
      · rcases bind_eq_error_iff.1 htail with ht | ⟨_, -, hfill⟩
        · exact (Variables.rejects_of_expectTopology ht).of_mem (by simp [subjects])
        · exact (Variables.rejects_of_fillAll hfill).of_mem (by simp [subjects])
    · cases happly
  | derive var =>
    simp only [apply, Variables.applyDerive] at happly
    split at happly
    · split at happly <;> cases happly
    · cases happly

namespace GoalSystem

variable {goals : List Goal} {pass index : Nat}

theorem size_of_applyAll {steps : List Step}
    (happly : applyAll h pass index vars goals = .ok (vars', steps)) : vars'.size = vars.size := by
  obtain ⟨n, hrun, -⟩ := applyAll_run happly
  exact hrun.growsTo.size_eq

theorem rejects_of_applyAll (happly : applyAll h pass index vars goals = .error e) :
    vars.Rejects (goals.flatMap Goal.subjects) e := by
  induction goals generalizing vars index with
  | nil => cases happly
  | cons goal rest ih =>
    rw [List.flatMap_cons]
    rcases bind_eq_error_iff.1 happly with hgoal | ⟨⟨mid, effects⟩, hgoal, htail⟩
    · exact (Goal.rejects_of_apply hgoal).mono (List.subset_append_left _ _)
    · obtain ⟨n, hrun, -⟩ := Goal.apply_run hgoal
      rcases bind_eq_error_iff.1 htail with hrest | ⟨_, -, hend⟩
      · exact ((ih hrest).of_size_eq hrun.growsTo.size_eq).mono (List.subset_append_right _ _)
      · cases hend

/-! ## The whole of inference -/

/-- Inference fails in a pass, after a pass that changes nothing and leaves variables free, or later
after one that changes something. -/
theorem iterate_succ_error {remaining : Nat} {path : List Step}
    (hsolve : iterate h goals (remaining + 1) pass vars path = .error e) :
    vars.Rejects (goals.flatMap Goal.subjects) e ∨
    (Settled h goals vars ∧ vars.freeNames ≠ [] ∧ e = .unresolved vars.freeNames) ∨
    ∃ mid steps, steps ≠ [] ∧ applyAll h pass 0 vars goals = .ok (mid, steps) ∧
      iterate h goals remaining (pass + 1) mid (path ++ steps) = .error e := by
  rcases bind_eq_error_iff.1 hsolve with hpass | ⟨⟨mid, steps⟩, hpass, htail⟩
  · exact Or.inl (rejects_of_applyAll hpass)
  · rcases bind_eq_error_iff.1 htail with hcheck | ⟨⟨⟩, -, hend⟩
    · exact Or.inl (((Variables.rejects_of_checkConsistent hcheck).of_size_eq
        (size_of_applyAll hpass)).mono (List.nil_subset _))
    · cases steps with
      | nil =>
        obtain ⟨rfl, hsettled⟩ := settled_of_applyAll hpass
        change conclude mid path = _ at hend
        unfold conclude at hend
        split at hend
        case isTrue => cases hend
        case isFalse hfree =>
          cases hend
          exact Or.inr (Or.inl ⟨hsettled, by simpa using hfree, rfl⟩)
      | cons step later =>
        exact Or.inr (Or.inr ⟨mid, step :: later, List.cons_ne_nil _ _, hpass, hend⟩)

/-- Inference ends with an error of a pass, with the names of free variables, or for want of
passes. -/
theorem iterate_error_cases {remaining : Nat} {path : List Step}
    (hsolve : iterate h goals remaining pass vars path = .error e) :
    e.isIncomplete = true ∨ vars.Rejects (goals.flatMap Goal.subjects) e := by
  induction remaining generalizing pass vars path with
  | zero =>
    cases hsolve
    exact Or.inl rfl
  | succ remaining ih =>
    rcases iterate_succ_error hsolve with hrejects | ⟨-, -, rfl⟩ | ⟨mid, steps, -, hpass, hrest⟩
    · exact Or.inr hrejects
    · exact Or.inl rfl
    · exact (ih hrest).imp_right fun hrejects => hrejects.of_size_eq (size_of_applyAll hpass)

/-- If all variables of the goals exist, inference has no faults: it never binds a variable that is
bound, and never uses a number that is out of range. -/
theorem solve_isFault {config : Config} {system : GoalSystem ρ}
    (hrange : ∀ goal ∈ system.goals, ∀ i ∈ goal.subjects, i < system.vars.size)
    (hsolve : system.solve config = .error e) : e.isFault = false := by
  rcases iterate_error_cases hsolve with hincomplete | hrejects
  · cases e with
    | notConverged | unresolved => rfl
    | _ => cases hincomplete
  · refine hrejects.isFault_eq fun i hi => ?_
    obtain ⟨goal, hgoal, hi⟩ := List.mem_flatMap.1 hi
    exact hrange goal hgoal i hi

end GoalSystem

end SpaceTypes
