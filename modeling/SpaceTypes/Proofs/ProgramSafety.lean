import SpaceTypes.Proofs.Errors
import SpaceTypes.Proofs.Accepted
import SpaceTypes.Refinement

/-!
# Programs do not crash

Some uses of the tables cannot be answered, not even with an error that a user is told: a variable
that does not exist, a bound variable that is bound again, or a check that is given up at a failure.
No program runs into them, whatever is wrong with it, as long as failures are to be reported and not
to abort (`isCrash_of_checkProgram`). Collecting gives out numbers and uses no others, so inference
has no faults (`GoalSystem.solve_isFault`), and the errors of the other steps are of other kinds.
-/

namespace SpaceTypes

open Declaration

variable {ρ : Type}

/-- The error is not one that a user is told: a fault of the variables, or a check given up. -/
def ProgramError.isCrash : ProgramError → Bool
  | inference error => error.isFault
  | aborted _ => true
  | _ => false

/-! ## Collecting -/

namespace Collection

variable {c c' : Collection ρ} {error : ProgramError}

theorem isCrash_of_declare {d : Declaration} (h : c.declare d = (c', some error)) :
    error.isCrash = false := by
  rw [declare_eq] at h
  cases he : d.signature? with
  | none => simp [he] at h
  | some e =>
    simp only [he, declareName, Prod.mk.injEq] at h
    obtain ⟨-, herror⟩ := h
    split at herror
    · cases herror
      rfl
    · cases herror

theorem isCrash_of_declareAll {items : List Scoped} (h : c.declareAll items = (c', some error)) :
    error.isCrash = false := by
  induction items generalizing c with
  | nil => cases h
  | cons item rest ih =>
    rw [declareAll] at h
    split at h
    case h_1 hdeclare =>
      cases h
      exact isCrash_of_declare hdeclare
    case h_2 => exact ih h

theorem isCrash_of_lookup {name : String} (h : c.lookup name = .error error) :
    error.isCrash = false := by
  unfold lookup at h
  split at h
  · cases h
  · cases h
    rfl

theorem isCrash_of_lookupAll {names : List String} (h : c.lookupAll names = .error error) :
    error.isCrash = false := by
  induction names with
  | nil => cases h
  | cons name rest ih =>
    rcases bind_eq_error_iff.1 h with hname | ⟨_, -, hrest⟩
    · exact isCrash_of_lookup hname
    · exact ih hrest

theorem isCrash_of_addDeclaration {scope : Option String} {d : Declaration}
    (h : c.addDeclaration scope d = .error error) : error.isCrash = false := by
  cases d with
  | space name type body => cases h
  | shape name type body =>
    rcases bind_eq_error_iff.1 h with hname | ⟨_, -, htail⟩
    · exact isCrash_of_lookup hname
    · cases scope with
      | none => cases htail
      | some outer =>
        rcases bind_eq_error_iff.1 htail with houter | ⟨_, -, hend⟩
        · exact isCrash_of_lookup houter
        · cases type <;> cases hend
  | mapping name kind source target =>
    rcases bind_eq_error_iff.1 h with hkind | ⟨_, -, htail⟩
    · obtain ⟨e, -, rfl⟩ := mapError_eq_error_iff.1 hkind
      rfl
    · rcases bind_eq_error_iff.1 htail with hsource | ⟨_, -, htail⟩
      · exact isCrash_of_lookup hsource
      · rcases bind_eq_error_iff.1 htail with htarget | ⟨_, -, hend⟩
        · exact isCrash_of_lookup htarget
        · cases hend
  | property name value =>
    cases scope with
    | none =>
      cases h
      rfl
    | some outer =>
      rcases bind_eq_error_iff.1 h with houter | ⟨_, -, htail⟩
      · exact isCrash_of_lookup houter
      · rcases bind_eq_error_iff.1 htail with hname | ⟨_, -, hend⟩
        · obtain ⟨e, -, rfl⟩ := mapError_eq_error_iff.1 hname
          rfl
        · cases hend
  | invariant claim =>
    rcases bind_eq_error_iff.1 h with hnames | ⟨_, -, hend⟩
    · exact isCrash_of_lookupAll hnames
    · cases hend

theorem isCrash_of_addAll {items : List Scoped} (h : c.addAll items = (c', some error)) :
    error.isCrash = false := by
  induction items generalizing c with
  | nil => cases h
  | cons item rest ih =>
    rw [addAll] at h
    split at h
    case h_1 hadd =>
      cases h
      exact isCrash_of_addDeclaration hadd
    case h_2 => exact ih h

theorem isCrash_of_collect {config : Config} {program : List Declaration}
    (h : c.collect config program = (c', some error)) : error.isCrash = false := by
  unfold collect at h
  rcases hdeclare : c.declareAll (flattenAll none program) with ⟨mid, _ | e⟩
  · rcases hadd : mid.addAll (flattenAll none program) with ⟨last, _ | e⟩
    · simp [hdeclare, hadd] at h
    · simp only [hdeclare, hadd] at h
      cases h
      exact isCrash_of_addAll hadd
  · simp only [hdeclare] at h
    cases h
    exact isCrash_of_declareAll hdeclare

end Collection

/-- Binding a variable that was just made is no fault, and it has its name. -/
theorem Variables.assign_spawn (vars : Variables ρ) (name : String) (t : Ty ρ) :
    (vars.spawn name none).assign vars.size t = (none, vars.spawn name (some t)) ∧
      ∀ binding, (vars.spawn name binding).name vars.size = .ok name := by
  constructor
  · simp [assign, spawn, size, get?, put, List.modify_eq_take_cons_drop]
  · simp [Variables.name, name?, spawn, size]

/-! ## Checking -/

variable [Meaning ρ] [DecidableEq ρ] {config : Config} {program : List Declaration}
  {error : ProgramError}

theorem isCrash_of_inferProgram
    (h : (inferProgram config program : Except _ (Inferred ρ)) = .error error) :
    error.isCrash = false := by
  unfold inferProgram at h
  split at h
  case h_1 hcollect =>
    cases h
    exact Collection.isCrash_of_collect hcollect
  case h_2 c hcollect =>
    rcases bind_eq_error_iff.1 h with hsolve | ⟨_, -, hend⟩
    · obtain ⟨e, hfailed, rfl⟩ := mapError_eq_error_iff.1 hsolve
      exact GoalSystem.solve_isFault
        (fun goal => (Collection.collected_of_collect hcollect).subjects_lt_size) hfailed
    · cases hend

theorem isCrash_of_checkProgram (hreporting : config.reporting ≠ .abort)
    (h : (checkProgram config program : Except _ (Checked ρ)) = .error error) :
    error.isCrash = false := by
  rcases bind_eq_error_iff.1 h with hinfer | ⟨inferred, hinfer, hverify⟩
  · exact isCrash_of_inferProgram hinfer
  · obtain ⟨c, solution, -, hsolved, rfl⟩ := solved_of_inferProgram hinfer
    obtain ⟨env, henv⟩ := hsolved.toEnvironment_ok
    obtain ⟨e, -, rfl⟩ := (Inferred.verify_eq_error_iff hreporting henv).1 hverify
    rfl

/-- If all variables of the goals exist, inference has no faults. Every program has a result or
ends with an error that is no crash, unless failures are to abort. -/
theorem checkProgram_crash_free :
    (∀ (config : Config) (system : GoalSystem ρ),
      (∀ goal ∈ system.goals, ∀ i ∈ goal.subjects, i < system.vars.size) →
      ∀ what, system.solve config ≠ .error (.fault what)) ∧
    (∀ (config : Config) (program : List Declaration), config.reporting ≠ .abort →
      (∃ checked : Checked ρ, checkProgram config program = .ok checked) ∨
      ∃ error, (checkProgram config program : Except _ (Checked ρ)) = .error error ∧
        error.isCrash = false) ∧
    ∀ (vars : Variables ρ) (name : String) (t : Ty ρ),
      (vars.spawn name none).assign vars.size t = (none, vars.spawn name (some t)) ∧
      ∀ binding, (vars.spawn name binding).name vars.size = .ok name := by
  refine ⟨fun config system hrange what hsolve => ?_, fun config program hreporting => ?_,
    Variables.assign_spawn⟩
  · cases GoalSystem.solve_isFault hrange hsolve
  · cases hcheck : (checkProgram config program : Except _ (Checked ρ)) with
    | ok checked => exact Or.inl ⟨checked, rfl⟩
    | error error => exact Or.inr ⟨error, rfl, isCrash_of_checkProgram hreporting hcheck⟩

/-- A shape of a number that should be compact. -/
def compactNumber : List Declaration :=
  [.space "number" (.basic "int") [.shape "copy" none [.property "compact" true]]]

/-- The same as variables and goals. -/
def compactNumberGoals : GoalSystem Refinement where
  vars := ⟨[⟨"number", some (.basic "int")⟩, ⟨"copy", none⟩]⟩
  goals := [.sameAs 1 0, .property 1 (.topology .compact) true]

theorem compactNumber_crash_free :
    (∀ goal ∈ compactNumberGoals.goals, ∀ i ∈ goal.subjects, i < compactNumberGoals.vars.size) ∧
    (∀ what, compactNumberGoals.solve {} ≠ .error (.fault what)) ∧
    ∃ error, (checkProgram {} compactNumber : Except _ (Checked Refinement)) = .error error ∧
      error.isCrash = false := by
  have hrange : ∀ goal ∈ compactNumberGoals.goals, ∀ i ∈ goal.subjects,
      i < compactNumberGoals.vars.size := by
    decide
  have hnone : (checkProgram {} compactNumber : Except _ (Checked Refinement)).toOption = none := by
    decide +kernel
  refine ⟨hrange, checkProgram_crash_free.1 {} compactNumberGoals hrange, ?_⟩
  refine (checkProgram_crash_free.2.1 {} compactNumber fun h => by cases h).resolve_left ?_
  rintro ⟨checked, hcheck⟩
  rw [hcheck] at hnone
  cases hnone

-- a number that is out of range is a fault
example : ({ compactNumberGoals with goals := [.sameAs 2 0] } : GoalSystem Refinement).solve {} =
    .error (.fault (.outOfRange 2 2)) := by
  rfl

end SpaceTypes
