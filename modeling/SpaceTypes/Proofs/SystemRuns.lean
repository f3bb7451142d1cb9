import SpaceTypes.Constraint.System
import SpaceTypes.Proofs.Moves
import SpaceTypes.Proofs.Reporting

/-!
# Systems of constraints in use

A system is filled, checked and verified in any order, and it remembers the failures of the last
time it was verified. Constraints that are added afterwards are not looked at until the next time,
and where failures abort, a verification that is given up must not touch what was remembered.

The calls act on a system in place (`ConstraintSystem.Call.perform`): whatever was changed before a
call is given up stays changed. After any calls on a new system, what it remembers is what the last
completed verification found among the constraints of that moment, and each check gives one verdict
on each constraint that was added (`ConstraintSystem.Accounted`).
-/

namespace SpaceTypes

/-- What the check of the constraint came to. -/
def Verdict.outcome (verdict : Verdict) : Outcome :=
  match verdict.failure? with
  | none => .holds
  | some failure => .fails failure

theorem Verdict.passed_iff {verdict : Verdict} :
    verdict.passed = true ↔ verdict.outcome = .holds := by
  unfold Verdict.passed Verdict.outcome
  cases verdict.failure? <;> simp

theorem Verdict.failure?_eq_some_iff {verdict : Verdict} {failure : Failure} :
    verdict.failure? = some failure ↔ verdict.outcome = .fails failure := by
  unfold Verdict.outcome
  cases verdict.failure? <;> simp

namespace ConstraintSystem

variable {ρ : Type}

/-! ## Verdicts -/

section

variable [Meaning ρ] [DecidableEq ρ] {ctx : Context} {index : Nat}

/-- The verdict on the entry at a position. -/
structure Judges (ctx : Context) (index : Nat) (entry : Entry ρ) (verdict : Verdict) : Prop where
  /-- It has the position. -/
  index_eq : verdict.index = index
  /-- It has the name of the entry, or else the operands of the constraint. -/
  subject_eq : verdict.subject = entry.label.getD entry.constraint.describe
  /-- It has the kind of the constraint. -/
  kind_eq : verdict.kind = entry.constraint.kind
  /-- It says what the check of the constraint came to. -/
  outcome_eq : verdict.outcome = entry.constraint.check ctx

theorem Judges.passed_eq {entry : Entry ρ} {verdict : Verdict}
    (h : Judges ctx index entry verdict) : verdict.passed = entry.constraint.verify ctx := by
  rw [Bool.eq_iff_iff, Verdict.passed_iff, h.outcome_eq, Constraint.check_eq_holds_iff]

/-- An entry gets a verdict if its check is not given up. -/
theorem exists_judges_iff {entry : Entry ρ} :
    (∃ verdict, Judges ctx index entry verdict) ↔ ¬(entry.constraint.check ctx).IsAbort := by
  constructor
  · rintro ⟨verdict, hjudges⟩
    rw [← hjudges.outcome_eq, Verdict.outcome]
    cases verdict.failure? <;> exact id
  · intro habort
    cases hcheck : entry.constraint.check ctx with
    | holds => exact ⟨⟨index, _, _, none⟩, rfl, rfl, rfl, hcheck.symm⟩
    | fails failure => exact ⟨⟨index, _, _, some failure⟩, rfl, rfl, rfl, hcheck.symm⟩
    | aborts failure =>
      rw [hcheck] at habort
      exact absurd trivial habort

theorem checkEntries_cons_of_judges {entry : Entry ρ} {verdict : Verdict}
    (h : Judges ctx index entry verdict) (rest : List (Entry ρ)) :
    checkEntries ctx index (entry :: rest) = (do
      let later ← checkEntries ctx (index + 1) rest
      return verdict :: later) := by
  obtain ⟨_, _, _, failure?⟩ := verdict
  obtain ⟨rfl, rfl, rfl, houtcome⟩ := h
  rw [checkEntries, ← houtcome]
  cases failure? <;> rfl

/-- The first entry gets a verdict, and the others are looked at after it. -/
theorem checkEntries_cons_eq_ok_iff {entry : Entry ρ} {rest : List (Entry ρ)}
    {verdicts : List Verdict} :
    checkEntries ctx index (entry :: rest) = .ok verdicts ↔
      ∃ first later, Judges ctx index entry first ∧
        checkEntries ctx (index + 1) rest = .ok later ∧ first :: later = verdicts := by
  constructor
  · intro h
    have hjudged : ∃ first, Judges ctx index entry first := by
      refine exists_judges_iff.2 fun habort => ?_
      cases hcheck : entry.constraint.check ctx with
      | aborts failure =>
        rw [checkEntries, hcheck] at h
        cases h
      | _ =>
        rw [hcheck] at habort
        exact habort
    obtain ⟨first, hjudges⟩ := hjudged
    rw [checkEntries_cons_of_judges hjudges] at h
    obtain ⟨later, hrest, hend⟩ := bind_eq_ok_iff.1 h
    exact ⟨first, later, hjudges, hrest, Except.ok.inj hend⟩
  · rintro ⟨first, later, hjudges, hrest, rfl⟩
    rw [checkEntries_cons_of_judges hjudges]
    exact bind_eq_ok_iff.2 ⟨later, hrest, rfl⟩

/-- There are verdicts if no check is given up. -/
theorem checkEntries_ok_iff {entries : List (Entry ρ)} :
    (∃ verdicts, checkEntries ctx index entries = .ok verdicts) ↔
      ∀ entry ∈ entries, ¬(entry.constraint.check ctx).IsAbort := by
  induction entries generalizing index with
  | nil => simp [checkEntries]
  | cons entry rest ih =>
    rw [List.forall_mem_cons]
    constructor
    · rintro ⟨verdicts, h⟩
      obtain ⟨first, later, hjudges, hrest, -⟩ := checkEntries_cons_eq_ok_iff.1 h
      exact ⟨exists_judges_iff.1 ⟨first, hjudges⟩, ih.1 ⟨later, hrest⟩⟩
    · rintro ⟨hfirst, hrest⟩
      obtain ⟨first, hjudges⟩ : ∃ first, Judges ctx index entry first :=
        exists_judges_iff.2 hfirst
      obtain ⟨later, hlater⟩ : ∃ later, checkEntries ctx (index + 1) rest = .ok later :=
        ih.2 hrest
      exact ⟨_, checkEntries_cons_eq_ok_iff.2 ⟨first, later, hjudges, hlater, rfl⟩⟩

/-- The verdicts on the first entries do not depend on those that come after them. -/
theorem checkEntries_prefix {entries more : List (Entry ρ)} {verdicts : List Verdict}
    (h : checkEntries ctx index (entries ++ more) = .ok verdicts) :
    ∃ first, checkEntries ctx index entries = .ok first ∧ first <+: verdicts := by
  induction entries generalizing index verdicts with
  | nil => exact ⟨[], rfl, List.nil_prefix⟩
  | cons entry rest ih =>
    obtain ⟨first, later, hjudges, hrest, rfl⟩ := checkEntries_cons_eq_ok_iff.1 h
    obtain ⟨rest', hrest', hprefix⟩ := ih hrest
    exact ⟨first :: rest', checkEntries_cons_eq_ok_iff.2 ⟨first, rest', hjudges, hrest', rfl⟩,
      List.cons_prefix_cons.2 ⟨rfl, hprefix⟩⟩

/-- Each entry gets its verdict, in order. -/
theorem judges_of_checkEntries {entries : List (Entry ρ)} {verdicts : List Verdict}
    (h : checkEntries ctx index entries = .ok verdicts) :
    verdicts.length = entries.length ∧ ∀ i entry, entries[i]? = some entry →
      ∃ verdict, verdicts[i]? = some verdict ∧ Judges ctx (index + i) entry verdict := by
  induction entries generalizing index verdicts with
  | nil =>
    cases h
    simp
  | cons entry rest ih =>
    obtain ⟨first, later, hjudges, hrest, rfl⟩ := checkEntries_cons_eq_ok_iff.1 h
    obtain ⟨hlength, hlater⟩ := ih hrest
    refine ⟨congrArg (· + 1) hlength, fun i entry' hi => ?_⟩
    cases i with
    | zero =>
      cases hi
      exact ⟨first, rfl, hjudges⟩
    | succ i =>
      obtain ⟨verdict, hverdict, hjudges'⟩ := hlater i entry' hi
      rw [Nat.add_right_comm, Nat.add_assoc] at hjudges'
      exact ⟨verdict, hverdict, hjudges'⟩

/-- If all verdicts are good, every constraint holds. -/
theorem check_of_passed {entries : List (Entry ρ)} {verdicts : List Verdict}
    (hcheck : checkEntries ctx index entries = .ok verdicts)
    (hpassed : verdicts.all Verdict.passed = true) :
    ∀ entry ∈ entries, entry.constraint.check ctx = .holds := by
  intro entry hmem
  obtain ⟨i, hi⟩ := List.mem_iff_getElem?.1 hmem
  obtain ⟨verdict, hverdict, hjudges⟩ := (judges_of_checkEntries hcheck).2 i entry hi
  rw [← hjudges.outcome_eq, ← Verdict.passed_iff]
  exact List.all_eq_true.1 hpassed verdict (List.mem_of_getElem? hverdict)

/-- The report has a verdict on each of the entries, and nothing else. -/
structure Covers (ctx : Context) (entries : List (Entry ρ)) (report : Report) : Prop where
  /-- There are as many verdicts as entries. -/
  length_eq : report.verdicts.length = entries.length
  /-- The verdict on an entry stands at its position. -/
  judges : ∀ i entry, entries[i]? = some entry →
    ∃ verdict, report.verdicts[i]? = some verdict ∧ Judges ctx i entry verdict
  /-- As many verdicts are bad as constraints do not hold. -/
  failed_eq : report.failed.length = entries.countP fun entry => !entry.constraint.verify ctx

/-- The failures are those of the entries whose checks fail, in the order of their positions. -/
structure Lists (ctx : Context) (entries : List (Entry ρ)) (failures : List (Nat × Failure)) :
    Prop where
  /-- They are what the checks of the entries at their positions fail with. -/
  mem_iff : ∀ i failure, (i, failure) ∈ failures ↔
    ∃ entry, entries[i]? = some entry ∧ entry.constraint.check ctx = .fails failure
  /-- The positions strictly increase. -/
  increasing : (failures.map Prod.fst).Pairwise (· < ·)

variable {system : ConstraintSystem ρ} {report : Report}

theorem checkEntries_of_check (h : system.check = .ok report) :
    checkEntries system.context 0 system.entries = .ok report.verdicts := by
  obtain ⟨verdicts, hverdicts, hend⟩ := bind_eq_ok_iff.1 h
  cases hend
  exact hverdicts

theorem judges_of_check (h : system.check = .ok report) {i : Nat} {entry : Entry ρ}
    (hi : system.entries[i]? = some entry) :
    ∃ verdict, report.verdicts[i]? = some verdict ∧ Judges system.context i entry verdict := by
  have hjudges := (judges_of_checkEntries (checkEntries_of_check h)).2 i entry hi
  rwa [Nat.zero_add] at hjudges

/-- Conversely, each verdict is on an entry. -/
theorem exists_entry_of_check (h : system.check = .ok report) {i : Nat} {verdict : Verdict}
    (hi : report.verdicts[i]? = some verdict) :
    ∃ entry, system.entries[i]? = some entry ∧ Judges system.context i entry verdict := by
  have hlt : i < system.entries.length := by
    rw [← (judges_of_checkEntries (checkEntries_of_check h)).1]
    exact (List.getElem?_eq_some_iff.1 hi).1
  have hentry := List.getElem?_eq_getElem hlt
  obtain ⟨verdict', hi', hjudges⟩ := judges_of_check h hentry
  rw [hi] at hi'
  cases hi'
  exact ⟨_, hentry, hjudges⟩

theorem covers_of_check (h : system.check = .ok report) :
    Covers system.context system.entries report := by
  have hlength := (judges_of_checkEntries (checkEntries_of_check h)).1
  refine ⟨hlength, fun i entry hi => judges_of_check h hi, ?_⟩
  have hpassed : report.verdicts.map Verdict.passed =
      system.entries.map fun entry => entry.constraint.verify system.context := by
    apply List.ext_getElem?
    intro i
    rw [List.getElem?_map, List.getElem?_map]
    cases hi : system.entries[i]? with
    | none =>
      have hnone : report.verdicts[i]? = none := by
        rwa [List.getElem?_eq_none_iff, hlength, ← List.getElem?_eq_none_iff]
      rw [hnone]
      rfl
    | some entry =>
      obtain ⟨verdict, hverdict, hjudges⟩ := judges_of_check h hi
      rw [hverdict, Option.map_some, hjudges.passed_eq, Option.map_some]
  calc report.failed.length = report.verdicts.countP fun verdict => !verdict.passed := by
        rw [Report.failed, ← List.countP_eq_length_filter]
    _ = (report.verdicts.map Verdict.passed).countP (!·) := by rw [List.countP_map]; rfl
    _ = system.entries.countP fun entry => !entry.constraint.verify system.context := by
        rw [hpassed, List.countP_map]; rfl

theorem lists_of_check (h : system.check = .ok report) :
    Lists system.context system.entries report.failures := by
  constructor
  · intro i failure
    simp only [Report.failures, List.mem_filterMap, Option.map_eq_some_iff, Prod.mk.injEq]
    constructor
    · rintro ⟨verdict, hmem, _, hfailure, rfl, rfl⟩
      obtain ⟨j, hj⟩ := List.mem_iff_getElem?.1 hmem
      obtain ⟨entry, hentry, hjudges⟩ := exists_entry_of_check h hj
      refine ⟨entry, by rw [hjudges.index_eq, hentry], ?_⟩
      rw [← hjudges.outcome_eq, Verdict.failure?_eq_some_iff.1 hfailure]
    · rintro ⟨entry, hentry, hcheck⟩
      obtain ⟨verdict, hverdict, hjudges⟩ := judges_of_check h hentry
      rw [← hjudges.outcome_eq] at hcheck
      exact ⟨verdict, List.mem_of_getElem? hverdict, failure,
        Verdict.failure?_eq_some_iff.2 hcheck, hjudges.index_eq, rfl⟩
  · rw [List.pairwise_map, Report.failures, List.pairwise_filterMap]
    refine List.pairwise_iff_getElem.2 fun i j hi hj hij => ?_
    obtain ⟨_, -, hjudges⟩ := exists_entry_of_check h (List.getElem?_eq_getElem hi)
    obtain ⟨_, -, hjudges'⟩ := exists_entry_of_check h (List.getElem?_eq_getElem hj)
    intro e he e' he'
    obtain ⟨_, -, rfl⟩ := Option.map_eq_some_iff.1 he
    obtain ⟨_, -, rfl⟩ := Option.map_eq_some_iff.1 he'
    rw [hjudges.index_eq, hjudges'.index_eq]
    exact hij

/-- A check is given up if failures abort and some constraint does not hold. -/
theorem check_error_iff (system : ConstraintSystem ρ) :
    (∃ failure, system.check = .error failure) ↔ system.context.reporting = .abort ∧
      ∃ entry ∈ system.entries, entry.constraint.verify system.context = false := by
  have hok : (∃ failure, system.check = .error failure) ↔
      ¬∃ verdicts, checkEntries system.context 0 system.entries = .ok verdicts := by
    unfold check
    cases checkEntries system.context 0 system.entries <;>
      simp [bind, Except.bind, pure, Except.pure]
  rw [hok, checkEntries_ok_iff]
  simp only [Constraint.isAbort_check_iff]
  constructor
  · intro hnot
    simp only [not_forall, not_not] at hnot
    obtain ⟨entry, hmem, habort, hfails⟩ := hnot
    exact ⟨habort, entry, hmem, hfails⟩
  · rintro ⟨habort, entry, hmem, hfails⟩ hnone
    exact hnone entry hmem ⟨habort, hfails⟩

end

/-! ## Calls -/

/-- A call on a system. -/
inductive Call (ρ : Type) where
  /-- Adds a constraint. -/
  | add (label : Option String) (constraint : Constraint ρ)
  /-- Checks all constraints. -/
  | check
  /-- Checks all constraints, and remembers the failures. -/
  | verifyAll

/-- What a call gives back. -/
inductive Answer where
  /-- The position of the constraint that was added. -/
  | position (index : Nat)
  /-- The verdicts. -/
  | verdicts (report : Report)
  /-- Whether all constraints hold. -/
  | verified (passed : Bool)

/-- Work on a system that is changed in place. When it is given up at a failure, the system is left
as it was changed until then. -/
abbrev InPlace (ρ : Type) := ExceptT Failure (StateM (ConstraintSystem ρ))

/-- The constraint that a call adds. -/
def Call.entry? : Call ρ → Option (Entry ρ)
  | add label constraint => some ⟨label, constraint⟩
  | _ => none

/-- The constraints that calls add, in order. -/
def added (calls : List (Call ρ)) : List (Entry ρ) := calls.filterMap Call.entry?

variable [Meaning ρ] [DecidableEq ρ]

/-- What a call does. -/
def Call.perform : Call ρ → InPlace ρ Answer
  | add label constraint => do
    let system ← get
    set (system.add label constraint)
    return .position system.size
  | check => do
    let report ← (← get).check
    return .verdicts report
  | verifyAll => do
    let report ← (← get).check
    modify fun system => { system with failures := report.failures }
    return .verified (← get).failures.isEmpty

/-- What a call gives back, unless it is given up, and the system that it leaves. -/
def call (system : ConstraintSystem ρ) (call : Call ρ) :
    Except Failure Answer × ConstraintSystem ρ :=
  call.perform.run.run system

/-- A new system after calls, given up or not. -/
def after (ctx : Context) (calls : List (Call ρ)) : ConstraintSystem ρ :=
  calls.foldl (fun system next => (system.call next).2) { context := ctx }

theorem call_check (system : ConstraintSystem ρ) :
    system.call .check = (system.check.map Answer.verdicts, system) := by
  -- for any way to find a report, since nothing about checks matters here
  have hrun : ∀ find : ConstraintSystem ρ → Except Failure Report,
      (do
        let report ← find (← get)
        return .verdicts report : InPlace ρ Answer).run.run system =
        ((find system).map Answer.verdicts, system) := by
    intro find
    change (do
      let report ← find system
      return .verdicts report : InPlace ρ Answer).run.run system = _
    cases find system <;> rfl
  exact hrun check

/-- Verifying in place is verifying, where a verification that is given up changes nothing. -/
theorem call_verifyAll (system : ConstraintSystem ρ) :
    system.call .verifyAll =
      match system.verifyAll with
      | .ok (passed, next) => (.ok (.verified passed), next)
      | .error failure => (.error failure, system) := by
  have hrun : ∀ find : ConstraintSystem ρ → Except Failure Report,
      (do
        let report ← find (← get)
        modify fun system => { system with failures := report.failures }
        return .verified (← get).failures.isEmpty : InPlace ρ Answer).run.run system =
        match find system with
        | .ok report =>
          (.ok (.verified report.failures.isEmpty), { system with failures := report.failures })
        | .error failure => (.error failure, system) := by
    intro find
    change (do
      let report ← find system
      modify fun system => { system with failures := report.failures }
      return .verified (← get).failures.isEmpty : InPlace ρ Answer).run.run system = _
    cases find system <;> rfl
  rw [show system.call .verifyAll = _ from hrun check, verifyAll]
  cases system.check <;> rfl

/-- A call adds a constraint, is given up where a check is, or gives back what a check has found,
which a verification remembers. -/
theorem call_cases (system : ConstraintSystem ρ) (next : Call ρ) :
    (∃ label constraint, next = .add label constraint ∧
      system.call next = (.ok (.position system.size), system.add label constraint)) ∨
    (∃ failure, next.entry? = none ∧ system.check = .error failure ∧
      system.call next = (.error failure, system)) ∨
    ∃ report, system.check = .ok report ∧
      ((next = .check ∧ system.call next = (.ok (.verdicts report), system)) ∨
        (next = .verifyAll ∧ system.call next = (.ok (.verified report.failures.isEmpty),
          { system with failures := report.failures }))) := by
  cases next with
  | add label constraint => exact Or.inl ⟨label, constraint, rfl, rfl⟩
  | check =>
    rw [call_check]
    cases system.check with
    | error failure => exact Or.inr (Or.inl ⟨failure, rfl, rfl, rfl⟩)
    | ok report => exact Or.inr (Or.inr ⟨report, rfl, Or.inl ⟨rfl, rfl⟩⟩)
  | verifyAll =>
    rw [call_verifyAll, verifyAll]
    cases system.check with
    | error failure => exact Or.inr (Or.inl ⟨failure, rfl, rfl, rfl⟩)
    | ok report => exact Or.inr (Or.inr ⟨report, rfl, Or.inr ⟨rfl, rfl⟩⟩)

/-! ## Runs -/

theorem after_snoc (ctx : Context) (calls : List (Call ρ)) (next : Call ρ) :
    after ctx (calls ++ [next]) = ((after ctx calls).call next).2 := by
  rw [after, List.foldl_append]
  rfl

/-- A call leaves the context alone, and changes the constraints only by adding one. -/
theorem call_frame (system : ConstraintSystem ρ) (next : Call ρ) :
    (system.call next).2.context = system.context ∧
      (system.call next).2.entries = system.entries ++ added [next] := by
  have hnone : next.entry? = none → added [next] = [] := by
    intro hentry
    simp [added, hentry]
  rcases call_cases system next with ⟨label, constraint, rfl, hcall⟩ |
    ⟨failure, hentry, -, hcall⟩ | ⟨report, -, ⟨rfl, hcall⟩ | ⟨rfl, hcall⟩⟩
  · exact ⟨rfl, rfl⟩
  · simp [hcall, hnone hentry]
  · simp [hcall, hnone rfl]
  · simp [hcall, hnone rfl]

theorem context_after (ctx : Context) (calls : List (Call ρ)) :
    (after ctx calls).context = ctx := by
  induction calls using List.reverseRecOn with
  | nil => rfl
  | append_singleton calls next ih => rw [after_snoc, (call_frame _ next).1, ih]

theorem entries_after (ctx : Context) (calls : List (Call ρ)) :
    (after ctx calls).entries = added calls := by
  induction calls using List.reverseRecOn with
  | nil => rfl
  | append_singleton calls next ih =>
    rw [after_snoc, (call_frame _ next).2, ih, added, added, added, List.filterMap_append]

/-- A verification that comes to its end remembers the failures of a check. -/
theorem failures_of_verified {system : ConstraintSystem ρ} {next : Call ρ} {passed : Bool}
    (h : (system.call next).1 = .ok (.verified passed)) :
    ∃ report, system.check = .ok report ∧ (system.call next).2.failures = report.failures ∧
      passed = report.failures.isEmpty := by
  rcases call_cases system next with ⟨_, _, -, hcall⟩ | ⟨_, -, -, hcall⟩ |
    ⟨report, hcheck, ⟨-, hcall⟩ | ⟨-, hcall⟩⟩
  · simp [hcall] at h
  · simp [hcall] at h
  · simp [hcall] at h
  · rw [hcall] at h ⊢
    cases h
    exact ⟨report, hcheck, rfl, rfl⟩

/-- All other calls leave what is remembered. -/
theorem failures_of_not_verified {system : ConstraintSystem ρ} {next : Call ρ}
    (h : ∀ passed, (system.call next).1 ≠ .ok (.verified passed)) :
    (system.call next).2.failures = system.failures := by
  rcases call_cases system next with ⟨_, _, -, hcall⟩ | ⟨_, -, -, hcall⟩ |
    ⟨report, -, ⟨-, hcall⟩ | ⟨-, hcall⟩⟩
  · rw [hcall]
    rfl
  · rw [hcall]
  · rw [hcall]
  · rw [hcall] at h
    exact absurd rfl (h _)

/-- The last of the calls that verified the system and came to its end was made after the calls
`before`, and gave back `passed`. -/
inductive LastVerified (ctx : Context) : List (Call ρ) → List (Call ρ) → Bool → Prop where
  | now {before : List (Call ρ)} {next : Call ρ} {passed : Bool}
      (hverified : ((after ctx before).call next).1 = .ok (.verified passed)) :
      LastVerified ctx (before ++ [next]) before passed
  | earlier {calls before : List (Call ρ)} {next : Call ρ} {passed : Bool}
      (hlast : LastVerified ctx calls before passed)
      (hother : ∀ passed, ((after ctx calls).call next).1 ≠ .ok (.verified passed)) :
      LastVerified ctx (calls ++ [next]) before passed

theorem LastVerified.failures {ctx : Context} {calls before : List (Call ρ)} {passed : Bool}
    (h : LastVerified ctx calls before passed) :
    ∃ report, (after ctx before).check = .ok report ∧
      (after ctx calls).failures = report.failures ∧ passed = report.failures.isEmpty := by
  induction h with
  | now hverified =>
    rw [after_snoc]
    exact failures_of_verified hverified
  | earlier hlast hother ih =>
    rw [after_snoc, failures_of_not_verified hother]
    exact ih

theorem failures_of_never {ctx : Context} {calls : List (Call ρ)}
    (h : ∀ before passed, ¬LastVerified ctx calls before passed) :
    (after ctx calls).failures = [] := by
  induction calls using List.reverseRecOn with
  | nil => rfl
  | append_singleton calls next ih =>
    have hother : ∀ passed, ((after ctx calls).call next).1 ≠ .ok (.verified passed) :=
      fun passed hverified => h calls passed (.now hverified)
    rw [after_snoc, failures_of_not_verified hother]
    exact ih fun before passed hlast => h before passed (.earlier hlast hother)

/-! ## All calls together -/

/-- What a new system says after calls. -/
structure Accounted (ctx : Context) (calls : List (Call ρ)) : Prop where
  /-- It remembers the failures among the constraints of the last completed verification, which
  gave back whether there are none. -/
  remembered : ∀ before passed, LastVerified ctx calls before passed →
    Lists ctx (added before) (after ctx calls).failures ∧
      (passed = true ↔ (after ctx calls).failures = [])
  /-- It remembers nothing if there was no such verification. -/
  nothing : (∀ before passed, ¬LastVerified ctx calls before passed) →
    (after ctx calls).failures = []
  /-- A check that is not given up has a verdict on each constraint. -/
  verdicts : ∀ answer, ((after ctx calls).call .check).1 = .ok answer →
    ∃ report, answer = .verdicts report ∧ Covers ctx (added calls) report
  /-- A check changes nothing. -/
  unchanged : ((after ctx calls).call .check).2 = after ctx calls
  /-- The verdicts of a check after further calls begin with those of a check now. -/
  kept : ∀ later report, ((after ctx (calls ++ later)).call .check).1 = .ok (.verdicts report) →
    ∃ first, ((after ctx calls).call .check).1 = .ok (.verdicts first) ∧
      first.verdicts <+: report.verdicts
  /-- Verifying the system in place is verifying it, and storing what this leads to if it comes to
  its end. -/
  verified : (after ctx calls).call .verifyAll =
    match (after ctx calls).verifyAll with
    | .ok (passed, next) => (.ok (.verified passed), next)
    | .error failure => (.error failure, after ctx calls)
  /-- A call that does not add a constraint is given up if failures abort and some constraint does
  not hold. -/
  aborts_iff : ∀ next : Call ρ, next.entry? = none →
    ((∃ failure, ((after ctx calls).call next).1 = .error failure) ↔
      ctx.reporting = .abort ∧ ∃ entry ∈ added calls, entry.constraint.verify ctx = false)
  /-- A call that is given up leaves the system, with all that it remembers. -/
  aborted : ∀ next failure, ((after ctx calls).call next).1 = .error failure →
    ((after ctx calls).call next).2 = after ctx calls

theorem check_of_call {system : ConstraintSystem ρ} {answer : Answer}
    (h : (system.call .check).1 = .ok answer) :
    ∃ report, system.check = .ok report ∧ answer = .verdicts report := by
  rcases call_cases system .check with ⟨_, _, hnext, -⟩ | ⟨_, -, -, hcall⟩ |
    ⟨report, hcheck, ⟨-, hcall⟩ | ⟨hnext, -⟩⟩
  · cases hnext
  · simp [hcall] at h
  · rw [hcall] at h
    cases h
    exact ⟨report, hcheck, rfl⟩
  · cases hnext

theorem call_of_check {system : ConstraintSystem ρ} {report : Report}
    (h : system.check = .ok report) : (system.call .check).1 = .ok (.verdicts report) := by
  rw [call_check, h]
  rfl

/-- What is checked now is checked the same way after further calls. -/
theorem verdicts_kept {ctx : Context} {calls later : List (Call ρ)} {report : Report}
    (h : (after ctx (calls ++ later)).check = .ok report) :
    ∃ first, (after ctx calls).check = .ok first ∧ first.verdicts <+: report.verdicts := by
  have hall := checkEntries_of_check h
  rw [context_after, entries_after, added, List.filterMap_append] at hall
  obtain ⟨verdicts, hverdicts, hprefix⟩ := checkEntries_prefix hall
  refine ⟨⟨verdicts⟩, ?_, hprefix⟩
  rw [check, context_after, entries_after, added, hverdicts]
  rfl

/-- A call is given up where a check is, and leaves the system alone. -/
theorem check_of_call_error {system : ConstraintSystem ρ} {next : Call ρ} {failure : Failure}
    (h : (system.call next).1 = .error failure) :
    system.check = .error failure ∧ (system.call next).2 = system := by
  rcases call_cases system next with ⟨_, _, -, hcall⟩ | ⟨_, -, hcheck, hcall⟩ |
    ⟨report, -, ⟨-, hcall⟩ | ⟨-, hcall⟩⟩
  · simp [hcall] at h
  · rw [hcall] at h ⊢
    cases h
    exact ⟨hcheck, rfl⟩
  · simp [hcall] at h
  · simp [hcall] at h

theorem call_error_of_check {system : ConstraintSystem ρ} {next : Call ρ} {failure : Failure}
    (h : system.check = .error failure) (hnext : next.entry? = none) :
    (system.call next).1 = .error failure := by
  rcases call_cases system next with ⟨_, _, rfl, -⟩ | ⟨_, -, hcheck, hcall⟩ | ⟨_, hcheck, -⟩
  · cases hnext
  · cases h.symm.trans hcheck
    rw [hcall]
  · cases h.symm.trans hcheck

/-- Whatever calls were made on a new system and in whatever order, it remembers the failures of
the last completed verification, its checks cover what was added, and a verification that is given
up leaves no trace. -/
theorem calls_accounted (ctx : Context) (calls : List (Call ρ)) : Accounted ctx calls where
  remembered before passed hlast := by
    obtain ⟨report, hcheck, hfailures, rfl⟩ := hlast.failures
    have hlists := lists_of_check hcheck
    rw [context_after, entries_after] at hlists
    rw [hfailures]
    exact ⟨hlists, List.isEmpty_iff⟩
  nothing hnever := failures_of_never hnever
  verdicts answer hanswer := by
    obtain ⟨report, hcheck, rfl⟩ := check_of_call hanswer
    have hcovers := covers_of_check hcheck
    rw [context_after, entries_after] at hcovers
    exact ⟨report, rfl, hcovers⟩
  unchanged := by rw [call_check]
  kept later report hanswer := by
    obtain ⟨report', hcheck, hreport⟩ := check_of_call hanswer
    cases hreport
    obtain ⟨first, hfirst, hprefix⟩ := verdicts_kept hcheck
    exact ⟨first, call_of_check hfirst, hprefix⟩
  verified := call_verifyAll (after ctx calls)
  aborts_iff next hnext := by
    have herror := check_error_iff (after ctx calls)
    rw [context_after, entries_after] at herror
    rw [← herror]
    constructor
    · rintro ⟨failure, h⟩
      exact ⟨failure, (check_of_call_error h).1⟩
    · rintro ⟨failure, h⟩
      exact ⟨failure, call_error_of_check h hnext⟩
  aborted next failure h := (check_of_call_error h).2

end ConstraintSystem

end SpaceTypes
