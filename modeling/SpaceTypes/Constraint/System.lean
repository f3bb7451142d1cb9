import SpaceTypes.Constraint.Report

/-!
# Systems of constraints

A batch of constraints that are checked together in one context. Checking looks at every
constraint in the order in which they were added; where the context gives up at failures, it ends
at the first one instead. `verifyAll` also keeps the failures for later questions.
-/

namespace SpaceTypes

/-- A constraint with an optional name to report it under. -/
structure Entry (ρ : Type) where
  /-- The name, if it has one. -/
  label : Option String
  /-- The constraint. -/
  constraint : Constraint ρ

/-- The name, or else the operands in words. -/
def Entry.subject {ρ : Type} (entry : Entry ρ) : String :=
  entry.label.getD entry.constraint.describe

/-- Constraints that are checked together. -/
structure ConstraintSystem (ρ : Type) where
  /-- Where the constraints are checked. -/
  context : Context
  /-- The constraints, in the order in which they were added. -/
  entries : List (Entry ρ) := []
  /-- The failures that were found when the constraints were last verified. -/
  failures : List (Nat × Failure) := []

namespace ConstraintSystem

variable {ρ : Type}

/-- The system with another constraint at its end. -/
def add (system : ConstraintSystem ρ) (label : Option String) (constraint : Constraint ρ) :
    ConstraintSystem ρ :=
  { system with entries := system.entries ++ [⟨label, constraint⟩] }

/-- The number of constraints. -/
def size (system : ConstraintSystem ρ) : Nat := system.entries.length

/-- The constraint at a position. -/
def get? (system : ConstraintSystem ρ) (index : Nat) : Option (Constraint ρ) :=
  system.entries[index]?.map Entry.constraint

/-- The last of the failures. -/
def lastFailure? (system : ConstraintSystem ρ) : Option Failure :=
  system.failures.getLast?.map Prod.snd

variable [Meaning ρ] [DecidableEq ρ]

/-- The verdicts on the entries, the first of them numbered `index`, or the failure at which the
check was given up. -/
def checkEntries (ctx : Context) (index : Nat) : List (Entry ρ) → Except Failure (List Verdict)
  | [] => .ok []
  | entry :: rest =>
    match entry.constraint.check ctx with
    | .aborts failure => .error failure
    | .holds => do
      let verdicts ← checkEntries ctx (index + 1) rest
      return ⟨index, entry.subject, entry.constraint.kind, none⟩ :: verdicts
    | .fails failure => do
      let verdicts ← checkEntries ctx (index + 1) rest
      return ⟨index, entry.subject, entry.constraint.kind, some failure⟩ :: verdicts

/-- Checks every constraint. -/
def check (system : ConstraintSystem ρ) : Except Failure Report := do
  let verdicts ← checkEntries system.context 0 system.entries
  return ⟨verdicts⟩

/-- Checks every constraint, keeps the failures, and says whether there are none. -/
def verifyAll (system : ConstraintSystem ρ) : Except Failure (Bool × ConstraintSystem ρ) := do
  let report ← system.check
  return (report.failures.isEmpty, { system with failures := report.failures })

/-- Whether the constraint at a position holds. -/
def verify? (system : ConstraintSystem ρ) (index : Nat) : Option Bool :=
  (system.get? index).map fun constraint => constraint.verify system.context

end ConstraintSystem

end SpaceTypes
