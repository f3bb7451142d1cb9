import SpaceTypes.Constraint
import SpaceTypes.Text.Colour

/-!
# Reports

The result of checking a batch of constraints: one verdict for each, in order, with all failures
rather than the first only.
-/

namespace SpaceTypes

/-- The result of checking one constraint. -/
structure Verdict where
  /-- The position of the constraint in the batch. -/
  index : Nat
  /-- What the constraint is reported under. -/
  subject : String
  /-- The kind of the constraint. -/
  kind : ConstraintKind
  /-- Why it does not hold, if it does not. -/
  failure? : Option Failure
deriving DecidableEq, Repr

/-- Whether the constraint holds. -/
def Verdict.passed (verdict : Verdict) : Bool := verdict.failure?.isNone

/-- The verdict on one line. -/
def Verdict.text (verdict : Verdict) : String :=
  toString verdict.index ++ " " ++ Text.Colour.purple.paint verdict.kind.text ++ " " ++
    verdict.subject ++
    match verdict.failure? with
    | none => " " ++ Text.Colour.green.paint "ok"
    | some failure => " " ++ Text.Colour.red.paint "failed" ++ ": " ++ failure.text

/-- The verdicts on a batch of constraints. -/
structure Report where
  /-- The verdicts, in the order of the batch. -/
  verdicts : List Verdict
deriving DecidableEq, Repr

namespace Report

/-- Whether every constraint holds. -/
def passed (report : Report) : Bool := report.verdicts.all Verdict.passed

/-- The verdicts on the constraints that do not hold. -/
def failed (report : Report) : List Verdict :=
  report.verdicts.filter fun verdict => !verdict.passed

/-- The failures, each with the position of its constraint. -/
def failures (report : Report) : List (Nat × Failure) :=
  report.verdicts.filterMap fun verdict =>
    verdict.failure?.map fun failure => (verdict.index, failure)

/-- A line for each verdict, and a line that counts the failures. -/
def text (report : Report) : String :=
  String.join (report.verdicts.map fun verdict => verdict.text ++ "\n") ++
    toString report.failed.length ++ " of " ++ toString report.verdicts.length ++
    " constraints failed"

end Report

end SpaceTypes
