import SpaceTypes.Mapping
import SpaceTypes.Registry.Separation
import SpaceTypes.Ty

/-!
# Failures and outcomes

A failure says why a check does not hold. Failures are expected results, not errors: they are
collected and reported. A failure inside the base of a type, or inside a part of a composite
constraint, is wrapped in what it was found in; `Failure.root` is the failure itself.

How a check reports a failure is chosen by a `Reporting`: in full, without detail, or by giving up
at once. An `Outcome` is what a check comes to under it. Under `Reporting.abort` a check ends at
the first failure it meets, before any wrapping.
-/

namespace SpaceTypes

/-- Why a check does not hold. -/
inductive Failure where
  /-- A type is not below another. -/
  | notSubtype (sub sup : String)
  /-- A type lacks properties. -/
  | lacks (subject : String) (missing : List Missing)
  /-- A topology type breaks a separation rule. -/
  | breaksRule (subject : String) (rule : Rule)
  /-- A quantum type is entangled but denied to be in superposition. -/
  | incoherent (subject : String)
  /-- A type fails a clause of a dependent type. -/
  | refinement (subject : String) (clause : Clause)
  /-- A side of a mapping lacks what the mapping requires. -/
  | mapping (kind : MappingKind) (source target : String) (missing : List Missing)
  /-- The failure of the base of a type. -/
  | inBase (subject : String) (inner : Failure)
  /-- The failure of one part of a composite constraint. -/
  | inPart (index : Nat) (inner : Failure)
  /-- A failure whose detail was not asked for. -/
  | discarded
deriving DecidableEq, Repr

namespace Failure

/-- The failure without the types and constraints it was found in. -/
def root : Failure → Failure
  | inBase _ inner => inner.root
  | inPart _ inner => inner.root
  | failure => failure

/-- The properties whose lack is the root of the failure. -/
def missing (failure : Failure) : List Missing :=
  match failure.root with
  | lacks _ missing => missing
  | mapping _ _ _ missing => missing
  | _ => []

/-- The names of the missing properties, separated by commas. -/
def listMissing (missing : List Missing) : String := ", ".intercalate (missing.map Missing.text)

/-- The failure in words. -/
def text : Failure → String
  | notSubtype sub sup => sub ++ " is not a subtype of " ++ sup
  | lacks subject missing => subject ++ " does not have " ++ listMissing missing
  | breaksRule subject rule => subject ++ " violates " ++ rule.text
  | incoherent subject => subject ++ " is entangled but not in superposition"
  | refinement subject clause => subject ++ " fails its " ++ clause.text ++ " refinement"
  | mapping kind source target missing =>
    kind.name ++ " from " ++ source ++ " to " ++ target ++ " requires " ++ listMissing missing
  | inBase subject inner => "in base of " ++ subject ++ ": " ++ inner.text
  | inPart index inner => "in part " ++ toString index ++ ": " ++ inner.text
  | discarded => "verification failed"

end Failure

/-- How much a check says about a failure. -/
inductive Reporting where
  /-- Give up at the first failure. -/
  | abort
  /-- Say only that the check failed. -/
  | quiet
  /-- Say where and why the check failed. -/
  | detailed
deriving DecidableEq, Repr

/-- What a check comes to. -/
inductive Outcome where
  /-- The check holds. -/
  | holds
  /-- The check does not hold. -/
  | fails (failure : Failure)
  /-- The check was given up at a failure. -/
  | aborts (failure : Failure)
deriving DecidableEq, Repr

/-- What a failure becomes under a way of reporting. -/
def Reporting.fail : Reporting → Failure → Outcome
  | abort, failure => .aborts failure
  | quiet, _ => .fails .discarded
  | detailed, failure => .fails failure

namespace Outcome

/-- Goes on to the next check if this one holds. -/
def andThen : Outcome → Outcome → Outcome
  | holds, next => next
  | fails failure, _ => fails failure
  | aborts failure, _ => aborts failure

/-- Reports a failure as part of something larger. -/
def within (reporting : Reporting) (wrap : Failure → Failure) : Outcome → Outcome
  | holds => holds
  | fails failure => reporting.fail (wrap failure)
  | aborts failure => aborts failure

/-- The message with which a check that was given up ends. -/
def abortText (failure : Failure) : String := "verification failed: " ++ failure.text

end Outcome

end SpaceTypes
