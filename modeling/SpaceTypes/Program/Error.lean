import SpaceTypes.AssemblyError
import SpaceTypes.Failure
import SpaceTypes.Inference.Error

/-!
# Program errors

What ends the work on a program before there is a result: a misuse of names, properties, mappings
or types, the lack of a solution for the inferred types, a property outside of all spaces and
shapes, or a failed check where checks give up at failures.
-/

namespace SpaceTypes

/-- What ends the work on a program. -/
inductive ProgramError where
  /-- Names, properties, mappings or types are misused. -/
  | assembly (error : AssemblyError)
  /-- The types cannot be inferred. -/
  | inference (error : InferenceError)
  /-- A property does not stand in a space or shape. -/
  | strayProperty (name : String)
  /-- A check was given up at a failure. -/
  | aborted (failure : Failure)
deriving DecidableEq, Repr

/-- The error in words. -/
def ProgramError.text : ProgramError → String
  | assembly error => error.text
  | inference error => error.text
  | strayProperty name => "property `" ++ name ++ "` is not declared inside a space or shape"
  | aborted failure => Outcome.abortText failure

end SpaceTypes
