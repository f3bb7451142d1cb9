import SpaceTypes.Inference.Variables
import SpaceTypes.Registry.Separation

/-!
# Inference errors

Why inference ends without a solution: it did not come to an end or left variables open, or it
found demands that contradict each other.
-/

namespace SpaceTypes

/-- Two pieces of information about a variable that cannot both hold. -/
inductive Conflict where
  /-- The variable already has a type. -/
  | bound (existing proposed : String)
  /-- The variable is not of the type of the source it should agree with. -/
  | differs (type source sourceType : String)
  /-- A property already has the other value. -/
  | property (property : Property) (value required : Bool)
deriving DecidableEq, Repr

/-- The conflict in words. -/
def Conflict.text : Conflict → String
  | bound existing proposed => "already " ++ existing ++ ", cannot also be " ++ proposed
  | differs type source sourceType =>
    "is " ++ type ++ " but should be the same as `" ++ source ++ "` which is " ++ sourceType
  | property p value required =>
    p.name ++ " is " ++ valueText value ++ " but is required to be " ++ valueText required

/-- What is wrong with the registry of a single variable. -/
inductive Inconsistency where
  /-- A separation rule is broken. -/
  | breaksRule (rule : Rule)
  /-- The variable is entangled but denied to be in superposition. -/
  | incoherent
deriving DecidableEq, Repr

/-- The inconsistency in words. -/
def Inconsistency.text : Inconsistency → String
  | breaksRule rule => rule.text
  | incoherent =>
    QuantumProperty.entangled.name ++ " but not " ++ QuantumProperty.superposition.name

/-- Why inference has no solution to give. -/
inductive InferenceError where
  /-- The passes were used up while there was still progress. -/
  | notConverged (passes : Nat)
  /-- Nothing more can be inferred, and some variables are not bound. -/
  | unresolved (names : List String)
  /-- Contradictory demands on a variable. -/
  | conflict (var : String) (what : Conflict)
  /-- The properties of a variable contradict each other. -/
  | inconsistent (var : String) (what : Inconsistency)
  /-- A variable is not a subtype of another. -/
  | notSubtype (sub sup : String)
  /-- A variable is of the wrong kind for a property or a mapping. -/
  | kindMismatch (var : String) (expected found : Kind)
  /-- A goal uses a variable that does not exist. -/
  | fault (what : VariableFault)
deriving DecidableEq, Repr

namespace InferenceError

/-- Whether inference stopped without an answer, rather than with a contradiction. -/
def isIncomplete : InferenceError → Bool
  | notConverged _ => true
  | unresolved _ => true
  | _ => false

/-- Whether a goal broke the rules of the table of variables. -/
def isFault : InferenceError → Bool
  | fault _ => true
  | _ => false

/-- The error in words. -/
def text : InferenceError → String
  | notConverged passes => "inference did not converge within " ++ toString passes ++ " passes"
  | unresolved names => "could not infer a type for " ++ ", ".intercalate names
  | conflict var what => "conflicting information for `" ++ var ++ "`: " ++ what.text
  | inconsistent var what => "`" ++ var ++ "` is inconsistent: " ++ what.text
  | notSubtype sub sup => "`" ++ sub ++ "` is not a subtype of `" ++ sup ++ "`"
  | kindMismatch var expected found =>
    "`" ++ var ++ "` needs to be a " ++ expected.text ++ " type, but is a " ++ found.text ++ " type"
  | fault what => what.text

end InferenceError

end SpaceTypes
