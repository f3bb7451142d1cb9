import SpaceTypes.TypeExpr
import SpaceTypes.Property

/-!
# Declarations

A program is a list of declarations. Spaces and shapes have a type and a body of further
declarations; a shape may leave its type out, and then has the type of what it stands in. Mappings
connect spaces and shapes by name. Properties belong to the space or shape they stand in.
Invariants are claims about named declarations. Names are global, however deep they are declared.
-/

namespace SpaceTypes

/-- A claim about named declarations. -/
inductive Invariant where
  /-- The first is a subtype of the second. -/
  | subtype (sub sup : String)
  /-- Both are subtypes of each other. -/
  | equal (left right : String)
  /-- The declaration meets the topological constraint. -/
  | topological (name : String)
  /-- The declaration meets the quantum constraint. -/
  | quantum (name : String)
deriving DecidableEq, Repr

namespace Invariant

/-- The names that the claim is about, in order. -/
def names : Invariant → List String
  | subtype sub sup => [sub, sup]
  | equal left right => [left, right]
  | topological name => [name]
  | quantum name => [name]

/-- The claim in words. -/
def text : Invariant → String
  | subtype sub sup => sub ++ " <: " ++ sup
  | equal left right => left ++ " == " ++ right
  | topological name => "topological(" ++ name ++ ")"
  | quantum name => "quantum(" ++ name ++ ")"

end Invariant

/-- A declaration of a program. -/
inductive Declaration where
  /-- A space with its type. -/
  | space (name : String) (type : TypeExpr) (body : List Declaration)
  /-- A shape, with a type of its own or without. -/
  | shape (name : String) (type : Option TypeExpr) (body : List Declaration)
  /-- A map of some kind between two named declarations. -/
  | mapping (name kind source target : String)
  /-- A property of the enclosing space or shape. -/
  | property (name : String) (value : Bool)
  /-- A claim. -/
  | invariant (claim : Invariant)
deriving Repr

namespace Declaration

/-- The declared name. -/
def name? : Declaration → Option String
  | space name _ _ => some name
  | shape name _ _ => some name
  | mapping name _ _ _ => some name
  | property name _ => some name
  | invariant _ => none

/-- The declarations inside. -/
def body : Declaration → List Declaration
  | space _ _ body => body
  | shape _ _ body => body
  | _ => []

mutual

/-- The declaration as it is written. -/
def text : Declaration → String
  | space name type body =>
    "space " ++ name ++ ": " ++ type.text ++ " \x7b" ++ "; ".intercalate (textAll body) ++ "\x7d"
  | shape name none body =>
    "shape " ++ name ++ " \x7b" ++ "; ".intercalate (textAll body) ++ "\x7d"
  | shape name (some type) body =>
    "shape " ++ name ++ ": " ++ type.text ++ " \x7b" ++ "; ".intercalate (textAll body) ++ "\x7d"
  | mapping name kind source target =>
    "mapping " ++ name ++ ": " ++ kind ++ " " ++ source ++ " -> " ++ target
  | property name value => name ++ " = " ++ valueText value
  | invariant claim => "invariant " ++ claim.text

/-- The declarations as they are written. -/
def textAll : List Declaration → List String
  | [] => []
  | d :: rest => text d :: textAll rest

end

/-! ## Equality -/

mutual

/-- Whether two declarations are the same. -/
def same : Declaration → Declaration → Bool
  | space name type body, space name' type' body' =>
    name = name' && type = type' && sameAll body body'
  | shape name type body, shape name' type' body' =>
    name = name' && type = type' && sameAll body body'
  | mapping name kind source target, mapping name' kind' source' target' =>
    name = name' && kind = kind' && source = source' && target = target'
  | property name value, property name' value' => name = name' && value = value'
  | invariant claim, invariant claim' => claim = claim'
  | _, _ => false

/-- Whether two lists of declarations are the same. -/
def sameAll : List Declaration → List Declaration → Bool
  | [], [] => true
  | d :: rest, d' :: rest' => same d d' && sameAll rest rest'
  | _, _ => false

end

mutual

theorem same_iff (d d' : Declaration) : same d d' = true ↔ d = d' := by
  cases d <;> cases d' <;>
    simp only [same, Bool.and_eq_true, decide_eq_true_eq, Bool.false_eq_true, reduceCtorEq,
      space.injEq, shape.injEq, mapping.injEq, property.injEq, invariant.injEq, and_assoc]
  · rw [sameAll_iff]
  · rw [sameAll_iff]

theorem sameAll_iff (ds ds' : List Declaration) : sameAll ds ds' = true ↔ ds = ds' := by
  cases ds <;> cases ds' <;>
    simp only [sameAll, Bool.and_eq_true, Bool.false_eq_true, reduceCtorEq, List.cons.injEq]
  rw [same_iff, sameAll_iff]

end

instance : DecidableEq Declaration := fun d d' => decidable_of_iff _ (same_iff d d')

/-! ## Scopes -/

mutual

/-- The declaration and those inside it in the order of writing, each with the name of the space or
shape it stands in. -/
def flatten (scope : Option String) : Declaration → List (Option String × Declaration)
  | space name type body => (scope, space name type body) :: flattenAll (some name) body
  | shape name type body => (scope, shape name type body) :: flattenAll (some name) body
  | mapping name kind source target => [(scope, mapping name kind source target)]
  | property name value => [(scope, property name value)]
  | invariant claim => [(scope, invariant claim)]

/-- The declarations and those inside them in the order of writing. -/
def flattenAll (scope : Option String) : List Declaration → List (Option String × Declaration)
  | [] => []
  | d :: rest => flatten scope d ++ flattenAll scope rest

end

theorem flattenAll_eq_flatMap (scope : Option String) (declarations : List Declaration) :
    flattenAll scope declarations = declarations.flatMap (flatten scope) := by
  induction declarations with
  | nil => rfl
  | cons d rest ih => rw [flattenAll, List.flatMap_cons, ih]

end Declaration

end SpaceTypes
