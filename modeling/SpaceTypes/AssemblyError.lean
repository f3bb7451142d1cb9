import SpaceTypes.Mapping
import SpaceTypes.TypeExpr.Parser

/-!
# Assembly errors

What can go wrong when types, constraints and environments are put together. Unlike failures of
checks, these end the work that meets them.
-/

namespace SpaceTypes

/-- The uses of a type that need a type of a certain kind. -/
inductive TypeUse where
  | topological
  | quantum
  | dependent
  | mapping
  | topologicalProperty
  | quantumProperty
deriving DecidableEq, Repr

namespace TypeUse

/-- The use in words. -/
def text : TypeUse → String
  | topological => "topological"
  | quantum => "quantum"
  | dependent => "dependent"
  | mapping => "mapping"
  | topologicalProperty => "topological property"
  | quantumProperty => "quantum property"

/-- The kind of type that the use needs. -/
def needs : TypeUse → Kind
  | topological => .topology
  | quantum => .quantum
  | dependent => .dependent
  | mapping => .topology
  | topologicalProperty => .topology
  | quantumProperty => .quantum

/-- The use of a type that records a property. -/
def ofProperty : Property → TypeUse
  | .topology _ => topologicalProperty
  | .quantum _ => quantumProperty

end TypeUse

/-- The components of a dependent type. -/
inductive Component where
  | base
  | predicate
  | topology
  | quantum
deriving DecidableEq, Repr

/-- The component in words. -/
def Component.text : Component → String
  | base => "base type"
  | predicate => "predicate"
  | topology => "topology constraint"
  | quantum => "quantum constraint"

/-- A misuse of types, constraints, names or their written forms. -/
inductive AssemblyError where
  /-- A type is of the wrong kind for its use. -/
  | kindMismatch (use : TypeUse) (found : String) (foundKind : Kind)
  /-- A dependent type was not given one of its components. -/
  | missingComponent (component : Component)
  /-- A name is defined twice. -/
  | duplicateName (name : String)
  /-- A name is not defined. -/
  | unknownName (name : String)
  /-- A word is not the name of a property. -/
  | unknownProperty (name : String)
  /-- A word is not the name of a kind of mapping. -/
  | unknownMapping (name : String)
  /-- A text is not a written type. -/
  | malformedType (malformed : TypeExpr.Malformed)
deriving DecidableEq, Repr

namespace AssemblyError

/-- A type that is of the wrong kind for its use. -/
def mismatch {ρ : Type} (use : TypeUse) (found : Ty ρ) : AssemblyError :=
  kindMismatch use found.text found.kind

/-- The error in words. -/
def text : AssemblyError → String
  | kindMismatch use found foundKind =>
    use.text ++ " constraint needs a " ++ use.needs.text ++ " type, but `" ++ found ++ "` is a " ++
      foundKind.text ++ " type"
  | missingComponent component => "dependent type is missing its " ++ component.text
  | duplicateName name => "`" ++ name ++ "` is already defined"
  | unknownName name => "`" ++ name ++ "` is not defined"
  | unknownProperty name => "unknown property `" ++ name ++ "`"
  | unknownMapping name => "unknown mapping kind `" ++ name ++ "`"
  | malformedType malformed =>
    "invalid type syntax at " ++ toString malformed.offset ++ ": " ++ malformed.reason.text

end AssemblyError

/-- The property of the given name, or an error that repeats the name. -/
def Property.named (name : String) : Except AssemblyError Property :=
  match ofName? name with
  | some p => .ok p
  | none => .error (.unknownProperty name)

/-- The kind of mapping of the given name, or an error that repeats the name. -/
def MappingKind.named (name : String) : Except AssemblyError MappingKind :=
  match ofName? name with
  | some kind => .ok kind
  | none => .error (.unknownMapping name)

end SpaceTypes
