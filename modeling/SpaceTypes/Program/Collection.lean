import SpaceTypes.Declaration
import SpaceTypes.Inference.GoalSystem
import SpaceTypes.Program.Error

/-!
# Collecting declarations

Declarations become variables and goals of a goal system, and claims to verify once the types are
inferred. Collecting takes two rounds over the declarations in the order of writing, so that names
may be used before they are declared: the first makes a variable for each space and shape, the
second adds the goals and claims. At the end the separation rules are to be applied to every named
variable.

Batches of declarations can be collected one after another. A batch with an error ends there, and
what was collected of it remains.
-/

namespace SpaceTypes

/-- A mapping whose sides have to be verified. -/
structure MappingClaim where
  /-- The name of the mapping. -/
  name : String
  /-- Its kind. -/
  kind : MappingKind
  /-- The name of its source. -/
  source : String
  /-- The name of its target. -/
  target : String
deriving DecidableEq, Repr

/-- What was collected from declarations. -/
structure Collection (ρ : Type) where
  /-- The variables and the goals on them. -/
  system : GoalSystem ρ := {}
  /-- The variables of the declared names. -/
  names : NameTable Nat := .empty
  /-- The mappings to verify, in order. -/
  mappings : List MappingClaim := []
  /-- The invariants to verify, in order. -/
  invariants : List Invariant := []
deriving DecidableEq, Repr

namespace Collection

variable {ρ : Type}

/-- A collection, and the error at which collecting ended if it did not come to its end. -/
abbrev Progress (ρ : Type) := Collection ρ × Option ProgramError

/-- The variable of a name. -/
def lookup (c : Collection ρ) (name : String) : Except ProgramError Nat :=
  match c.names.find? name with
  | some var => .ok var
  | none => .error (.assembly (.unknownName name))

/-- The collection with another goal. -/
def addGoal (c : Collection ρ) (goal : Goal) : Collection ρ :=
  { c with system := c.system.addGoal goal }

/-! ## Variables -/

/-- Makes a variable for a name. A name that has one is an error, but refers to the new variable
from then on. -/
def declareName (c : Collection ρ) (name : String) (type : Option TypeExpr) : Progress ρ :=
  ({ c with
      system := c.system.spawn name (type.map TypeExpr.toTy)
      names := c.names.insert name c.system.vars.size },
    if c.names.contains name then some (.assembly (.duplicateName name)) else none)

/-- Makes the variable of a space or shape. -/
def declare (c : Collection ρ) : Declaration → Progress ρ
  | .space name type _ => c.declareName name (some type)
  | .shape name type _ => c.declareName name type
  | _ => (c, none)

/-- Makes the variables of all spaces and shapes. -/
def declareAll (c : Collection ρ) : List (Option String × Declaration) → Progress ρ
  | [] => (c, none)
  | (_, d) :: rest =>
    match c.declare d with
    | (c, some error) => (c, some error)
    | (c, none) => c.declareAll rest

/-! ## Goals and claims -/

/-- Ties a shape to what it stands in: one without a type has the same type, one with a type has a
subtype. -/
def addShapeGoal (c : Collection ρ) (scope : Option String) (name : String)
    (type : Option TypeExpr) : Except ProgramError (Collection ρ) := do
  let var ← c.lookup name
  match scope with
  | none => return c
  | some outer =>
    let outer ← c.lookup outer
    match type with
    | none => return c.addGoal (.sameAs var outer)
    | some _ => return c.addGoal (.subtype var outer)

/-- Makes a mapping carry over what it preserves, and notes it for verification. -/
def addMapping (c : Collection ρ) (name kind source target : String) :
    Except ProgramError (Collection ρ) := do
  let kind ← (MappingKind.named kind).mapError ProgramError.assembly
  let s ← c.lookup source
  let t ← c.lookup target
  let c := c.addGoal (.preserve s t kind)
  return { c with mappings := c.mappings ++ [⟨name, kind, source, target⟩] }

/-- Demands a property of the space or shape it stands in. -/
def addProperty (c : Collection ρ) (scope : Option String) (name : String) (value : Bool) :
    Except ProgramError (Collection ρ) := do
  match scope with
  | none => throw (.strayProperty name)
  | some outer =>
    let var ← c.lookup outer
    let p ← (Property.named name).mapError ProgramError.assembly
    return c.addGoal (.property var p value)

/-- Looks up all names, for the error if one of them is not declared. -/
def lookupAll (c : Collection ρ) : List String → Except ProgramError Unit
  | [] => .ok ()
  | name :: rest => do
    let _ ← c.lookup name
    c.lookupAll rest

/-- Notes an invariant for verification. -/
def addInvariant (c : Collection ρ) (claim : Invariant) : Except ProgramError (Collection ρ) := do
  c.lookupAll claim.names
  return { c with invariants := c.invariants ++ [claim] }

/-- Adds the goals and claims of one declaration, its body apart. -/
def addDeclaration (c : Collection ρ) (scope : Option String) :
    Declaration → Except ProgramError (Collection ρ)
  | .space _ _ _ => .ok c
  | .shape name type _ => c.addShapeGoal scope name type
  | .mapping name kind source target => c.addMapping name kind source target
  | .property name value => c.addProperty scope name value
  | .invariant claim => c.addInvariant claim

/-- Adds the goals and claims of all declarations. -/
def addAll (c : Collection ρ) : List (Option String × Declaration) → Progress ρ
  | [] => (c, none)
  | (scope, d) :: rest =>
    match c.addDeclaration scope d with
    | .error error => (c, some error)
    | .ok c => c.addAll rest

/-- The variables that their names refer to, in the order of their numbers. -/
def namedVariables (c : Collection ρ) : List Nat :=
  (List.range c.system.vars.size).filter fun var =>
    (c.system.vars.name? var).bind c.names.find? == some var

/-- Adds a goal for each named variable to derive by the separation rules. -/
def addDerivations (c : Collection ρ) : Collection ρ :=
  { c with system.goals := c.system.goals ++ c.namedVariables.map Goal.derive }

/-- Collects a batch of declarations. -/
def collect (config : Config) (c : Collection ρ) (declarations : List Declaration) : Progress ρ :=
  let items := Declaration.flattenAll none declarations
  match c.declareAll items with
  | (c, some error) => (c, some error)
  | (c, none) =>
    match c.addAll items with
    | (c, some error) => (c, some error)
    | (c, none) => (if config.deriveByRules then c.addDerivations else c, none)

end Collection

end SpaceTypes
