import SpaceTypes.AssemblyError
import SpaceTypes.Context

/-!
# Constraints

A constraint is a claim about one or two types that can be checked in a context. Constraints are
made from types of the right kind; a type of another kind is refused when the constraint is made.
A composite constraint holds when all of its parts do, and fails with its first failing part.
-/

namespace SpaceTypes

/-- A claim about types. -/
inductive Constraint (ρ : Type) where
  /-- The first type is a subtype of the second. -/
  | subtype (sub sup : Ty ρ)
  /-- The type is connected, continuous and compact. -/
  | topological (t : TopologyLayer ρ)
  /-- The type is unitary, normalized and entangled. -/
  | quantum (t : QuantumLayer ρ)
  /-- The dependent type is well formed and below the base, which meets its predicate. -/
  | dependent (base : Ty ρ) (layer : DependentLayer ρ)
  /-- Both types have what a kind of mapping requires. -/
  | mapping (kind : MappingKind) (source target : TopologyLayer ρ)
  /-- All of the parts hold. -/
  | composite (parts : List (Constraint ρ))

/-- The kinds of constraint. -/
inductive ConstraintKind where
  | subtype
  | topological
  | quantum
  | dependent
  | mapping
  | composite
deriving DecidableEq, Repr

/-- The kind in one word. -/
def ConstraintKind.text : ConstraintKind → String
  | subtype => "subtype"
  | topological => "topological"
  | quantum => "quantum"
  | dependent => "dependent"
  | mapping => "mapping"
  | composite => "composite"

namespace Constraint

variable {ρ : Type}

/-- What a topological constraint demands. -/
def topologicalDemands : List TopologyProperty := [.connected, .continuous, .compact]

/-- What a quantum constraint demands. -/
def quantumDemands : List QuantumProperty := [.unitary, .normalized, .entangled]

/-! ## Making constraints -/

/-- Both types are subtypes of each other. -/
def equal (a b : Ty ρ) : Constraint ρ := composite [subtype a b, subtype b a]

/-- The topology type at hand, or an error that names the use. -/
def topologyOperand (use : TypeUse) (t : Ty ρ) : Except AssemblyError (TopologyLayer ρ) :=
  match t.topologyLayer? with
  | some layer => .ok layer
  | none => .error (.mismatch use t)

/-- A topological constraint on a topology type. -/
def ofTopological (t : Ty ρ) : Except AssemblyError (Constraint ρ) := do
  let layer ← topologyOperand .topological t
  return topological layer

/-- A quantum constraint on a quantum type. -/
def ofQuantum (t : Ty ρ) : Except AssemblyError (Constraint ρ) :=
  match t.quantumLayer? with
  | some layer => .ok (quantum layer)
  | none => .error (.mismatch .quantum t)

/-- The constraint that a dependent type fits a base. -/
def ofDependent (base t : Ty ρ) : Except AssemblyError (Constraint ρ) :=
  match t.dependentLayer? with
  | some layer => .ok (dependent base layer)
  | none => .error (.mismatch .dependent t)

/-- A mapping between two topology types. -/
def ofMapping (kind : MappingKind) (source target : Ty ρ) :
    Except AssemblyError (Constraint ρ) := do
  let source ← topologyOperand .mapping source
  let target ← topologyOperand .mapping target
  return mapping kind source target

/-! ## Describing constraints -/

/-- The kind of the constraint. -/
def kind : Constraint ρ → ConstraintKind
  | subtype _ _ => .subtype
  | topological _ => .topological
  | quantum _ => .quantum
  | dependent _ _ => .dependent
  | mapping _ _ _ => .mapping
  | composite _ => .composite

mutual

/-- The operands in words. -/
def describe : Constraint ρ → String
  | subtype sub sup => sub.text ++ " <: " ++ sup.text
  | topological t => t.toTy.text
  | quantum t => t.toTy.text
  | dependent base layer => layer.toTy.text ++ " over " ++ base.text
  | mapping kind source target =>
    kind.name ++ " " ++ source.toTy.text ++ " -> " ++ target.toTy.text
  | composite parts => "(" ++ ", ".intercalate (describeAll parts) ++ ")"

/-- The operands of each constraint in words. -/
def describeAll : List (Constraint ρ) → List String
  | [] => []
  | part :: rest => describe part :: describeAll rest

end

/-- The kind and the operands in words. -/
def text (constraint : Constraint ρ) : String :=
  constraint.kind.text ++ " " ++ constraint.describe

/-! ## Checking constraints -/

variable [Meaning ρ] [DecidableEq ρ]

/-- Checks that a dependent type is well formed, that the base meets its predicate, and that it is
below the base. -/
def checkDependent (ctx : Context) (base : Ty ρ) (layer : DependentLayer ρ) : Outcome :=
  (ctx.check layer.toTy).andThen
    ((ctx.demand (Meaning.holds layer.clauses.predicate base)
        (.refinement base.text .predicate)).andThen
      (ctx.checkSubtype layer.toTy base))

mutual

/-- Checks the constraint. -/
def check (ctx : Context) : Constraint ρ → Outcome
  | subtype sub sup => ctx.checkSubtype sub sup
  | topological t => ctx.requireTopology t topologicalDemands
  | quantum t => ctx.requireQuantum t quantumDemands
  | dependent base layer => checkDependent ctx base layer
  | mapping kind source target => ctx.checkMapping kind source target
  | composite parts => checkParts ctx 0 parts

/-- Checks the parts in order, the first of them numbered `index`. -/
def checkParts (ctx : Context) (index : Nat) : List (Constraint ρ) → Outcome
  | [] => .holds
  | part :: rest =>
    ((check ctx part).within ctx.reporting (.inPart index)).andThen
      (checkParts ctx (index + 1) rest)

end

/-- Whether the constraint holds. -/
def verify (ctx : Context) (constraint : Constraint ρ) : Bool :=
  constraint.check { ctx with reporting := .quiet } == .holds

end Constraint

end SpaceTypes
