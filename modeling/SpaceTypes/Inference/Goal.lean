import SpaceTypes.Inference.Error
import SpaceTypes.Mapping
import SpaceTypes.Registry.Coherence
import SpaceTypes.Ty.Subtype

/-!
# Goals

A goal is a demand on variables that inference applies again and again. Applying it may bind a
variable, record properties that were unset, or find that the demand cannot be met. Goals on
variables that are not bound wait.

Inference never takes back what is known: a property that has a value keeps it, and a demand for
another value is a conflict.
-/

namespace SpaceTypes

/-- A demand on variables. -/
inductive Goal where
  /-- The variable has the type of the source, with every property that the source comes to have. -/
  | sameAs (var source : Nat)
  /-- The first variable is a subtype of the second. -/
  | subtype (sub sup : Nat)
  /-- The variable has a property, or is denied it. -/
  | property (var : Nat) (property : Property) (value : Bool)
  /-- The target has what the source has and the mapping preserves, unless it says otherwise. -/
  | preserve (source target : Nat) (mapping : MappingKind)
  /-- The variable has what the separation rules derive. -/
  | derive (var : Nat)
deriving DecidableEq, Repr

/-- What applying a goal has changed. -/
inductive Effect where
  /-- A variable was bound. -/
  | bound (var : Nat)
  /-- A property was recorded. -/
  | set (var : Nat) (property : Property) (value : Bool)
  /-- Properties were derived by the separation rules. -/
  | derived (var : Nat) (properties : List TopologyProperty)
deriving DecidableEq, Repr

namespace Variables

variable {ρ : Type}

/-- Variables after a change, with the effects of the change in order. -/
abbrev Change (ρ : Type) := Variables ρ × List Effect

/-- The error about a variable that an error for its name makes. A variable that does not exist has
no name. -/
def blame (vars : Variables ρ) (i : Nat) (error : String → InferenceError) : InferenceError :=
  match vars.name i with
  | .ok name => error name
  | .error what => .fault what

/-- Demands that a variable has a property with a value. An unset property is recorded; a variable
that is not bound is left alone, and one that does not exist is a fault. -/
def require (vars : Variables ρ) (i : Nat) (p : Property) (value : Bool) :
    Except InferenceError (Change ρ) :=
  match vars.name i with
  | .error what => .error (.fault what)
  | .ok name =>
    match vars.get? i with
    | none => .ok (vars, [])
    | some t =>
      if t.kind = p.kind then
        match t.value? p with
        | none => .ok (vars.put i (t.record p value), [.set i p value])
        | some known =>
          if known = value then .ok (vars, [])
          else .error (.conflict name (.property p known value))
      else .error (.kindMismatch name p.kind t.kind)

/-- Demands the properties one after another. -/
def requireAll (vars : Variables ρ) (i : Nat) : List (Property × Bool) →
    Except InferenceError (Change ρ)
  | [] => .ok (vars, [])
  | (p, value) :: rest => do
    let (vars, first) ← vars.require i p value
    let (vars, others) ← vars.requireAll i rest
    return (vars, first ++ others)

/-- Records that a topology variable has a property, unless the property has a value. -/
def fill (vars : Variables ρ) (i : Nat) (p : TopologyProperty) : Except InferenceError (Change ρ) :=
  match (vars.get? i).bind fun t => t.value? (.topology p) with
  | some _ => .ok (vars, [])
  | none => vars.require i (.topology p) true

/-- Fills the properties one after another. -/
def fillAll (vars : Variables ρ) (i : Nat) : List TopologyProperty →
    Except InferenceError (Change ρ)
  | [] => .ok (vars, [])
  | p :: rest => do
    let (vars, first) ← vars.fill i p
    let (vars, others) ← vars.fillAll i rest
    return (vars, first ++ others)

/-- The topological properties of the type of a variable, which has to be a topology type. -/
def expectTopology (vars : Variables ρ) (i : Nat) (t : Ty ρ) :
    Except InferenceError (Registry TopologyProperty) :=
  match t.topologyRegistry? with
  | some registry => .ok registry
  | none => .error (vars.blame i fun name => .kindMismatch name .topology t.kind)

/-- What is wrong with the outermost registry of a type. -/
def inconsistency? : Ty ρ → Option Inconsistency
  | .topology _ registry => registry.violatedRule?.map Inconsistency.breaksRule
  | .quantum _ registry => if registry.isCoherent then none else some .incoherent
  | _ => none

/-- Looks for the first variable whose properties contradict each other. -/
def checkConsistent (vars : Variables ρ) : Except InferenceError Unit :=
  match vars.entries.findSome? fun entry =>
      (entry.binding.bind inconsistency?).map fun what => (entry.name, what) with
  | some (name, what) => .error (.inconsistent name what)
  | none => .ok ()

/-- Demands a property of a variable, once it is bound. -/
def applyProperty (vars : Variables ρ) (var : Nat) (p : Property) (value : Bool) :
    Except InferenceError (Change ρ) :=
  match vars.get? var with
  | none => .ok (vars, [])
  | some _ => vars.require var p value

/-- Carries over what a mapping preserves, once both sides are bound. -/
def applyPreserve (vars : Variables ρ) (source target : Nat) (mapping : MappingKind) :
    Except InferenceError (Change ρ) :=
  match vars.get? source, vars.get? target with
  | some s, some t => do
    let registry ← vars.expectTopology source s
    let _ ← vars.expectTopology target t
    vars.fillAll target ((registry.entries.filter fun e =>
      e.2 && mapping.preserves.contains e.1).map Prod.fst)
  | _, _ => .ok (vars, [])

/-- Derives by the separation rules in a topology variable. -/
def applyDerive (vars : Variables ρ) (var : Nat) : Except InferenceError (Change ρ) :=
  match vars.get? var with
  | some (.topology base registry) =>
    let (closed, derived) := registry.saturate
    if derived.isEmpty then .ok (vars, [])
    else .ok (vars.put var (.topology base closed), [.derived var derived])
  | _ => .ok (vars, [])

variable [Meaning ρ] [DecidableEq ρ]

/-- Makes a variable agree with the type of another. -/
def applySameAs (h : Hierarchy) (vars : Variables ρ) (var source : Nat) :
    Except InferenceError (Change ρ) :=
  match vars.get? source with
  | none => .ok (vars, [])
  | some target =>
    match vars.get? var with
    | none =>
      match vars.assign var target with
      | (some fault, _) => .error (.fault fault)
      | (none, vars) => .ok (vars, [.bound var])
    | some current =>
      if current.isSubtype h target && target.isSubtype h current then
        vars.requireAll var target.recorded
      else
        .error (vars.blame var fun name => vars.blame source fun sourceName =>
          .conflict name (.differs current.text sourceName target.text))

/-- Checks that a variable is a subtype of another, once both are bound. -/
def applySubtype (h : Hierarchy) (vars : Variables ρ) (sub sup : Nat) :
    Except InferenceError (Change ρ) :=
  match vars.get? sub, vars.get? sup with
  | some l, some r =>
    if l.isSubtype h r then .ok (vars, [])
    else .error (vars.blame sub fun subName => vars.blame sup fun supName =>
      .notSubtype subName supName)
  | _, _ => .ok (vars, [])

end Variables

/-- Applies a goal once. -/
def Goal.apply {ρ : Type} [Meaning ρ] [DecidableEq ρ] (h : Hierarchy) (vars : Variables ρ) :
    Goal → Except InferenceError (Variables.Change ρ)
  | sameAs var source => vars.applySameAs h var source
  | subtype sub sup => vars.applySubtype h sub sup
  | property var p value => vars.applyProperty var p value
  | preserve source target mapping => vars.applyPreserve source target mapping
  | derive var => vars.applyDerive var

end SpaceTypes
