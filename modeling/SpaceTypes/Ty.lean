import SpaceTypes.Registry

/-!
# Types

A type is a chain of layers over a basic name. A topology layer and a quantum layer carry a
registry of properties; a dependent layer carries three refinements that its base has to meet.

Refinements are drawn from a type `ρ` of the caller's choice: two refinements are the same exactly
when they are equal, and an instance of `Meaning ρ` says which types meet which of them. Whatever
is proved for all `ρ` and all meanings holds for arbitrary predicates on types.
-/

namespace SpaceTypes

/-- The kinds of layer. -/
inductive Kind where
  | basic
  | topology
  | quantum
  | dependent
deriving DecidableEq, Repr

/-- All kinds of layer. -/
def Kind.all : List Kind := [basic, topology, quantum, dependent]

/-- The kind in one word. -/
def Kind.text : Kind → String
  | basic => "basic"
  | topology => "topology"
  | quantum => "quantum"
  | dependent => "dependent"

/-- The kind whose word is given. -/
def Kind.ofText? (text : String) : Option Kind := all.find? fun kind => kind.text == text

/-- The kind of the types that can have a property. -/
def Property.kind : Property → Kind
  | topology _ => .topology
  | quantum _ => .quantum

/-- The three refinements of a dependent layer. -/
structure Clauses (ρ : Type) where
  /-- A predicate on types. -/
  predicate : ρ
  /-- A topological constraint. -/
  topology : ρ
  /-- A quantum constraint. -/
  quantum : ρ
deriving DecidableEq, Repr

/-- A type over refinements from `ρ`. -/
inductive Ty (ρ : Type) where
  /-- A name without refinement. -/
  | basic (name : String)
  /-- A base with topological properties. -/
  | topology (base : Ty ρ) (registry : Registry TopologyProperty)
  /-- A base with quantum properties. -/
  | quantum (base : Ty ρ) (registry : Registry QuantumProperty)
  /-- A base that has to meet three refinements. -/
  | dependent (base : Ty ρ) (clauses : Clauses ρ)
deriving DecidableEq, Repr

/-- Which types meet which refinements. -/
class Meaning (ρ : Type) where
  /-- Whether the type meets the refinement. -/
  holds : ρ → Ty ρ → Bool

/-- The parts of a dependent layer that a type may fail. -/
inductive Clause where
  | predicate
  | topology
  | quantum
deriving DecidableEq, Repr

/-- The part as an adjective. -/
def Clause.text : Clause → String
  | predicate => "predicate"
  | topology => "topological"
  | quantum => "quantum"

namespace Clauses

variable {ρ : Type} [Meaning ρ]

/-- Whether the type meets all three refinements. -/
def hold (clauses : Clauses ρ) (t : Ty ρ) : Bool :=
  Meaning.holds clauses.predicate t && Meaning.holds clauses.topology t &&
    Meaning.holds clauses.quantum t

/-- The first part that the type fails. -/
def failing? (clauses : Clauses ρ) (t : Ty ρ) : Option Clause :=
  if !Meaning.holds clauses.predicate t then some .predicate
  else if !Meaning.holds clauses.topology t then some .topology
  else if !Meaning.holds clauses.quantum t then some .quantum
  else none

theorem failing?_eq_none_iff {clauses : Clauses ρ} {t : Ty ρ} :
    clauses.failing? t = none ↔ clauses.hold t = true := by
  simp only [failing?, hold]
  cases Meaning.holds clauses.predicate t <;> cases Meaning.holds clauses.topology t <;>
    cases Meaning.holds clauses.quantum t <;> simp

end Clauses

/-- What a value of a type is represented by at run time. -/
inductive Representation where
  | classical
  | topological
  | quantum
deriving DecidableEq, Repr

/-- The representation in one word. -/
def Representation.text : Representation → String
  | classical => "classical"
  | topological => "topological"
  | quantum => "quantum"

namespace Ty

variable {ρ : Type}

instance : Inhabited (Ty ρ) := ⟨basic ""⟩

/-! ## Layers -/

/-- The kind of the outermost layer. -/
def kind : Ty ρ → Kind
  | basic _ => .basic
  | topology _ _ => .topology
  | quantum _ _ => .quantum
  | dependent _ _ => .dependent

/-- The basic name, or the name of the outermost layer. -/
def name : Ty ρ → String
  | basic name => name
  | topology _ _ => "Topology"
  | quantum _ _ => "Quantum"
  | dependent _ _ => "Dependent"

/-- What the outermost layer is over. -/
def base? : Ty ρ → Option (Ty ρ)
  | basic _ => none
  | topology base _ => some base
  | quantum base _ => some base
  | dependent base _ => some base

/-- The type and all of its bases, outermost first. -/
def chain : Ty ρ → List (Ty ρ)
  | basic name => [basic name]
  | topology base registry => topology base registry :: base.chain
  | quantum base registry => quantum base registry :: base.chain
  | dependent base clauses => dependent base clauses :: base.chain

/-- The basic name under all layers. -/
def innermost : Ty ρ → String
  | basic name => name
  | topology base _ => base.innermost
  | quantum base _ => base.innermost
  | dependent base _ => base.innermost

/-- Quantum if any layer is, otherwise topological if any layer is. -/
def representation (t : Ty ρ) : Representation :=
  if t.chain.any fun layer => layer.kind == .quantum then .quantum
  else if t.chain.any fun layer => layer.kind == .topology then .topological
  else .classical

/-! ## The outermost registry -/

/-- The topological properties of the outermost layer. -/
def topologyRegistry? : Ty ρ → Option (Registry TopologyProperty)
  | topology _ registry => some registry
  | _ => none

/-- The quantum properties of the outermost layer. -/
def quantumRegistry? : Ty ρ → Option (Registry QuantumProperty)
  | quantum _ registry => some registry
  | _ => none

/-- The value that the outermost layer records for a property. -/
def value? : Ty ρ → Property → Option Bool
  | topology _ registry, .topology p => registry.get? p
  | quantum _ registry, .quantum p => registry.get? p
  | _, _ => none

/-- Records a property in the outermost layer, if that layer is of the property's kind. -/
def record : Ty ρ → Property → Bool → Ty ρ
  | topology base registry, .topology p, v => topology base (registry.set p v)
  | quantum base registry, .quantum p, v => quantum base (registry.set p v)
  | t, _, _ => t

/-- The properties that the outermost layer records, in order. -/
def recorded : Ty ρ → List (Property × Bool)
  | topology _ registry => registry.entries.map fun e => (.topology e.1, e.2)
  | quantum _ registry => registry.entries.map fun e => (.quantum e.1, e.2)
  | _ => []

@[simp]
theorem kind_record (t : Ty ρ) (p : Property) (v : Bool) : (t.record p v).kind = t.kind := by
  cases t <;> cases p <;> rfl

theorem value?_record_self {t : Ty ρ} {p : Property} (h : t.kind = p.kind) (v : Bool) :
    (t.record p v).value? p = some v := by
  cases t <;> cases p <;> simp_all [kind, Property.kind, record, value?]

/-! ## Printing -/

/-- The properties of the outermost layer in words, if the layer has properties. -/
def registryText? : Ty ρ → Option String
  | topology _ registry => some registry.text
  | quantum _ registry => some registry.text
  | _ => none

/-- The type as it is written: layers as names with their base in angle brackets. -/
def text : Ty ρ → String
  | basic name => name
  | topology base _ => "Topology<" ++ base.text ++ ">"
  | quantum base _ => "Quantum<" ++ base.text ++ ">"
  | dependent base _ => "Dependent<" ++ base.text ++ ">"

end Ty

/-! ## Types with a known outermost layer -/

/-- A topology layer with its base. -/
structure TopologyLayer (ρ : Type) where
  /-- The type under the layer. -/
  base : Ty ρ
  /-- The properties of the layer. -/
  registry : Registry TopologyProperty
deriving DecidableEq, Repr

/-- A quantum layer with its base. -/
structure QuantumLayer (ρ : Type) where
  /-- The type under the layer. -/
  base : Ty ρ
  /-- The properties of the layer. -/
  registry : Registry QuantumProperty
deriving DecidableEq, Repr

/-- A dependent layer with its base. -/
structure DependentLayer (ρ : Type) where
  /-- The type under the layer. -/
  base : Ty ρ
  /-- The refinements of the layer. -/
  clauses : Clauses ρ
deriving DecidableEq, Repr

variable {ρ : Type}

/-- The layer as a type. -/
def TopologyLayer.toTy (layer : TopologyLayer ρ) : Ty ρ := .topology layer.base layer.registry

/-- The layer as a type. -/
def QuantumLayer.toTy (layer : QuantumLayer ρ) : Ty ρ := .quantum layer.base layer.registry

/-- The layer as a type. -/
def DependentLayer.toTy (layer : DependentLayer ρ) : Ty ρ := .dependent layer.base layer.clauses

namespace Ty

/-- The outermost layer, if it is a topology layer. -/
def topologyLayer? : Ty ρ → Option (TopologyLayer ρ)
  | topology base registry => some ⟨base, registry⟩
  | _ => none

/-- The outermost layer, if it is a quantum layer. -/
def quantumLayer? : Ty ρ → Option (QuantumLayer ρ)
  | quantum base registry => some ⟨base, registry⟩
  | _ => none

/-- The outermost layer, if it is a dependent layer. -/
def dependentLayer? : Ty ρ → Option (DependentLayer ρ)
  | dependent base clauses => some ⟨base, clauses⟩
  | _ => none

end Ty

end SpaceTypes
