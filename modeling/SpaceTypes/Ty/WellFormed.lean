import SpaceTypes.Registry.Separation
import SpaceTypes.Registry.Coherence
import SpaceTypes.Ty

/-!
# Well-formed types

A type is well formed when its base is and its outermost layer is in order: a topology layer is
continuous and breaks no separation rule, a quantum layer is normalized and coherent, and the base
of a dependent layer meets the refinements of the layer.
-/

namespace SpaceTypes

/-- The properties that every well-formed topology layer has. -/
def TopologyLayer.required : List TopologyProperty := [.continuous]

/-- The properties that every well-formed quantum layer has. -/
def QuantumLayer.required : List QuantumProperty := [.normalized]

namespace Registry

/-- Whether a topology layer has all properties it must have. -/
def isContinuous (r : Registry TopologyProperty) : Bool := r.holdsAll TopologyLayer.required

/-- Whether a topology layer with this registry is in order. -/
def isSoundTopology (r : Registry TopologyProperty) : Bool := r.isContinuous && r.respectsRules

/-- Whether a quantum layer with this registry is in order. -/
def isSoundQuantum (r : Registry QuantumProperty) : Bool :=
  r.holdsAll QuantumLayer.required && r.isCoherent

end Registry

namespace Ty

variable {ρ : Type} [Meaning ρ]

/-- Whether every layer of the type is in order. -/
def wellFormed : Ty ρ → Bool
  | basic _ => true
  | topology base registry => base.wellFormed && registry.isSoundTopology
  | quantum base registry => base.wellFormed && registry.isSoundQuantum
  | dependent base clauses => base.wellFormed && clauses.hold base

end Ty

end SpaceTypes
