import SpaceTypes.Registry

/-!
# Checks on quantum states

What a registry of quantum properties says about gates, measurements and entanglement, and when
an operation may lead from one state to another. A registry is coherent unless it records an
entangled state that is denied to be in superposition.
-/

namespace SpaceTypes

/-- The kinds of operation between two quantum states. -/
inductive QuantumOperation where
  | gate
  | measurement
  | evolution
deriving DecidableEq, Repr

namespace Registry

/-- Unitary and coherent. -/
def isGate (r : Registry QuantumProperty) : Bool := r.holds .unitary && r.holds .coherent

/-- Normalized, so that it can be measured. -/
def isMeasurable (r : Registry QuantumProperty) : Bool := r.holds .normalized

/-- Whether entanglement of the source is kept by the target. -/
def keepsEntanglement (source target : Registry QuantumProperty) : Bool :=
  !source.holds .entangled || target.holds .entangled

/-- Whether the state is not at once entangled and denied to be in superposition. -/
def isCoherent (r : Registry QuantumProperty) : Bool :=
  !(r.holds .entangled && r.get? .superposition == some false)

end Registry

/-- Whether the operation may lead from the source to the target. -/
def QuantumOperation.admits (operation : QuantumOperation)
    (source target : Registry QuantumProperty) : Bool :=
  match operation with
  | gate => source.isGate && target.holds .normalized
  | measurement => target.isMeasurable
  | evolution => source.holds .unitary && source.holds .coherent && target.holds .coherent

/-- The operation's name. -/
def QuantumOperation.text : QuantumOperation → String
  | gate => "gate"
  | measurement => "measurement"
  | evolution => "evolution"

/-- The operation of the given name. -/
def QuantumOperation.ofText? (text : String) : Option QuantumOperation :=
  [gate, measurement, evolution].find? fun operation => operation.text == text

end SpaceTypes
