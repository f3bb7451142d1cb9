import SpaceTypes.Ty.WellFormed

/-!
# Refinements

The refinements in use. A condition is a description of a predicate on types; a refinement is a
condition with an identity, so that two refinements made from the same condition are still
different. `Supply` hands out the identities.

A condition may ask whether a type is well formed, which for a dependent type depends on the
conditions in it. `settled` therefore decides whether a type is well formed from the verdict on its
base, and conditions are read with the verdict on the type at hand (`Condition.holdsGiven`).
`wellFormed_eq_settled` says that this agrees with `Ty.wellFormed`, so that a condition asks for
what it seems to ask for (`holds_verifies`).
-/

namespace SpaceTypes

/-- A predicate on types, described. -/
inductive Condition where
  /-- Met by every type. -/
  | always
  /-- Met by no type. -/
  | never
  /-- Met by the types that meet both. -/
  | both (first second : Condition)
  /-- Met by the topology types that have all of the properties. -/
  | topologyHas (properties : List TopologyProperty)
  /-- Met by the quantum types that have all of the properties. -/
  | quantumHas (properties : List QuantumProperty)
  /-- Met by the types of one kind. -/
  | kindIs (kind : Kind)
  /-- Met by the types that are written in one way. -/
  | textIs (text : String)
  /-- Met by the types over one basic name. -/
  | innermostIs (name : String)
  /-- Met by the types that are well formed, or by those that are not. -/
  | verifies (expected : Bool)
deriving DecidableEq, Repr

/-- Met by the types that meet all of the conditions. -/
def Condition.allOf (conditions : List Condition) : Condition := conditions.foldr both always

/-- A condition with an identity. -/
structure Refinement where
  /-- What tells apart refinements with one condition. -/
  identity : Nat
  /-- What the refinement demands. -/
  condition : Condition
deriving DecidableEq, Repr

namespace Condition

/-- Whether a type meets the condition, given whether the type is well formed. -/
def holdsGiven (sound : Bool) (t : Ty Refinement) : Condition → Bool
  | always => true
  | never => false
  | both first second => first.holdsGiven sound t && second.holdsGiven sound t
  | topologyHas properties =>
    match t.topologyRegistry? with
    | some registry => registry.holdsAll properties
    | none => false
  | quantumHas properties =>
    match t.quantumRegistry? with
    | some registry => registry.holdsAll properties
    | none => false
  | kindIs kind => t.kind == kind
  | textIs text => t.text == text
  | innermostIs name => t.innermost == name
  | verifies expected => sound == expected

end Condition

namespace Refinement

/-- Whether every layer of the type is in order, with the refinements of a dependent layer read
with the verdict on its base. -/
def settled : Ty Refinement → Bool
  | .basic _ => true
  | .topology base registry => settled base && registry.isSoundTopology
  | .quantum base registry => settled base && registry.isSoundQuantum
  | .dependent base clauses =>
    let sound := settled base
    sound && (clauses.predicate.condition.holdsGiven sound base &&
      clauses.topology.condition.holdsGiven sound base &&
      clauses.quantum.condition.holdsGiven sound base)

end Refinement

/-- Whether a type meets the condition. -/
def Condition.holds (condition : Condition) (t : Ty Refinement) : Bool :=
  condition.holdsGiven (Refinement.settled t) t

instance : Meaning Refinement where
  holds refinement t := refinement.condition.holds t

theorem Refinement.wellFormed_eq_settled (t : Ty Refinement) :
    t.wellFormed = Refinement.settled t := by
  induction t with
  | basic name => rfl
  | topology base registry ih => simp [Ty.wellFormed, settled, ih]
  | quantum base registry ih => simp [Ty.wellFormed, settled, ih]
  | dependent base clauses ih =>
    simp only [Ty.wellFormed, settled, ih, Clauses.hold, Meaning.holds, Condition.holds]

/-- The condition on well-formedness asks for what it says. -/
theorem Condition.holds_verifies (expected : Bool) (t : Ty Refinement) :
    (verifies expected).holds t = (t.wellFormed == expected) := by
  rw [Refinement.wellFormed_eq_settled]; rfl

/-! ## New refinements -/

/-- The next unused identity. -/
abbrev Supply := StateM Nat

/-- A refinement that differs from all made before. -/
def Refinement.fresh (condition : Condition) : Supply Refinement := do
  let identity ← get
  set (identity + 1)
  return ⟨identity, condition⟩

namespace DependentLayer

/-- A base refined in the quantum dimension only. -/
def quantumOnly (base : Ty Refinement) (quantum : Refinement) :
    Supply (DependentLayer Refinement) := do
  let predicate ← Refinement.fresh .always
  let topology ← Refinement.fresh .always
  return ⟨base, predicate, topology, quantum⟩

/-- A base refined in the topological dimension only. -/
def topologyOnly (base : Ty Refinement) (topology : Refinement) :
    Supply (DependentLayer Refinement) := do
  let predicate ← Refinement.fresh .always
  let quantum ← Refinement.fresh .always
  return ⟨base, predicate, topology, quantum⟩

/-- A base that has to meet every topological and every quantum condition. -/
def composite (base : Ty Refinement) (topology quantum : List Condition) :
    Supply (DependentLayer Refinement) := do
  let predicate ← Refinement.fresh .always
  let topology ← Refinement.fresh (.allOf topology)
  let quantum ← Refinement.fresh (.allOf quantum)
  return ⟨base, predicate, topology, quantum⟩

/-- A base under a dependent layer that every type meets. -/
def unconstrained (base : Ty Refinement) : Supply (DependentLayer Refinement) := do
  let predicate ← Refinement.fresh .always
  let topology ← Refinement.fresh .always
  let quantum ← Refinement.fresh .always
  return ⟨base, predicate, topology, quantum⟩

end DependentLayer

end SpaceTypes
