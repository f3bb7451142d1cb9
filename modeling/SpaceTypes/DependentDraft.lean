import SpaceTypes.AssemblyError

/-!
# Assembling dependent types

A dependent type has four components. A draft holds those that were given so far; giving one again
replaces it. Building reports the first component that is missing.
-/

namespace SpaceTypes

/-- The components of a dependent type given so far. -/
structure DependentDraft (ρ : Type) where
  /-- The type under the layer. -/
  base : Option (Ty ρ) := none
  /-- The predicate on types. -/
  predicate : Option ρ := none
  /-- The topological constraint. -/
  topology : Option ρ := none
  /-- The quantum constraint. -/
  quantum : Option ρ := none

namespace DependentDraft

variable {ρ : Type}

/-- The component if it was given. -/
def demand {α : Type} (component : Component) : Option α → Except AssemblyError α
  | some value => .ok value
  | none => .error (.missingComponent component)

/-- The dependent type, if all of its components were given. -/
def build (draft : DependentDraft ρ) : Except AssemblyError (DependentLayer ρ) := do
  let base ← demand .base draft.base
  let predicate ← demand .predicate draft.predicate
  let topology ← demand .topology draft.topology
  let quantum ← demand .quantum draft.quantum
  return ⟨base, predicate, topology, quantum⟩

end DependentDraft

end SpaceTypes
