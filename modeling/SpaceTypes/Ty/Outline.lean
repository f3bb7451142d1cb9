import SpaceTypes.Text.Quoted
import SpaceTypes.Ty

/-!
# Outlines of types

An outline shows the whole structure of a type: the kind of every layer, its base and its
registry. The refinements of a dependent layer have no text, and an ellipsis stands for them.
-/

namespace SpaceTypes.Ty

variable {ρ : Type}

/-- The type with all of its layers and registries. -/
def outline : Ty ρ → String
  | basic name => "Basic(BasicType \x7b name: " ++ Text.quoted name ++ " \x7d)"
  | topology base registry =>
    "Topology(TopologyType \x7b base: " ++ base.outline ++ ", traits: " ++ registry.outline ++
      " \x7d)"
  | quantum base registry =>
    "Quantum(QuantumType \x7b base: " ++ base.outline ++ ", traits: " ++ registry.outline ++
      " \x7d)"
  | dependent base _ => "Dependent(DependentType \x7b base: " ++ base.outline ++ ", .. \x7d)"

end SpaceTypes.Ty
