import SpaceTypes.Environment
import SpaceTypes.Inference.Goal

/-!
# Solutions

The result of inference: the variables, all bound, and the path of effects that led to them.
-/

namespace SpaceTypes

/-- An effect with the pass and the goal it belongs to. -/
structure Step where
  /-- The number of the pass. -/
  pass : Nat
  /-- The number of the goal. -/
  goal : Nat
  /-- What changed. -/
  effect : Effect
deriving DecidableEq, Repr

/-- Bound variables, and how they came to be bound. -/
structure Solution (ρ : Type) where
  /-- The variables with their types. -/
  vars : Variables ρ
  /-- The effects of all goals, in the order in which they happened. -/
  path : List Step
deriving DecidableEq, Repr

namespace Solution

variable {ρ : Type}

/-- Defines the names of the variables, in the order of their numbers. -/
def define (env : Environment ρ) : List (Variable ρ) → Except AssemblyError (Environment ρ)
  | [] => .ok env
  | entry :: rest =>
    match entry.binding with
    | none => define env rest
    | some t => do
      let env ← env.add entry.name t
      define env rest

/-- The variables as an environment, if their names are different. -/
def toEnvironment (solution : Solution ρ) : Except AssemblyError (Environment ρ) :=
  define .empty solution.vars.entries

/-- An effect in words. -/
def effectText (vars : Variables ρ) : Effect → String
  | .bound var => "bound " ++ vars.nameOf var
  | .set var p value => vars.nameOf var ++ "." ++ p.name ++ " = " ++ valueText value
  | .derived var properties =>
    vars.nameOf var ++ " derives " ++ ", ".intercalate (properties.map TopologyProperty.name)

/-- The variables, and a line for each step of the path. -/
def text (solution : Solution ρ) : String :=
  solution.vars.text ++ "\n" ++ Text.Colour.green.paint "via" ++
    String.join (solution.path.map fun step =>
      "\n  " ++ toString step.pass ++ " " ++ Text.Colour.purple.paint "|" ++ " " ++
        effectText solution.vars step.effect)

end Solution

end SpaceTypes
