import SpaceTypes.Config
import SpaceTypes.Inference.Solution

/-!
# Inference

A goal system is a table of variables with a list of goals. Inference applies the goals in order,
pass after pass, until a pass changes nothing. After each pass every variable is looked at for
contradictory properties. When nothing changes any more, either all variables are bound and the
system is solved, or the rest cannot be inferred.

A pass that changes something binds a variable or records a property that was unset, so the number
of variables and of properties bounds the number of passes (`GoalSystem.passBound`).
-/

namespace SpaceTypes

/-- Variables with the goals on them. -/
structure GoalSystem (ρ : Type) where
  /-- The variables. -/
  vars : Variables ρ := .empty
  /-- The goals, in the order in which they are applied. -/
  goals : List Goal := []
deriving DecidableEq, Repr

namespace GoalSystem

variable {ρ : Type}

/-- The system with a new variable, whose number is the number of variables before. -/
def spawn (system : GoalSystem ρ) (name : String) (binding : Option (Ty ρ)) : GoalSystem ρ :=
  { system with vars := system.vars.spawn name binding }

/-- Binds a variable that is not bound. -/
def assign (system : GoalSystem ρ) (var : Nat) (t : Ty ρ) :
    Except InferenceError (GoalSystem ρ) :=
  match system.vars.get? var with
  | some existing =>
    .error (system.vars.blame var fun name => .conflict name (.bound existing.text t.text))
  | none =>
    match system.vars.assign var t with
    | (some fault, _) => .error (.fault fault)
    | (none, vars) => .ok { system with vars }

/-- The system with another goal at the end. -/
def addGoal (system : GoalSystem ρ) (goal : Goal) : GoalSystem ρ :=
  { system with goals := system.goals ++ [goal] }

/-- A number of passes that is always enough: one for each variable that may be bound and each
property that may be recorded, and one more for each goal and to see that nothing changes. -/
def passBound (system : GoalSystem ρ) : Nat :=
  system.vars.size * (1 + TopologyProperty.all.length + QuantumProperty.all.length) +
    system.goals.length + 1

variable [Meaning ρ] [DecidableEq ρ]

/-- Applies the goals in order, the first of them numbered `index`. -/
def applyAll (h : Hierarchy) (pass : Nat) (index : Nat) (vars : Variables ρ) :
    List Goal → Except InferenceError (Variables ρ × List Step)
  | [] => .ok (vars, [])
  | goal :: rest => do
    let (vars, effects) ← goal.apply h vars
    let (vars, steps) ← applyAll h pass (index + 1) vars rest
    return (vars, effects.map (fun effect => ⟨pass, index, effect⟩) ++ steps)

/-- A solution, if every variable is bound. -/
def conclude (vars : Variables ρ) (path : List Step) : Except InferenceError (Solution ρ) :=
  if vars.freeNames.isEmpty then .ok ⟨vars, path⟩ else .error (.unresolved vars.freeNames)

/-- Makes passes over the goals until one changes nothing, at most `remaining` more after `pass`
passes that led to `vars` by `path`. -/
def iterate (h : Hierarchy) (goals : List Goal) : (remaining : Nat) → (pass : Nat) →
    Variables ρ → List Step → Except InferenceError (Solution ρ)
  | 0, pass, _, _ => .error (.notConverged pass)
  | remaining + 1, pass, vars, path => do
    let (vars, steps) ← applyAll h pass 0 vars goals
    vars.checkConsistent
    if steps.isEmpty then conclude vars path
    else iterate h goals remaining (pass + 1) vars (path ++ steps)

/-- Infers the types of the variables. -/
def solve (config : Config) (system : GoalSystem ρ) : Except InferenceError (Solution ρ) :=
  iterate config.hierarchy system.goals (config.passLimit.getD system.passBound) 0
    system.vars []

end GoalSystem

end SpaceTypes
