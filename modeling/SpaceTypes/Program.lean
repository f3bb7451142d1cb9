import SpaceTypes.Constraint.System
import SpaceTypes.Program.Collection

/-!
# Checking programs

A program is checked in three steps: its declarations are collected, the types of its spaces and
shapes are inferred, and the mappings and invariants are verified against the inferred types.
Errors end the work; failing constraints and types that are not well formed do not, and are all
part of the result.
-/

namespace SpaceTypes

/-- The result of checking a program. -/
structure Checked (ρ : Type) where
  /-- The types of the declared names. -/
  env : Environment ρ
  /-- A verdict for each mapping, then for each invariant. -/
  report : Report
  /-- The names whose types are not well formed, in order. -/
  illFormed : List String
deriving DecidableEq, Repr

/-- Whether every type is well formed and every constraint holds. -/
def Checked.passed {ρ : Type} (checked : Checked ρ) : Bool :=
  checked.illFormed.isEmpty && checked.report.passed

/-- Inferred types, with the claims that are to be verified against them. -/
structure Inferred (ρ : Type) where
  /-- The inferred types. -/
  solution : Solution ρ
  /-- The mappings to verify. -/
  mappings : List MappingClaim
  /-- The invariants to verify. -/
  invariants : List Invariant
deriving DecidableEq, Repr

namespace Inferred

variable {ρ : Type}

/-- The constraint of a mapping, under the name of the mapping. -/
def mappingEntry (env : Environment ρ) (claim : MappingClaim) : Except AssemblyError (Entry ρ) := do
  let source ← env.lookup claim.source
  let target ← env.lookup claim.target
  let constraint ← Constraint.ofMapping claim.kind source target
  return ⟨some claim.name, constraint⟩

/-- The constraint that an invariant claims. -/
def invariantConstraint (env : Environment ρ) :
    Invariant → Except AssemblyError (Constraint ρ)
  | .subtype sub sup => do
    let sub ← env.lookup sub
    let sup ← env.lookup sup
    return .subtype sub sup
  | .equal left right => do
    let left ← env.lookup left
    let right ← env.lookup right
    return .equal left right
  | .topological name => do
    let t ← env.lookup name
    Constraint.ofTopological t
  | .quantum name => do
    let t ← env.lookup name
    Constraint.ofQuantum t

/-- The constraint of an invariant, under the words of the invariant. -/
def invariantEntry (env : Environment ρ) (claim : Invariant) : Except AssemblyError (Entry ρ) := do
  let constraint ← invariantConstraint env claim
  return ⟨some claim.text, constraint⟩

/-- The constraints of all mappings, then of all invariants. -/
def entries (inferred : Inferred ρ) (env : Environment ρ) :
    Except AssemblyError (List (Entry ρ)) := do
  let mappings ← inferred.mappings.mapM (mappingEntry env)
  let invariants ← inferred.invariants.mapM (invariantEntry env)
  return mappings ++ invariants

variable [Meaning ρ] [DecidableEq ρ]

/-- Verifies the mappings and invariants against the inferred types. -/
def verify (config : Config) (inferred : Inferred ρ) : Except ProgramError (Checked ρ) := do
  let env ← inferred.solution.toEnvironment.mapError ProgramError.assembly
  let entries ← (inferred.entries env).mapError ProgramError.assembly
  let system : ConstraintSystem ρ := { context := config.context, entries }
  let report ← system.check.mapError ProgramError.aborted
  return ⟨env, report, env.illFormed⟩

end Inferred

variable {ρ : Type} [Meaning ρ] [DecidableEq ρ]

/-- Infers the types of the collected declarations. -/
def Collection.infer (config : Config) (c : Collection ρ) : Except ProgramError (Inferred ρ) := do
  let solution ← (c.system.solve config).mapError ProgramError.inference
  return ⟨solution, c.mappings, c.invariants⟩

/-- Collects the declarations of a program and infers their types. -/
def inferProgram (config : Config) (declarations : List Declaration) :
    Except ProgramError (Inferred ρ) :=
  match ({} : Collection ρ).collect config declarations with
  | (_, some error) => .error error
  | (c, none) => c.infer config

/-- Checks a program. -/
def checkProgram (config : Config) (declarations : List Declaration) :
    Except ProgramError (Checked ρ) := do
  let inferred ← inferProgram config declarations
  inferred.verify config

end SpaceTypes
