import SpaceTypes.Failure
import SpaceTypes.Ty.Subtype
import SpaceTypes.Ty.WellFormed

/-!
# Checking types

A context holds what a check needs beside the types: the hierarchy of basic names and the way to
report failures. `Context.check` is the detailed form of `Ty.wellFormed`. It looks at the base
first, then at the properties that the outermost layer must have, then at the rules of the layer,
and reports the first thing that is not in order.
-/

namespace SpaceTypes

/-- The hierarchy of basic names, and how failures are reported. -/
structure Context where
  /-- The order of the basic names. -/
  hierarchy : Hierarchy
  /-- How failures are reported. -/
  reporting : Reporting
deriving DecidableEq, Repr

namespace Context

variable {ρ : Type} (ctx : Context)

/-- Reports a failure. -/
def fail (failure : Failure) : Outcome := ctx.reporting.fail failure

/-- Holds if the test does, and otherwise reports the failure. -/
def demand (test : Bool) (failure : Failure) : Outcome :=
  if test then .holds else ctx.fail failure

/-- Holds if nothing is missing. -/
def demandNone (subject : String) (missing : List Missing) : Outcome :=
  ctx.demand missing.isEmpty (.lacks subject missing)

/-- Checks that a topology type has the properties. -/
def requireTopology (t : TopologyLayer ρ) (properties : List TopologyProperty) : Outcome :=
  ctx.demandNone t.toTy.text (t.registry.missing properties)

/-- Checks that a quantum type has the properties. -/
def requireQuantum (t : QuantumLayer ρ) (properties : List QuantumProperty) : Outcome :=
  ctx.demandNone t.toTy.text (t.registry.missing properties)

/-- Checks that no separation rule is broken. -/
def demandRules (subject : String) (registry : Registry TopologyProperty) : Outcome :=
  match registry.violatedRule? with
  | none => .holds
  | some rule => ctx.fail (.breaksRule subject rule)

variable [Meaning ρ]

/-- Checks that a type meets the refinements. -/
def demandClauses (subject : String) (clauses : Clauses ρ) (t : Ty ρ) : Outcome :=
  match clauses.failing? t with
  | none => .holds
  | some clause => ctx.fail (.refinement subject clause)

/-- Checks that every layer of the type is in order. -/
def check : Ty ρ → Outcome
  | .basic _ => .holds
  | .topology base registry =>
    let layer : TopologyLayer ρ := ⟨base, registry⟩
    ((check base).within ctx.reporting (.inBase layer.toTy.text)).andThen
      ((ctx.requireTopology layer TopologyLayer.required).andThen
        (ctx.demandRules layer.toTy.text registry))
  | .quantum base registry =>
    let layer : QuantumLayer ρ := ⟨base, registry⟩
    ((check base).within ctx.reporting (.inBase layer.toTy.text)).andThen
      ((ctx.requireQuantum layer QuantumLayer.required).andThen
        (ctx.demand registry.isCoherent (.incoherent layer.toTy.text)))
  | .dependent base clauses =>
    let subject := (Ty.dependent base clauses).text
    ((check base).within ctx.reporting (.inBase subject)).andThen
      (ctx.demandClauses subject clauses base)

/-- Checks that both sides of a mapping have what its kind requires. -/
def checkMapping (kind : MappingKind) (source target : TopologyLayer ρ) : Outcome :=
  ctx.demand (kind.admits source.registry target.registry)
    (.mapping kind source.toTy.text target.toTy.text
      (source.registry.missing [kind.requirement] ++ target.registry.missing [kind.requirement]))

variable [DecidableEq ρ]

/-- Checks that the first type is a subtype of the second. -/
def checkSubtype (sub sup : Ty ρ) : Outcome :=
  ctx.demand (sub.isSubtype ctx.hierarchy sup) (.notSubtype sub.text sup.text)

end Context

end SpaceTypes
