import SpaceTypes.Registry

/-!
# Separation rules

Implications between the separation axioms and the covering properties. A registry breaks a rule
when the antecedents of the rule hold and its consequent is denied (`violatedRule?`). Where the
consequent is unset instead, the rule derives it: `saturate` derives until no rule applies, always
by the first rule that does, and reports what it derived in order. Denied properties are left
alone.
-/

namespace SpaceTypes

/-- When all antecedents hold, so must the consequent. -/
structure Rule where
  /-- The properties that together force the consequent. -/
  antecedents : List TopologyProperty
  /-- The property they force. -/
  consequent : TopologyProperty
deriving DecidableEq, Repr

namespace Rule

/-- The antecedents joined by `&`, an arrow, and the consequent. -/
def text (rule : Rule) : String :=
  " & ".intercalate (rule.antecedents.map TopologyProperty.name) ++ " => " ++ rule.consequent.name

/-- Whether all antecedents hold. -/
def fires (rule : Rule) (r : Registry TopologyProperty) : Bool := r.holdsAll rule.antecedents

/-- Whether the rule fires on a registry that denies its consequent. -/
def violatedBy (rule : Rule) (r : Registry TopologyProperty) : Bool :=
  rule.fires r && r.get? rule.consequent == some false

/-- Whether the rule fires on a registry in which its consequent is unset. -/
def derivesIn (rule : Rule) (r : Registry TopologyProperty) : Bool :=
  rule.fires r && r.get? rule.consequent == none

end Rule

/-- The implications between separation axioms and covering properties, in the order in which
they are tried. -/
def separationRules : List Rule :=
  [⟨[.t2], .t1⟩,
   ⟨[.t1], .t0⟩,
   ⟨[.hausdorff], .t2⟩,
   ⟨[.t2], .hausdorff⟩,
   ⟨[.metrizable], .hausdorff⟩,
   ⟨[.metrizable], .normal⟩,
   ⟨[.metrizable], .paracompact⟩,
   ⟨[.normal, .t1], .regular⟩,
   ⟨[.compact], .paracompact⟩,
   ⟨[.compact], .locallyCompact⟩,
   ⟨[.paracompact, .hausdorff], .normal⟩]

namespace Registry

/-- The first rule whose antecedents hold while its consequent is denied. -/
def violatedRule? (r : Registry TopologyProperty) : Option Rule :=
  separationRules.find? fun rule => rule.violatedBy r

/-- Whether no separation rule is broken. -/
def respectsRules (r : Registry TopologyProperty) : Bool := r.violatedRule?.isNone

/-- The first rule that has something to derive. -/
def nextRule? (r : Registry TopologyProperty) : Option Rule :=
  separationRules.find? fun rule => rule.derivesIn r

/-- At most `bound` derivations, with the derived properties in order. -/
def deriveUpTo : (bound : Nat) → Registry TopologyProperty →
    Registry TopologyProperty × List TopologyProperty
  | 0, r => (r, [])
  | bound + 1, r =>
    match r.nextRule? with
    | none => (r, [])
    | some rule =>
      let (closed, derived) := deriveUpTo bound (r.set rule.consequent true)
      (closed, rule.consequent :: derived)

/-- Derives by the separation rules until none applies, with the derived properties in order. Each
derivation sets a property that was unset, so there are no more derivations than properties. -/
def saturate (r : Registry TopologyProperty) :
    Registry TopologyProperty × List TopologyProperty :=
  r.deriveUpTo TopologyProperty.all.length

/-! ## Checks on spaces -/

/-- Connected and continuous. -/
def isPathConnected (r : Registry TopologyProperty) : Bool :=
  r.holds .connected && r.holds .continuous

/-- Hausdorff and metrizable. -/
def isManifold (r : Registry TopologyProperty) : Bool :=
  r.holds .hausdorff && r.holds .metrizable

/-- Whether a registry passes all of the given tests. -/
def passesAll (r : Registry TopologyProperty) (tests : List (Registry TopologyProperty → Bool)) :
    Bool :=
  tests.all fun test => test r

end Registry

end SpaceTypes
