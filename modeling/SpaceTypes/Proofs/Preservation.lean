import SpaceTypes.Proofs.Accepted
import SpaceTypes.Refinement

/-!
# What mappings preserve

A mapping carries properties of its source over to its target, and verification asks for one
property only, the one that its kind requires. What the declarations deny to the target is not
carried over, so that a program may pass with a homeomorphism from a connected space to one that is
declared not to be.

Apart from such denials the mappings of a passing program preserve: what the kind preserves and the
source has, the target has as well.
-/

namespace SpaceTypes

open Declaration

variable {ρ : Type} [Meaning ρ] [DecidableEq ρ] {config : Config} {items : List Scoped}
  {c : Collection ρ} {solution : Solution ρ}

/-- The goal of a declared mapping. -/
theorem Solved.preserve_mem_goals (h : Solved config items c solution) {scope : Option String}
    {name kind source target : String}
    (hmem : (scope, .mapping name kind source target) ∈ items) :
    ∃ k i j, MappingKind.ofName? kind = some k ∧ c.names.find? source = some i ∧
      c.names.find? target = some j ∧ .preserve i j k ∈ c.system.goals ∧
      ⟨name, k, source, target⟩ ∈ c.mappings := by
  obtain ⟨⟨k, hk⟩, ⟨i, hi⟩, j, hj⟩ := h.collected.admissible _ hmem
  refine ⟨k, i, j, hk, hi, hj, h.collected.mem_goals_iff.2 (Or.inl ⟨_, hmem, .preserve hk hi hj⟩),
    ?_⟩
  rw [h.collected.mappings_eq]
  exact List.mem_filterMap.2 ⟨_, hmem, by simp [mappingClaim?, hk]⟩

/-- What a mapping preserves and its source has, its target has or is denied. -/
theorem Solved.value?_of_preserved (h : Solved config items c solution) {target : String}
    {i j : Nat} {k : MappingKind} (hj : c.names.find? target = some j)
    (hgoal : .preserve i j k ∈ c.system.goals) {base base' : Ty ρ}
    {r r' : Registry TopologyProperty} (hs : solution.vars.get? i = some (.topology base r))
    (ht : solution.vars.get? j = some (.topology base' r')) {p : TopologyProperty}
    (hp : p ∈ k.preserves) (hheld : r.get? p = some true) :
    (¬Denies items target (.topology p) → r'.get? p = some true) ∧
      (Denies items target (.topology p) → r'.get? p = some false) := by
  have hdenied : r'.get? p = some false ↔ Denies items target (.topology p) :=
    h.value?_eq_false_iff (p := .topology p) hj ht
  obtain ⟨_, _, _, _, hs', ht', hcarried⟩ := h.holds _ hgoal
  rw [hs] at hs'
  rw [ht] at ht'
  cases hs'
  cases ht'
  refine ⟨fun hnot => ?_, hdenied.2⟩
  exact eq_some_true (hcarried p hp hheld) fun hfalse => hnot (hdenied.1 hfalse)

/-- In a program whose constraints all hold, every mapping has the required property on both
sides, and a property that its kind preserves and its source has is true in its target unless the
declarations deny it there, in which case it is false. -/
theorem passed_preserves_unless_denied {declarations : List Declaration} {checked : Checked ρ}
    (hcheck : checkProgram config declarations = .ok checked)
    (hpassed : checked.report.passed = true) {scope : Option String}
    {name kind source target : String}
    (hmem : (scope, .mapping name kind source target) ∈ flattenAll none declarations) :
    ∃ k, MappingKind.ofName? kind = some k ∧ ∃ s t : TopologyLayer ρ,
      checked.env.find? source = some s.toTy ∧ checked.env.find? target = some t.toTy ∧
      s.registry.get? k.requirement = some true ∧ t.registry.get? k.requirement = some true ∧
      ∀ p ∈ k.preserves, s.registry.get? p = some true →
        (¬Denies (flattenAll none declarations) target (.topology p) →
          t.registry.get? p = some true) ∧
        (Denies (flattenAll none declarations) target (.topology p) →
          t.registry.get? p = some false) := by
  obtain ⟨c, solution, -, h, hverify⟩ := solved_of_checkProgram hcheck
  obtain ⟨k, i, j, hk, hi, hj, hgoal, hclaim⟩ := h.preserve_mem_goals hmem
  obtain ⟨s, t, hs, ht, hadmits⟩ := Inferred.admits_of_passed hverify hpassed hclaim
  obtain ⟨hsource, htarget⟩ := Bool.and_eq_true_iff.1 hadmits
  obtain ⟨henv, -⟩ := Inferred.verify_eq_ok hverify
  refine ⟨k, hk, s, t, hs, ht, Registry.holds_iff.1 hsource, Registry.holds_iff.1 htarget, ?_⟩
  intro p hp hheld
  exact h.value?_of_preserved hj hgoal ((h.find?_eq_some_iff henv hi).1 hs)
    ((h.find?_eq_some_iff henv hj).1 ht) hp hheld

/-- A homeomorphism onto a shape, which has its type from a space that is not connected. -/
def ontoShape : List Declaration :=
  [.space "a" (.layer .topology (.basic "real"))
      [.property "continuous" true, .property "connected" true, .property "metrizable" true],
    .mapping "f" "homeomorphism" "a" "c",
    .space "b" (.layer .topology (.basic "real"))
      [.property "connected" false, .property "continuous" true, .shape "c" none []]]

theorem ontoShape_preserves_unless_denied : ∃ checked : Checked Refinement,
    checkProgram {} ontoShape = .ok checked ∧ checked.report.passed = true ∧
    (none, .mapping "f" "homeomorphism" "a" "c") ∈ flattenAll none ontoShape ∧
    ∃ k, MappingKind.ofName? "homeomorphism" = some k ∧ ∃ s t : TopologyLayer Refinement,
      checked.env.find? "a" = some s.toTy ∧ checked.env.find? "c" = some t.toTy ∧
      s.registry.get? k.requirement = some true ∧ t.registry.get? k.requirement = some true ∧
      ∀ p ∈ k.preserves, s.registry.get? p = some true →
        (¬Denies (flattenAll none ontoShape) "c" (.topology p) → t.registry.get? p = some true) ∧
        (Denies (flattenAll none ontoShape) "c" (.topology p) →
          t.registry.get? p = some false) := by
  obtain ⟨checked, hcheck, hpassed⟩ : ∃ checked : Checked Refinement,
      checkProgram {} ontoShape = .ok checked ∧ checked.report.passed = true := by
    simp only [← mem_toOption_iff]
    decide +kernel
  have hmem : (none, .mapping "f" "homeomorphism" "a" "c") ∈ flattenAll none ontoShape := by
    decide
  exact ⟨checked, hcheck, hpassed, hmem, passed_preserves_unless_denied hcheck hpassed hmem⟩

/-- A homeomorphism from a connected space to one that is not. -/
def ontoDisconnected : List Declaration :=
  [.space "a" (.layer .topology (.basic "real"))
      [.property "continuous" true, .property "connected" true],
    .space "b" (.layer .topology (.basic "real"))
      [.property "continuous" true, .property "connected" false],
    .mapping "f" "homeomorphism" "a" "b"]

/-- A homeomorphism requires continuity, and passes where its target is declared not to be
connected. -/
theorem homeomorphism_loses_connectedness : ∃ checked : Checked Refinement,
    checkProgram {} ontoDisconnected = .ok checked ∧ checked.passed = true ∧
    .connected ∈ MappingKind.homeomorphism.preserves ∧
    ∃ s t : TopologyLayer Refinement, checked.env.find? "a" = some s.toTy ∧
      checked.env.find? "b" = some t.toTy ∧ s.registry.get? .connected = some true ∧
      t.registry.get? .connected = some false := by
  let s : TopologyLayer Refinement :=
    ⟨.basic "real", .ofList [(.continuous, true), (.connected, true)]⟩
  let t : TopologyLayer Refinement :=
    ⟨.basic "real", .ofList [(.continuous, true), (.connected, false)]⟩
  obtain ⟨checked, hcheck, hpassed, hs, ht⟩ : ∃ checked : Checked Refinement,
      checkProgram {} ontoDisconnected = .ok checked ∧ checked.passed = true ∧
      checked.env.find? "a" = some s.toTy ∧ checked.env.find? "b" = some t.toTy := by
    simp only [← mem_toOption_iff]
    decide +kernel
  exact ⟨checked, hcheck, hpassed, by decide, s, t, hs, ht, by decide, by decide⟩

end SpaceTypes
