import SpaceTypes.Proofs.Blame
import SpaceTypes.Proofs.ProgramTypes

/-!
# The ill-formed names of a program

Inference leaves few ways for the type of a declared name to be ill formed. It has refused
registries that break a separation rule or are incoherent, and it has written to no registry but the
outermost one, so that a base with a layer of its own lacks what the layer requires. What remains is
`Ty.Unfinished`: a base that is not basic, or an outermost layer that is not said to be continuous
or normalized (`Ty.wellFormed_eq_false_iff`). The environment keeps its names in order, and so does
the list of those with such a type.
-/

namespace SpaceTypes

variable {ρ : Type}

/-! ## Names in order -/

namespace Environment

variable [Meaning ρ] {env : Environment ρ}

theorem mem_illFormed_iff {name : String} :
    name ∈ env.illFormed ↔ ∃ t, env.find? name = some t ∧ t.wellFormed = false := by
  unfold illFormed
  constructor
  · intro hmem
    obtain ⟨⟨_, t⟩, hentry, rfl⟩ := List.mem_map.1 hmem
    obtain ⟨hentry, hill⟩ := List.mem_filter.1 hentry
    exact ⟨t, NameTable.mem_entries_iff.1 hentry, by simpa using hill⟩
  · rintro ⟨t, hfind, hill⟩
    exact List.mem_map.2 ⟨(name, t),
      List.mem_filter.2 ⟨NameTable.mem_entries_iff.2 hfind, by simpa using hill⟩, rfl⟩

theorem pairwise_illFormed (env : Environment ρ) : env.illFormed.Pairwise (· < ·) :=
  env.table.increasing.sublist (List.filter_sublist.map Prod.fst)

end Environment

/-! ## Types that lack something -/

namespace Ty

/-- The type has more than one layer over its name, or its only layer is not said to have what such
a layer requires. -/
inductive Unfinished : Ty ρ → Prop where
  | layered {t base : Ty ρ} (hbase : t.base? = some base) (hkind : base.kind ≠ .basic) :
    Unfinished t
  | discontinuous {base : Ty ρ} {r : Registry TopologyProperty}
    (hget : r.get? .continuous ≠ some true) : Unfinished (topology base r)
  | unnormalized {base : Ty ρ} {r : Registry QuantumProperty}
    (hget : r.get? .normalized ≠ some true) : Unfinished (quantum base r)

variable {t base : Ty ρ}

theorem not_unfinished_basic {name : String} : ¬(basic name : Ty ρ).Unfinished := by
  intro h
  cases h with
  | layered hbase => cases hbase

theorem unfinished_topology_iff {r : Registry TopologyProperty} :
    (topology base r).Unfinished ↔ base.kind ≠ .basic ∨ r.get? .continuous ≠ some true := by
  constructor
  · intro h
    cases h with
    | layered hbase hkind =>
      cases hbase
      exact Or.inl hkind
    | discontinuous hget => exact Or.inr hget
  · rintro (hkind | hget)
    · exact .layered rfl hkind
    · exact .discontinuous hget

theorem unfinished_quantum_iff {r : Registry QuantumProperty} :
    (quantum base r).Unfinished ↔ base.kind ≠ .basic ∨ r.get? .normalized ≠ some true := by
  constructor
  · intro h
    cases h with
    | layered hbase hkind =>
      cases hbase
      exact Or.inl hkind
    | unnormalized hget => exact Or.inr hget
  · rintro (hkind | hget)
    · exact .layered rfl hkind
    · exact .unnormalized hget

/-- The outermost registry of the type breaks no separation rule and is coherent. -/
structure Consistent (t : Ty ρ) : Prop where
  /-- No rule is broken. -/
  rules : ∀ r ∈ t.topologyRegistry?, ∀ rule ∈ separationRules, ¬rule.BrokenBy r
  /-- What is entangled may be in superposition. -/
  coherent : ∀ r ∈ t.quantumRegistry?,
    ¬(r.get? .entangled = some true ∧ r.get? .superposition = some false)

theorem consistent_of_inconsistency? (h : Variables.inconsistency? t = none) : t.Consistent := by
  obtain ⟨hrules, hcoherent⟩ := inconsistency?_eq_none_iff.1 h
  refine ⟨fun r hr rule hrule hbroken => ?_, fun r hr hincoherent => ?_⟩
  · have hkept := hrules r hr rule hrule
    rw [Rule.violatedBy_iff.2 hbroken] at hkept
    cases hkept
  · have hkept := hcoherent r hr
    rw [Registry.isCoherent_eq_false_iff.2 hincoherent] at hkept
    cases hkept

theorem isSoundTopology_iff {r : Registry TopologyProperty} (h : (topology base r).Consistent) :
    r.isSoundTopology = true ↔ r.get? .continuous = some true := by
  have hnone : r.violatedRule? = none := by
    refine Option.eq_none_iff_forall_ne_some.2 fun rule hrule => ?_
    obtain ⟨before, after, hrules, -, hbroken⟩ := Registry.violatedRule?_eq_some_iff.1 hrule
    exact h.rules r rfl rule (by rw [hrules]; simp) hbroken
  rw [Registry.isSoundTopology, Registry.respectsRules, hnone, Option.isNone_none, Bool.and_true,
    Registry.isContinuous, Registry.holdsAll_iff]
  simp [TopologyLayer.required]

theorem isSoundQuantum_iff {r : Registry QuantumProperty} (h : (quantum base r).Consistent) :
    r.isSoundQuantum = true ↔ r.get? .normalized = some true := by
  have hcoherent : r.isCoherent = true := by
    rw [← Bool.not_eq_false, Registry.isCoherent_eq_false_iff]
    exact h.coherent r rfl
  rw [Registry.isSoundQuantum, hcoherent, Bool.and_true, Registry.holdsAll_iff]
  simp [QuantumLayer.required]

end Ty

namespace TypeExpr

/-- Of the types that are written, only the basic ones are well formed as they stand. -/
theorem wellFormed_toTy_iff [Meaning ρ] (e : TypeExpr) :
    (e.toTy : Ty ρ).wellFormed = true ↔ (e.toTy : Ty ρ).kind = .basic := by
  cases e with
  | basic name => simp [toTy, Ty.wellFormed, Ty.kind]
  | layer modifier base =>
    cases modifier with
    | topology =>
      have hunsound : (Registry.empty : Registry TopologyProperty).isSoundTopology = false := by
        decide
      simp [toTy, Ty.wellFormed, Ty.kind, hunsound]
    | quantum =>
      have hunsound : (Registry.empty : Registry QuantumProperty).isSoundQuantum = false := by
        decide
      simp [toTy, Ty.wellFormed, Ty.kind, hunsound]

/-- A written type contradicts nothing. -/
theorem inconsistency?_toTy (e : TypeExpr) : Variables.inconsistency? (e.toTy : Ty ρ) = none := by
  cases e with
  | basic name => rfl
  | layer modifier base => cases modifier <;> rfl

end TypeExpr

/-- A consistent type whose bases are as they were written is ill formed exactly if it is
unfinished. -/
theorem Ty.wellFormed_eq_false_iff [Meaning ρ] {t : Ty ρ} {e : TypeExpr}
    (hbare : t.bare = e.toTy.bare) (hconsistent : t.Consistent) :
    t.wellFormed = false ↔ t.Unfinished := by
  cases t with
  | basic name => simp [wellFormed, not_unfinished_basic]
  | topology base r =>
    cases e with
    | basic name => cases hbare
    | layer modifier written =>
      cases modifier <;> cases hbare
      rw [unfinished_topology_iff, wellFormed, Bool.and_eq_false_iff, ← Bool.not_eq_true,
        ← Bool.not_eq_true, written.wellFormed_toTy_iff, isSoundTopology_iff hconsistent]
  | quantum base r =>
    cases e with
    | basic name => cases hbare
    | layer modifier written =>
      cases modifier <;> cases hbare
      rw [unfinished_quantum_iff, wellFormed, Bool.and_eq_false_iff, ← Bool.not_eq_true,
        ← Bool.not_eq_true, written.wellFormed_toTy_iff, isSoundQuantum_iff hconsistent]
  | dependent base clauses => exact absurd (kind_eq_of_bare_eq hbare).symm e.kind_toTy_ne

/-! ## Programs -/

open Declaration

variable [Meaning ρ] [DecidableEq ρ] {config : Config}

/-- No layer of an inferred type contradicts itself, because only the outermost one was written
to. -/
theorem Solved.consistent {items : List Scoped} {c : Collection ρ} {solution : Solution ρ}
    (h : Solved config items c solution) {i : Nat} {t : Ty ρ}
    (ht : solution.vars.get? i = some t) : ∀ layer ∈ t.chain, layer.Consistent := by
  intro layer hlayer
  obtain ⟨e, hbare⟩ := h.exists_toTy ht
  rcases Ty.mem_chain_of_bare_eq hbare hlayer with rfl | hlayer
  · exact Ty.consistent_of_inconsistency? (GoalSystem.solution_consistent h.solve_eq ht)
  · obtain ⟨inner, rfl⟩ := e.exists_toTy_of_mem_chain hlayer
    exact Ty.consistent_of_inconsistency? inner.inconsistency?_toTy

/-- An inferred type is ill formed exactly if it is unfinished. -/
theorem Solved.wellFormed_eq_false_iff {items : List Scoped} {c : Collection ρ}
    {solution : Solution ρ} (h : Solved config items c solution) {i : Nat} {t : Ty ρ}
    (ht : solution.vars.get? i = some t) : t.wellFormed = false ↔ t.Unfinished := by
  obtain ⟨e, hbare⟩ := h.exists_toTy ht
  have hself : t ∈ t.chain := by
    rw [Ty.chain_eq]
    exact List.mem_cons_self
  exact Ty.wellFormed_eq_false_iff hbare (h.consistent ht t hself)

/-- The ill-formed names of a result are those of its environment. -/
theorem Inferred.illFormed_of_verify {inferred : Inferred ρ} {checked : Checked ρ}
    (h : inferred.verify config = .ok checked) : checked.illFormed = checked.env.illFormed := by
  obtain ⟨env, -, htail⟩ := bind_eq_ok_iff.1 h
  obtain ⟨entries, -, htail'⟩ := bind_eq_ok_iff.1 htail
  obtain ⟨report, -, hend⟩ := bind_eq_ok_iff.1 htail'
  cases hend
  rfl

/-- The ill-formed names come in strict order, and are those of the declared names whose types are
unfinished. No type in the environment contradicts itself, in any of its layers. -/
theorem illFormed_iff_unfinished {program : List Declaration} {checked : Checked ρ}
    (hcheck : checkProgram config program = .ok checked) :
    checked.illFormed.Pairwise (· < ·) ∧
    (∀ name, name ∈ checked.illFormed ↔
      (∃ scope d type, StandsIn program scope d ∧ d.signature? = some (name, type)) ∧
      ∃ t, checked.env.find? name = some t ∧ t.Unfinished) ∧
    ∀ name t, checked.env.find? name = some t → ∀ layer ∈ t.chain, layer.Consistent := by
  obtain ⟨c, solution, -, h, hverify⟩ := solved_of_checkProgram hcheck
  obtain ⟨henv, -⟩ := Inferred.verify_eq_ok hverify
  rw [Inferred.illFormed_of_verify hverify]
  refine ⟨Environment.pairwise_illFormed _, fun name => ?_, fun name t hfind => ?_⟩
  · rw [Environment.mem_illFormed_iff]
    constructor
    · rintro ⟨t, hfind, hill⟩
      obtain ⟨i, -, ht⟩ := h.exists_find? henv hfind
      have hname : name ∈ checked.env.table.names := NameTable.mem_names_iff.2 ⟨t, hfind⟩
      rw [h.mem_names_iff henv] at hname
      exact ⟨mem_declaredNames_iff.1 hname, t, hfind, (h.wellFormed_eq_false_iff ht).1 hill⟩
    · rintro ⟨-, t, hfind, hlacks⟩
      obtain ⟨i, -, ht⟩ := h.exists_find? henv hfind
      exact ⟨t, hfind, (h.wellFormed_eq_false_iff ht).2 hlacks⟩
  · obtain ⟨i, -, ht⟩ := h.exists_find? henv hfind
    exact h.consistent ht

/-- Spaces that lack something in each of the possible ways, and others that are in order. -/
def unfinishedSpaces : List Declaration :=
  [.space "tower" (.layer .topology (.layer .quantum (.basic "number")))
      [.property "continuous" true, .shape "floor" none []],
    .space "dust" (.layer .topology (.basic "real")) [.property "continuous" false],
    .space "state" (.layer .quantum (.basic "complex")) [.property "entangled" true],
    .space "line" (.layer .topology (.basic "real")) [.property "continuous" true],
    .space "real" (.basic "real") []]

theorem unfinishedSpaces_illFormed : ∃ checked : Checked Refinement,
    checkProgram {} unfinishedSpaces = .ok checked ∧
    checked.illFormed = ["dust", "floor", "state", "tower"] ∧
    ∃ t, checked.env.find? "floor" = some t ∧ t.Unfinished := by
  obtain ⟨checked, hcheck, hill⟩ : ∃ checked : Checked Refinement,
      checkProgram {} unfinishedSpaces = .ok checked ∧
      checked.illFormed = ["dust", "floor", "state", "tower"] := by
    simp only [← mem_toOption_iff]
    decide +kernel
  have hmem : "floor" ∈ checked.illFormed := by
    rw [hill]
    decide
  exact ⟨checked, hcheck, hill, (((illFormed_iff_unfinished hcheck).2.1 "floor").1 hmem).2⟩

end SpaceTypes
