import SpaceTypes.Proofs.Moves

/-!
# Saturation under the separation rules

A registry is saturated by deriving one property at a time, by the first rule that fires with its
consequent unset, and starting over after each derivation. This module says what comes out of it:
the entries of before with the derived properties after them, as many as there are and each once,
and the least set of properties that has those of before and is closed under the rules whose
consequent is not denied (`Registry.isLeast_affirmed_saturate`). The order of the entries decides
in which order properties are derived, but not which.

Derivations stop at denied properties, so that a saturated registry may hold less than the rules
give without regard to denials (`Follows`). No contradiction is lost by that: a derivation that
reaches a denied property passes through a first one, and there a rule is broken by properties that
are all held (`Registry.holds_or_violated_of_follows`).
-/

namespace SpaceTypes

/-! ## Consequences of rules -/

/-- The properties have the consequent of every rule whose antecedents they have. -/
def ClosedUnder (rules : List Rule) (s : Set TopologyProperty) : Prop :=
  ∀ rule ∈ rules, (∀ a ∈ rule.antecedents, a ∈ s) → rule.consequent ∈ s

/-- The property is given, or some rule derives it from properties that follow. -/
inductive Follows (rules : List Rule) (given : Set TopologyProperty) : TopologyProperty → Prop where
  | given {p : TopologyProperty} (hp : p ∈ given) : Follows rules given p
  | rule {rule : Rule} (hrule : rule ∈ rules)
      (hantecedents : ∀ a ∈ rule.antecedents, Follows rules given a) :
      Follows rules given rule.consequent

/-- What follows is the least closed set that has what is given. -/
theorem isLeast_follows (rules : List Rule) (given : Set TopologyProperty) :
    IsLeast {s | given ⊆ s ∧ ClosedUnder rules s} {p | Follows rules given p} := by
  refine ⟨⟨fun p hp => .given hp, fun rule hrule hantecedents => .rule hrule hantecedents⟩, ?_⟩
  rintro s ⟨hgiven, hclosed⟩ p hp
  induction hp with
  | given hp => exact hgiven hp
  | rule hrule _ ih => exact hclosed _ hrule ih

namespace Registry

variable {r closed : Registry TopologyProperty} {derived : List TopologyProperty} {bound : Nat}
  {p : TopologyProperty}

/-- The properties that are recorded to hold. -/
def affirmed (r : Registry TopologyProperty) : Set TopologyProperty := {p | r.get? p = some true}

/-- The separation rules whose consequent is not denied. -/
def undeniedRules (r : Registry TopologyProperty) : List Rule :=
  separationRules.filter fun rule => r.get? rule.consequent != some false

theorem mem_undeniedRules {rule : Rule} :
    rule ∈ r.undeniedRules ↔ rule ∈ separationRules ∧ r.get? rule.consequent ≠ some false := by
  simp [undeniedRules]

theorem violatedRule?_isSome_iff : r.violatedRule?.isSome = true ↔
    ∃ rule ∈ separationRules, rule.fires r = true ∧ r.get? rule.consequent = some false := by
  simp [violatedRule?, Rule.violatedBy]

/-! ## What a sequence of derivations does -/

/-- What holds at the end of a sequence of derivations, with nothing derived, and is kept when a
derivation is put before it, holds of the whole sequence. -/
theorem deriveUpTo_induct {P : Registry TopologyProperty → List TopologyProperty → Prop}
    (hend : P closed [])
    (hstep : ∀ r rule later, r.nextRule? = some rule → P (r.set rule.consequent true) later →
      P r (rule.consequent :: later))
    (h : r.deriveUpTo bound = (closed, derived)) : P r derived := by
  induction bound generalizing r derived with
  | zero =>
    cases h
    exact hend
  | succ bound ih =>
    rcases deriveUpTo_cases h with ⟨rfl, rfl⟩ | ⟨_, rule, later, hsucc, hnext, hlater, rfl⟩
    · exact hend
    · cases hsucc
      exact hstep r rule later hnext (ih hlater)

theorem lookup_map_true (p : TopologyProperty) (properties : List TopologyProperty) :
    (properties.map fun q => (q, true)).lookup p = if p ∈ properties then some true else none := by
  induction properties with
  | nil => rfl
  | cons q rest ih =>
    by_cases hq : p = q
    · simp [hq]
    · have hne : (p == q) = false := by simpa using hq
      simp [List.lookup, hne, hq, ih]

/-- Derived properties are recorded after the entries of before. -/
theorem entries_deriveUpTo (h : r.deriveUpTo bound = (closed, derived)) :
    closed.entries = r.entries ++ derived.map fun p => (p, true) := by
  refine deriveUpTo_induct (P := fun r derived =>
    closed.entries = r.entries ++ derived.map fun p => (p, true)) (by simp) ?_ h
  intro r rule later hnext ih
  obtain ⟨-, -, hunset⟩ := nextRule?_eq_some hnext
  rw [ih, entries_set_of_unset hunset, List.map_cons, List.append_assoc]
  rfl

/-- A value that is recorded is kept, and of the unset properties the derived ones hold. -/
theorem get?_deriveUpTo (h : r.deriveUpTo bound = (closed, derived)) (p : TopologyProperty) :
    closed.get? p = (r.get? p).or (if p ∈ derived then some true else none) := by
  rw [get?, entries_deriveUpTo h, List.lookup_append, lookup_map_true]
  rfl

theorem get?_of_get? (h : r.deriveUpTo bound = (closed, derived)) {v : Bool}
    (hv : r.get? p = some v) : closed.get? p = some v := by
  rw [get?_deriveUpTo h, hv]
  rfl

/-- Nothing is denied that was not denied before. -/
theorem get?_eq_false_iff (h : r.deriveUpTo bound = (closed, derived)) :
    closed.get? p = some false ↔ r.get? p = some false := by
  rw [get?_deriveUpTo h]
  cases hp : r.get? p with
  | some v => rfl
  | none => by_cases hmem : p ∈ derived <;> simp [hmem]

/-- Each derived property was unset, and none is derived twice. -/
theorem unset_and_nodup_of_deriveUpTo (h : r.deriveUpTo bound = (closed, derived)) :
    (∀ p ∈ derived, r.get? p = none) ∧ derived.Nodup := by
  refine deriveUpTo_induct (P := fun r derived =>
    (∀ p ∈ derived, r.get? p = none) ∧ derived.Nodup) (by simp) ?_ h
  rintro r rule later hnext ⟨hlaterUnset, hlaterNodup⟩
  obtain ⟨-, -, hunset⟩ := nextRule?_eq_some hnext
  have hne : ∀ q ∈ later, q ≠ rule.consequent := by
    rintro q hq rfl
    have hnone := hlaterUnset _ hq
    rw [get?_set_self] at hnone
    cases hnone
  refine ⟨fun q hq => ?_, List.nodup_cons.2 ⟨fun hq => hne _ hq rfl, hlaterNodup⟩⟩
  rcases List.mem_cons.1 hq with rfl | hq
  · exact hunset
  · rw [← get?_set_of_ne r (hne q hq) true]
    exact hlaterUnset q hq

/-- What is derived is in every set that has the properties of before and is closed under the rules
whose consequent is not denied. -/
theorem affirmed_deriveUpTo_subset {s : Set TopologyProperty}
    (h : r.deriveUpTo bound = (closed, derived)) (hstart : r.affirmed ⊆ s)
    (hclosed : ClosedUnder r.undeniedRules s) : closed.affirmed ⊆ s := by
  refine deriveUpTo_induct (P := fun r _ => r.affirmed ⊆ s → ClosedUnder r.undeniedRules s →
    closed.affirmed ⊆ s) (fun hstart _ => hstart) ?_ h hstart hclosed
  intro r rule later hnext ih hstart hclosed
  obtain ⟨hrule, hfires, hunset⟩ := nextRule?_eq_some hnext
  have hconsequent : rule.consequent ∈ s :=
    hclosed rule (mem_undeniedRules.2 ⟨hrule, by simp [hunset]⟩) fun a ha =>
      hstart (Rule.fires_iff.1 hfires a ha)
  refine ih (fun q hq => ?_) fun rule' hrule' => hclosed rule' ?_
  · by_cases hqc : q = rule.consequent
    · rwa [hqc]
    · exact hstart ((get?_set_of_ne r hqc true).symm.trans hq)
  · -- a derivation denies nothing, so the rules to be closed under are the same
    obtain ⟨hmem, hdenied⟩ := mem_undeniedRules.1 hrule'
    refine mem_undeniedRules.2 ⟨hmem, fun hfalse => hdenied ?_⟩
    have hne : rule'.consequent ≠ rule.consequent := by
      intro heq
      rw [heq, hunset] at hfalse
      cases hfalse
    rwa [get?_set_of_ne r hne]

/-! ## The end of saturation -/

/-- Derivations go on until no rule applies or their number is used up. -/
theorem nextRule?_or_length_of_deriveUpTo (h : r.deriveUpTo bound = (closed, derived)) :
    closed.nextRule? = none ∨ derived.length = bound := by
  induction bound generalizing r derived with
  | zero =>
    cases h
    exact Or.inr rfl
  | succ bound ih =>
    cases hnext : r.nextRule? with
    | none =>
      simp only [deriveUpTo, hnext, Prod.mk.injEq] at h
      exact Or.inl (h.1 ▸ hnext)
    | some rule =>
      simp only [deriveUpTo, hnext, Prod.mk.injEq] at h
      obtain ⟨rfl, rfl⟩ := h
      exact (ih rfl).imp_right fun hlength => by rw [List.length_cons, hlength]

/-- There are enough derivations for no rule to apply in the end: otherwise the derived properties
and the consequent of the next rule would be more than there are. -/
theorem nextRule?_saturate (h : r.saturate = (closed, derived)) : closed.nextRule? = none := by
  cases hnext : closed.nextRule? with
  | none => rfl
  | some rule =>
    obtain ⟨-, -, hunset⟩ := nextRule?_eq_some hnext
    have hlength := (nextRule?_or_length_of_deriveUpTo h).resolve_left (by simp [hnext])
    have hnew : rule.consequent ∉ derived := by
      intro hmem
      rw [get?_deriveUpTo h, if_pos hmem] at hunset
      cases hconsequent : r.get? rule.consequent <;> simp [hconsequent] at hunset
    have hnodup := List.nodup_cons.2 ⟨hnew, (unset_and_nodup_of_deriveUpTo h).2⟩
    have hle := (List.subperm_of_subset hnodup fun q _ => q.mem_all).length_le
    rw [List.length_cons, hlength] at hle
    omega

/-- Where no rule applies, nothing is derived. -/
theorem deriveUpTo_of_nextRule? (h : r.nextRule? = none) (bound : Nat) :
    r.deriveUpTo bound = (r, []) := by
  cases bound with
  | zero => rfl
  | succ bound => simp only [deriveUpTo, h]

/-- Derivations that have come to an end do not depend on how many were allowed. -/
theorem deriveUpTo_of_length_le (h : r.deriveUpTo bound = (closed, derived))
    (hend : closed.nextRule? = none) {bound' : Nat} (hle : derived.length ≤ bound') :
    r.deriveUpTo bound' = (closed, derived) := by
  refine deriveUpTo_induct (P := fun r derived => ∀ bound', derived.length ≤ bound' →
    r.deriveUpTo bound' = (closed, derived)) (fun bound' _ => deriveUpTo_of_nextRule? hend bound')
    ?_ h bound' hle
  intro r rule later hnext ih bound' hle
  cases bound' with
  | zero => cases hle
  | succ bound' => simp only [deriveUpTo, hnext, ih bound' (Nat.le_of_succ_le_succ hle)]

/-- The properties of a saturated registry are the least that have those of before and are closed
under the rules whose consequent is not denied. -/
theorem isLeast_affirmed_saturate (h : r.saturate = (closed, derived)) :
    IsLeast {s | r.affirmed ⊆ s ∧ ClosedUnder r.undeniedRules s} closed.affirmed := by
  refine ⟨⟨fun q hq => get?_of_get? h hq, fun rule hrule hantecedents => ?_⟩, ?_⟩
  · obtain ⟨hmem, hdenied⟩ := mem_undeniedRules.1 hrule
    have hset := nextRule?_eq_none (nextRule?_saturate h) hmem (Rule.fires_iff.2 hantecedents)
    exact eq_some_true hset fun hfalse => hdenied ((get?_eq_false_iff h).1 hfalse)
  · rintro s ⟨hstart, hclosed⟩
    exact affirmed_deriveUpTo_subset h hstart hclosed

/-- Which properties are derived depends on the values of before, and not on their order. -/
theorem get?_saturate_congr {r' closed' : Registry TopologyProperty}
    {derived' : List TopologyProperty} (h : r.saturate = (closed, derived))
    (h' : r'.saturate = (closed', derived')) (hsame : ∀ p, r'.get? p = r.get? p)
    (p : TopologyProperty) : closed'.get? p = closed.get? p := by
  have haffirmed : r'.affirmed = r.affirmed := by simp only [affirmed, hsame]
  have hrules : r'.undeniedRules = r.undeniedRules := by simp only [undeniedRules, hsame]
  have hleast := isLeast_affirmed_saturate h'
  rw [haffirmed, hrules] at hleast
  have htrue : closed'.get? p = some true ↔ closed.get? p = some true :=
    Set.ext_iff.1 (hleast.unique (isLeast_affirmed_saturate h)) p
  have hfalse : closed'.get? p = some false ↔ closed.get? p = some false := by
    rw [get?_eq_false_iff h', get?_eq_false_iff h, hsame p]
  refine Option.ext fun v => ?_
  cases v with
  | true => exact htrue
  | false => exact hfalse

/-! ## Contradictions -/

/-- What follows by all rules is held after saturation, or a rule is broken there. The induction
goes along the derivation, and the first property on it that is denied ends it. -/
theorem holds_or_violated_of_follows (h : r.saturate = (closed, derived))
    (hp : Follows separationRules r.affirmed p) :
    closed.get? p = some true ∨ closed.violatedRule?.isSome = true := by
  induction hp with
  | given hp => exact Or.inl (get?_of_get? h hp)
  | @rule rule hrule _ ih =>
    by_cases hviolated : closed.violatedRule?.isSome = true
    · exact Or.inr hviolated
    · have hfires : rule.fires closed = true :=
        Rule.fires_iff.2 fun a ha => (ih a ha).resolve_right hviolated
      have hset := nextRule?_eq_none (nextRule?_saturate h) hrule hfires
      refine Or.inl (eq_some_true hset fun hdenied => hviolated ?_)
      exact violatedRule?_isSome_iff.2 ⟨rule, hrule, hfires, hdenied⟩

/-- A saturated registry breaks a rule exactly if something was denied that follows from what was
held. -/
theorem violatedRule?_saturate_iff (h : r.saturate = (closed, derived)) :
    closed.violatedRule?.isSome = true ↔
      ∃ p, r.get? p = some false ∧ Follows separationRules r.affirmed p := by
  constructor
  · intro hviolated
    obtain ⟨rule, hrule, hfires, hdenied⟩ := violatedRule?_isSome_iff.1 hviolated
    refine ⟨rule.consequent, (get?_eq_false_iff h).1 hdenied, .rule hrule fun a ha => ?_⟩
    -- what is held after saturation is in the least closed set, and so in what follows
    have hfollows : closed.affirmed ⊆ {p | Follows separationRules r.affirmed p} :=
      (isLeast_affirmed_saturate h).2 ⟨(isLeast_follows _ _).1.1, fun rule hrule =>
        (isLeast_follows _ _).1.2 rule (mem_undeniedRules.1 hrule).1⟩
    exact hfollows (Rule.fires_iff.1 hfires a ha)
  · rintro ⟨p, hdenied, hfollows⟩
    refine (holds_or_violated_of_follows h hfollows).resolve_left fun hheld => ?_
    rw [(get?_eq_false_iff h).2 hdenied] at hheld
    cases hheld

/-- The registry `closed` is what the separation rules make of `r`, by deriving the properties
`derived` in this order. -/
structure SaturatesTo (r closed : Registry TopologyProperty) (derived : List TopologyProperty) :
    Prop where
  /-- No rule is left to apply. -/
  ended : closed.nextRule? = none
  /-- It takes as many derivations as there are derived properties; to allow more has no effect. -/
  deriveUpTo_eq : ∀ bound, derived.length ≤ bound → r.deriveUpTo bound = (closed, derived)
  /-- The entries of before are kept, and the derived properties follow. -/
  entries_eq : closed.entries = r.entries ++ derived.map fun p => (p, true)
  /-- The derived properties were unset. -/
  unset : ∀ p ∈ derived, r.get? p = none
  /-- None is derived twice. -/
  nodup : derived.Nodup
  /-- What holds is the least set that has what held before and is closed under the rules whose
  consequent is not denied. -/
  isLeast : IsLeast {s | r.affirmed ⊆ s ∧ ClosedUnder r.undeniedRules s} closed.affirmed
  /-- A registry with the same values in another order comes to have the same values. -/
  any_order : ∀ r' : Registry TopologyProperty, (∀ p, r'.get? p = r.get? p) →
    ∀ p, r'.saturate.1.get? p = closed.get? p
  /-- A second time, nothing is derived. -/
  again : closed.saturate = (closed, [])
  /-- A rule is broken exactly if something is denied that follows from what held before. -/
  violated_iff : closed.violatedRule?.isSome = true ↔
    ∃ p, r.get? p = some false ∧ Follows separationRules r.affirmed p

/-- Saturation computes the closure under the separation rules. -/
theorem saturate_computes_closure (r : Registry TopologyProperty) :
    r.SaturatesTo r.saturate.1 r.saturate.2 where
  ended := nextRule?_saturate rfl
  deriveUpTo_eq _ hle := deriveUpTo_of_length_le rfl (nextRule?_saturate rfl) hle
  entries_eq := entries_deriveUpTo rfl
  unset := (unset_and_nodup_of_deriveUpTo rfl).1
  nodup := (unset_and_nodup_of_deriveUpTo rfl).2
  isLeast := isLeast_affirmed_saturate rfl
  any_order _ hsame := get?_saturate_congr rfl rfl hsame
  again := deriveUpTo_of_nextRule? (nextRule?_saturate rfl) _
  violated_iff := violatedRule?_saturate_iff rfl

/-- A metrizable space that is not Hausdorff breaks a rule at once, and what would follow from
Hausdorff is not derived. -/
example : (ofList [(.metrizable, true), (.hausdorff, false)]).saturate =
    (.ofList [(.metrizable, true), (.hausdorff, false), (.normal, true), (.paracompact, true)],
      [.normal, .paracompact]) := by
  decide

end Registry

end SpaceTypes
