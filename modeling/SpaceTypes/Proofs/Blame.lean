import SpaceTypes.Proofs.Recorded
import SpaceTypes.Proofs.Reporting

/-!
# The layer that a failed check blames

Several layers of a type can be out of order at once. What is wrong with a single layer is said by
`Ty.OwnFailure`, from its registry or its refinements and without running a check. The check of a
type looks at a base before the layer over it. Told in full, its failure is therefore the own
failure of the innermost layer that is out of order, wrapped once for each layer outside of that one
(`Context.blamed_of_check`).
-/

namespace SpaceTypes

/-! ## Outcomes in full -/

namespace Outcome

variable {first next : Outcome} {failure : Failure} {reporting : Reporting}
  {wrap : Failure → Failure}

theorem andThen_eq_holds_iff : first.andThen next = .holds ↔ first = .holds ∧ next = .holds := by
  cases first <;> simp [andThen]

theorem andThen_eq_fails_iff : first.andThen next = .fails failure ↔
    first = .fails failure ∨ first = .holds ∧ next = .fails failure := by
  cases first <;> simp [andThen]

theorem within_eq_holds_iff : first.within reporting wrap = .holds ↔ first = .holds := by
  cases first <;> cases reporting <;> simp [within, Reporting.fail]

theorem within_detailed_eq_fails_iff : first.within .detailed wrap = .fails failure ↔
    ∃ inner, first = .fails inner ∧ wrap inner = failure := by
  cases first <;> simp [within, Reporting.fail]

end Outcome

namespace Context

variable {h : Hierarchy} {test : Bool} {failure f : Failure}

theorem demand_eq_holds_iff {ctx : Context} : ctx.demand test failure = .holds ↔ test = true := by
  cases test with
  | true => simp [demand]
  | false => cases hreporting : ctx.reporting <;> simp [demand, fail, Reporting.fail, hreporting]

theorem demand_detailed_eq_fails_iff :
    (Context.mk h .detailed).demand test failure = .fails f ↔ test = false ∧ failure = f := by
  cases test <;> simp [demand, fail, Reporting.fail]

end Context

/-- The failure of a base inside of the types with the given texts, the outermost first. -/
def Failure.inBases (subjects : List String) (failure : Failure) : Failure :=
  subjects.foldr .inBase failure

theorem Failure.root_inBases (subjects : List String) (failure : Failure) :
    (failure.inBases subjects).root = failure.root := by
  induction subjects with
  | nil => rfl
  | cons subject rest ih => exact ih

/-! ## What is wrong with a layer -/

/-- Those of the properties that are not recorded to hold, in their order. -/
def Registry.lacking {α : Type} [DecidableEq α] (r : Registry α) (properties : List α) : List α :=
  properties.filter fun p => r.get? p ≠ some true

theorem Registry.missing_eq_map_lacking {α : Type} [DecidableEq α] [PropertyFamily α]
    (r : Registry α) (properties : List α) : r.missing properties =
      (r.lacking properties).map fun p => ⟨PropertyFamily.toProperty p, r.standing p⟩ := by
  have hfilter : properties.filter (fun p => !r.holds p) = r.lacking properties := by
    refine List.filter_congr fun p _ => ?_
    rw [Bool.eq_iff_iff, Bool.not_eq_true', ← Bool.not_eq_true, holds_iff, decide_eq_true_eq]
  rw [missing, hfilter]

/-- The antecedents of the rule are recorded to hold and its consequent is denied. -/
structure Rule.BrokenBy (rule : Rule) (r : Registry TopologyProperty) : Prop where
  /-- The rule fires. -/
  antecedents : ∀ p ∈ rule.antecedents, r.get? p = some true
  /-- What it forces is recorded not to hold. -/
  consequent : r.get? rule.consequent = some false

theorem Rule.violatedBy_iff {rule : Rule} {r : Registry TopologyProperty} :
    rule.violatedBy r = true ↔ rule.BrokenBy r := by
  rw [violatedBy, Bool.and_eq_true, beq_iff_eq, fires, Registry.holdsAll_iff]
  exact ⟨fun hbroken => ⟨hbroken.1, hbroken.2⟩, fun hbroken => ⟨hbroken.1, hbroken.2⟩⟩

/-- The violated rule is the first one that is broken. -/
theorem Registry.violatedRule?_eq_some_iff {r : Registry TopologyProperty} {rule : Rule} :
    r.violatedRule? = some rule ↔ ∃ before after, separationRules = before ++ rule :: after ∧
      (∀ earlier ∈ before, ¬earlier.BrokenBy r) ∧ rule.BrokenBy r := by
  rw [violatedRule?, List.find?_eq_some_iff_append, Rule.violatedBy_iff]
  simp only [Bool.not_eq_true', ← Bool.not_eq_true, Rule.violatedBy_iff]
  constructor
  · rintro ⟨hbroken, before, after, hrules, hbefore⟩
    exact ⟨before, after, hrules, hbefore, hbroken⟩
  · rintro ⟨before, after, hrules, hbefore, hbroken⟩
    exact ⟨hbroken, before, after, hrules, hbefore⟩

theorem Registry.isCoherent_eq_false_iff {r : Registry QuantumProperty} : r.isCoherent = false ↔
    r.get? .entangled = some true ∧ r.get? .superposition = some false := by
  rw [isCoherent, Bool.not_eq_false', Bool.and_eq_true, holds_iff, beq_iff_eq]

variable {ρ : Type}

/-- The first refinement of a dependent layer that the type fails, in the order of predicate,
topological constraint and quantum constraint. -/
inductive Clauses.FirstFailed [Meaning ρ] (clauses : Clauses ρ) (t : Ty ρ) : Clause → Prop where
  | predicate (hpredicate : Meaning.holds clauses.predicate t = false) :
      FirstFailed clauses t .predicate
  | topology (hpredicate : Meaning.holds clauses.predicate t = true)
      (htopology : Meaning.holds clauses.topology t = false) : FirstFailed clauses t .topology
  | quantum (hpredicate : Meaning.holds clauses.predicate t = true)
      (htopology : Meaning.holds clauses.topology t = true)
      (hquantum : Meaning.holds clauses.quantum t = false) : FirstFailed clauses t .quantum

theorem Clauses.failing?_eq_some_iff [Meaning ρ] {clauses : Clauses ρ} {t : Ty ρ}
    {clause : Clause} : clauses.failing? t = some clause ↔ clauses.FirstFailed t clause := by
  constructor
  · intro hfailing
    unfold failing? at hfailing
    split at hfailing
    case isTrue hpredicate =>
      cases hfailing
      exact .predicate (by simpa using hpredicate)
    case isFalse hpredicate =>
      split at hfailing
      case isTrue htopology =>
        cases hfailing
        exact .topology (by simpa using hpredicate) (by simpa using htopology)
      case isFalse htopology =>
        split at hfailing
        case isTrue hquantum =>
          cases hfailing
          exact .quantum (by simpa using hpredicate) (by simpa using htopology)
            (by simpa using hquantum)
        case isFalse => cases hfailing
  · rintro (hpredicate | ⟨hpredicate, htopology⟩ | ⟨hpredicate, htopology, hquantum⟩)
    · simp [failing?, hpredicate]
    · simp [failing?, hpredicate, htopology]
    · simp [failing?, hpredicate, htopology, hquantum]

/-- The failure says what is wrong with the outermost layer of a type, whatever its base is like. -/
inductive Ty.OwnFailure [Meaning ρ] : Ty ρ → Failure → Prop where
  /-- A topology layer lacks properties that it must have. All of them are listed. -/
  | lacksTopology {base : Ty ρ} {r : Registry TopologyProperty}
      (hlacking : r.lacking TopologyLayer.required ≠ []) :
      OwnFailure (topology base r) (.lacks (topology base r).text
        ((r.lacking TopologyLayer.required).map fun p => ⟨.topology p, r.standing p⟩))
  /-- A topology layer has what it must have, and breaks this separation rule but none before. -/
  | breaksRule {base : Ty ρ} {r : Registry TopologyProperty} {before after : List Rule}
      {rule : Rule} (hlacking : r.lacking TopologyLayer.required = [])
      (hrules : separationRules = before ++ rule :: after)
      (hbefore : ∀ earlier ∈ before, ¬earlier.BrokenBy r) (hbroken : rule.BrokenBy r) :
      OwnFailure (topology base r) (.breaksRule (topology base r).text rule)
  /-- A quantum layer lacks properties that it must have. All of them are listed. -/
  | lacksQuantum {base : Ty ρ} {r : Registry QuantumProperty}
      (hlacking : r.lacking QuantumLayer.required ≠ []) :
      OwnFailure (quantum base r) (.lacks (quantum base r).text
        ((r.lacking QuantumLayer.required).map fun p => ⟨.quantum p, r.standing p⟩))
  /-- A quantum layer has what it must have, but is entangled and denied to be in superposition. -/
  | incoherent {base : Ty ρ} {r : Registry QuantumProperty}
      (hlacking : r.lacking QuantumLayer.required = []) (hentangled : r.get? .entangled = some true)
      (hdenied : r.get? .superposition = some false) :
      OwnFailure (quantum base r) (.incoherent (quantum base r).text)
  /-- The base of a dependent layer fails this refinement and none before. -/
  | refinement {base : Ty ρ} {clauses : Clauses ρ} {clause : Clause}
      (hfirst : clauses.FirstFailed base clause) :
      OwnFailure (dependent base clauses) (.refinement (dependent base clauses).text clause)

theorem Ty.OwnFailure.root_eq [Meaning ρ] {t : Ty ρ} {failure : Failure}
    (h : t.OwnFailure failure) : failure.root = failure := by
  cases h <;> rfl

/-! ## The check of a layer -/

/-- What holds of basic types and passes from bases to the layers over them holds of all types. -/
theorem Ty.induction_on_base {P : Ty ρ → Prop} (hbasic : ∀ name, P (basic name))
    (hlayer : ∀ t base, t.base? = some base → P base → P t) (t : Ty ρ) : P t := by
  induction t with
  | basic name => exact hbasic name
  | topology base r ih => exact hlayer _ base rfl ih
  | quantum base r ih => exact hlayer _ base rfl ih
  | dependent base clauses ih => exact hlayer _ base rfl ih

theorem Ty.chain_of_base? {t base : Ty ρ} (hbase : t.base? = some base) :
    t.chain = t :: base.chain := by
  rw [chain_eq, hbase]
  rfl

namespace Context

variable {h : Hierarchy} {failure : Failure}

theorem demandRules_detailed_eq_fails_iff {subject : String} {r : Registry TopologyProperty} :
    (Context.mk h .detailed).demandRules subject r = .fails failure ↔
      ∃ rule, r.violatedRule? = some rule ∧ .breaksRule subject rule = failure := by
  unfold demandRules
  cases r.violatedRule? <;> simp [fail, Reporting.fail]

variable [Meaning ρ] {t base : Ty ρ}

theorem demandClauses_detailed_eq_fails_iff {subject : String} {clauses : Clauses ρ} :
    (Context.mk h .detailed).demandClauses subject clauses t = .fails failure ↔
      ∃ clause, clauses.failing? t = some clause ∧ .refinement subject clause = failure := by
  unfold demandClauses
  cases clauses.failing? t <;> simp [fail, Reporting.fail]

/-- Checks that the outermost layer of a type is in order. -/
def checkLayer (ctx : Context) : Ty ρ → Outcome
  | .basic _ => .holds
  | .topology base r =>
    (ctx.requireTopology ⟨base, r⟩ TopologyLayer.required).andThen
      (ctx.demandRules (Ty.topology base r).text r)
  | .quantum base r =>
    (ctx.requireQuantum ⟨base, r⟩ QuantumLayer.required).andThen
      (ctx.demand r.isCoherent (.incoherent (Ty.quantum base r).text))
  | .dependent base clauses => ctx.demandClauses (Ty.dependent base clauses).text clauses base

/-- A type is checked by checking its base and then its outermost layer. -/
theorem check_of_base? {ctx : Context} (hbase : t.base? = some base) : ctx.check t =
    ((ctx.check base).within ctx.reporting (.inBase t.text)).andThen (ctx.checkLayer t) := by
  cases t <;> cases hbase <;> rfl

/-- In full, the check of a layer fails with the own failure of the layer. -/
theorem checkLayer_detailed_eq_fails_iff :
    (Context.mk h .detailed).checkLayer t = .fails failure ↔ t.OwnFailure failure := by
  cases t with
  | basic name =>
    constructor
    · intro hcheck
      cases hcheck
    · intro hown
      cases hown
  | topology base r =>
    rw [checkLayer, Outcome.andThen_eq_fails_iff, demandRules_detailed_eq_fails_iff,
      requireTopology, demandNone, demand_detailed_eq_fails_iff, demand_eq_holds_iff,
      Registry.missing_eq_map_lacking, List.isEmpty_map, List.isEmpty_iff,
      List.isEmpty_eq_false_iff]
    simp only [Registry.violatedRule?_eq_some_iff]
    constructor
    · rintro (⟨hlacking, rfl⟩ |
        ⟨hlacking, rule, ⟨before, after, hrules, hbefore, hbroken⟩, rfl⟩)
      · exact .lacksTopology hlacking
      · exact .breaksRule hlacking hrules hbefore hbroken
    · intro hown
      cases hown with
      | lacksTopology hlacking => exact Or.inl ⟨hlacking, rfl⟩
      | breaksRule hlacking hrules hbefore hbroken =>
        exact Or.inr ⟨hlacking, _, ⟨_, _, hrules, hbefore, hbroken⟩, rfl⟩
  | quantum base r =>
    rw [checkLayer, Outcome.andThen_eq_fails_iff, demand_detailed_eq_fails_iff, requireQuantum,
      demandNone, demand_detailed_eq_fails_iff, demand_eq_holds_iff,
      Registry.missing_eq_map_lacking, List.isEmpty_map, List.isEmpty_iff,
      List.isEmpty_eq_false_iff, Registry.isCoherent_eq_false_iff]
    constructor
    · rintro (⟨hlacking, rfl⟩ | ⟨hlacking, ⟨hentangled, hdenied⟩, rfl⟩)
      · exact .lacksQuantum hlacking
      · exact .incoherent hlacking hentangled hdenied
    · intro hown
      cases hown with
      | lacksQuantum hlacking => exact Or.inl ⟨hlacking, rfl⟩
      | incoherent hlacking hentangled hdenied =>
        exact Or.inr ⟨hlacking, ⟨hentangled, hdenied⟩, rfl⟩
  | dependent base clauses =>
    rw [checkLayer, demandClauses_detailed_eq_fails_iff]
    simp only [Clauses.failing?_eq_some_iff]
    constructor
    · rintro ⟨clause, hfirst, rfl⟩
      exact .refinement hfirst
    · intro hown
      cases hown with
      | refinement hfirst => exact ⟨_, hfirst, rfl⟩

theorem not_isAbort_checkLayer : ¬((Context.mk h .detailed).checkLayer t).IsAbort := by
  have hdetailed : Reporting.detailed ≠ .abort := fun heq => by cases heq
  cases t with
  | basic name => exact id
  | topology base r =>
    exact ((agree_requireTopology h ⟨base, r⟩ _).andThen (agree_demandRules h _ r)).not_isAbort
      hdetailed
  | quantum base r =>
    exact ((agree_requireQuantum h ⟨base, r⟩ _).andThen
      (agree_demand h _ (.incoherent _) rfl)).not_isAbort hdetailed
  | dependent base clauses => exact (agree_demandClauses h _ clauses base).not_isAbort hdetailed

/-- A layer is in order exactly if it has no failure of its own. -/
theorem checkLayer_detailed_eq_holds_iff :
    (Context.mk h .detailed).checkLayer t = .holds ↔ ∀ failure, ¬t.OwnFailure failure := by
  simp only [← checkLayer_detailed_eq_fails_iff (h := h)]
  cases houtcome : (Context.mk h .detailed).checkLayer t with
  | holds => simp
  | fails failure => simp
  | aborts failure =>
    have hnot := not_isAbort_checkLayer (h := h) (t := t)
    rw [houtcome] at hnot
    exact absurd trivial hnot

theorem check_detailed_eq_fails_iff (hbase : t.base? = some base) :
    (Context.mk h .detailed).check t = .fails failure ↔
      (∃ inner, (Context.mk h .detailed).check base = .fails inner ∧
        .inBase t.text inner = failure) ∨
      (Context.mk h .detailed).check base = .holds ∧ t.OwnFailure failure := by
  rw [check_of_base? hbase, Outcome.andThen_eq_fails_iff, Outcome.within_detailed_eq_fails_iff,
    Outcome.within_eq_holds_iff, checkLayer_detailed_eq_fails_iff]

/-- In full, the check of a type holds exactly if no layer has a failure of its own. -/
theorem check_detailed_eq_holds_iff :
    (Context.mk h .detailed).check t = .holds ↔
      ∀ layer ∈ t.chain, ∀ failure, ¬layer.OwnFailure failure := by
  induction t using Ty.induction_on_base with
  | hbasic name =>
    refine iff_of_true rfl fun layer hlayer failure hown => ?_
    rw [List.mem_singleton.1 hlayer] at hown
    cases hown
  | hlayer t base hbase ih =>
    rw [check_of_base? hbase, Outcome.andThen_eq_holds_iff, Outcome.within_eq_holds_iff, ih,
      checkLayer_detailed_eq_holds_iff, Ty.chain_of_base? hbase, List.forall_mem_cons, and_comm]

/-- In full, the failure of a type is that of the innermost layer which has one, wrapped once for
each layer outside of it. -/
theorem blamed_of_check (hcheck : (Context.mk h .detailed).check t = .fails failure) :
    ∃ outer layer inner own, t.chain = outer ++ layer :: inner ∧
      (∀ deeper ∈ inner, ∀ other, ¬deeper.OwnFailure other) ∧ layer.OwnFailure own ∧
      failure = own.inBases (outer.map Ty.text) := by
  induction t using Ty.induction_on_base generalizing failure with
  | hbasic name => cases hcheck
  | hlayer t base hbase ih =>
    rw [Ty.chain_of_base? hbase]
    rcases (check_detailed_eq_fails_iff hbase).1 hcheck with ⟨inside, hinside, rfl⟩ | ⟨hholds, hown⟩
    · obtain ⟨outer, layer, inner, own, hchain, hinner, hown, rfl⟩ := ih hinside
      exact ⟨t :: outer, layer, inner, own, by rw [hchain, List.cons_append], hinner, hown, rfl⟩
    · exact ⟨[], t, base.chain, failure, rfl, check_detailed_eq_holds_iff.1 hholds, hown, rfl⟩

/-- A type that is not well formed is reported in full by the own failure of its innermost layer
that has one, inside of the layers around that layer from the outermost inwards. -/
theorem check_blames_innermost (h : Hierarchy) (t : Ty ρ) (hill : t.wellFormed = false) :
    ∃ outer layer inner own, t.chain = outer ++ layer :: inner ∧
      (∀ deeper ∈ inner, ∀ other, ¬deeper.OwnFailure other) ∧ layer.OwnFailure own ∧
      (Context.mk h .detailed).check t = .fails (own.inBases (outer.map Ty.text)) ∧
      (own.inBases (outer.map Ty.text)).root = own := by
  obtain ⟨failure, hcheck⟩ := (agree_check h t).oneVerdict.detailed_iff.2 hill
  obtain ⟨outer, layer, inner, own, hchain, hinner, hown, rfl⟩ := blamed_of_check hcheck
  refine ⟨outer, layer, inner, own, hchain, hinner, hown, hcheck, ?_⟩
  rw [Failure.root_inBases, hown.root_eq]

/-- A quantum layer that is not normalized, over a dependent layer that nothing meets, over a
topology layer that breaks two separation rules. -/
def faultyLayers : Ty Refinement :=
  .quantum (.dependent (.topology (.basic "real")
    (.ofList [(.continuous, true), (.normal, false), (.metrizable, true), (.hausdorff, false)]))
    ⟨⟨0, .never⟩, ⟨1, .always⟩, ⟨2, .never⟩⟩) .empty

theorem faultyLayers_blamed :
    faultyLayers.wellFormed = false ∧
    (Context.mk .standard .detailed).check faultyLayers =
      .fails (.inBase "Quantum<Dependent<Topology<real>>>" (.inBase "Dependent<Topology<real>>"
        (.breaksRule "Topology<real>" ⟨[.metrizable], .hausdorff⟩))) ∧
    ∃ outer layer inner own, faultyLayers.chain = outer ++ layer :: inner ∧
      (∀ deeper ∈ inner, ∀ other, ¬deeper.OwnFailure other) ∧ layer.OwnFailure own ∧
      (Context.mk .standard .detailed).check faultyLayers =
        .fails (own.inBases (outer.map Ty.text)) ∧
      (own.inBases (outer.map Ty.text)).root = own := by
  have hill : faultyLayers.wellFormed = false := by decide
  exact ⟨hill, by decide, check_blames_innermost .standard faultyLayers hill⟩

end Context

end SpaceTypes
