import SpaceTypes.Constraint
import SpaceTypes.Refinement

/-!
# Verdicts and ways of reporting

A failure looks different under each way of reporting. In full it is wrapped in every type and
constraint that it was found in; quietly it is one and the same at every depth; and where failures
abort, the check ends at the innermost failure, before anything can be wrapped around it. The
verdict is the same all the same (`Outcome.OneVerdict`).

Checks are put together from tests, by going on to the next one and by wrapping. The three runs of
a check agree (`Outcome.Agree`) if those of its parts do, because a wrapped failure has the root of
the failure inside. For types the verdict on which the runs agree is read off the recursion of
`Ty.wellFormed`, layer by layer, although the two look for different things: the check for what is
missing or broken, the plain test for what holds.
-/

namespace SpaceTypes

namespace Outcome

/-- The check was given up. -/
def IsAbort : Outcome → Prop
  | aborts _ => True
  | _ => False

/-- A check that is run under each way of reporting comes to one verdict. -/
structure OneVerdict (run : Reporting → Outcome) (verdict : Bool) : Prop where
  /-- It holds under all of them or under none. -/
  holds_iff : ∀ reporting, run reporting = .holds ↔ verdict = true
  /-- In full, it fails otherwise. -/
  detailed_iff : (∃ failure, run .detailed = .fails failure) ↔ verdict = false
  /-- Quietly, it fails otherwise, and nothing is said about the failure. -/
  quiet_iff : run .quiet = .fails .discarded ↔ verdict = false
  /-- Where failures abort, it is given up otherwise. -/
  abort_iff : (∃ reason, run .abort = .aborts reason) ↔ verdict = false
  /-- The message then tells the root of the failure in full. -/
  abortText_eq : ∀ failure reason, run .detailed = .fails failure →
    run .abort = .aborts reason → abortText reason = "verification failed: " ++ failure.root.text

/-- How the runs of a check under the three ways of reporting correspond. -/
inductive Agree (run : Reporting → Outcome) : Bool → Prop where
  /-- It holds under all of them. -/
  | holds (hall : ∀ reporting, run reporting = .holds) : Agree run true
  /-- It fails with the same root under all of them, as far as this is told. -/
  | fails (failure : Failure) (hdetailed : run .detailed = .fails failure)
      (hquiet : run .quiet = .fails .discarded) (habort : run .abort = .aborts failure.root) :
      Agree run false

namespace Agree

variable {run next : Reporting → Outcome} {verdict other : Bool}

theorem oneVerdict (h : Agree run verdict) : OneVerdict run verdict := by
  cases h with
  | holds hall =>
    refine ⟨fun reporting => iff_of_true (hall reporting) rfl, ?_, ?_, ?_, ?_⟩
    · simp [hall]
    · simp [hall]
    · simp [hall]
    · intro failure reason hdetailed
      rw [hall] at hdetailed
      cases hdetailed
  | fails failure hdetailed hquiet habort =>
    refine ⟨fun reporting => ?_, ?_, ?_, ?_, ?_⟩
    · cases reporting <;> simp [hdetailed, hquiet, habort]
    · simp [hdetailed]
    · simp [hquiet]
    · simp [habort]
    · intro failure' reason hfailure hreason
      rw [hdetailed] at hfailure
      rw [habort] at hreason
      cases hfailure
      cases hreason
      rfl

theorem verdict_eq (h : Agree run verdict) : verdict = (run .quiet == .holds) := by
  cases h with
  | holds hall => rw [hall, beq_self_eq_true]
  | fails failure hdetailed hquiet habort => rw [hquiet]; rfl

/-- Where failures do not abort, the check is not given up. -/
theorem not_isAbort (h : Agree run verdict) {reporting : Reporting}
    (hreporting : reporting ≠ .abort) : ¬(run reporting).IsAbort := by
  cases h with
  | holds hall =>
    rw [hall]
    exact id
  | fails failure hdetailed hquiet habort =>
    cases reporting with
    | abort => exact absurd rfl hreporting
    | quiet =>
      rw [hquiet]
      exact id
    | detailed =>
      rw [hdetailed]
      exact id

theorem andThen (h : Agree run verdict) (hnext : Agree next other) :
    Agree (fun reporting => (run reporting).andThen (next reporting)) (verdict && other) := by
  cases h with
  | holds hall =>
    have heq : (fun reporting => (run reporting).andThen (next reporting)) = next := by
      funext reporting
      rw [hall]
      rfl
    rwa [heq, Bool.true_and]
  | fails failure hdetailed hquiet habort =>
    -- the next check is not looked at
    refine .fails failure ?_ ?_ ?_
    · simp only [hdetailed, Outcome.andThen]
    · simp only [hquiet, Outcome.andThen]
    · simp only [habort, Outcome.andThen]

/-- A wrapped failure is built again from what each run makes of the failure inside. -/
theorem within (h : Agree run verdict) {wrap : Failure → Failure}
    (hwrap : ∀ failure, (wrap failure).root = failure.root) :
    Agree (fun reporting => (run reporting).within reporting wrap) verdict := by
  cases h with
  | holds hall =>
    refine .holds fun reporting => ?_
    rw [hall]
    rfl
  | fails failure hdetailed hquiet habort =>
    refine .fails (wrap failure) ?_ ?_ ?_
    · simp only [hdetailed, Outcome.within, Reporting.fail]
    · simp only [hquiet, Outcome.within, Reporting.fail]
    · simp only [habort, Outcome.within, hwrap]

theorem inBase (h : Agree run verdict) (subject : String) :
    Agree (fun reporting => (run reporting).within reporting (.inBase subject)) verdict :=
  h.within fun _ => rfl

theorem inPart (h : Agree run verdict) (index : Nat) :
    Agree (fun reporting => (run reporting).within reporting (.inPart index)) verdict :=
  h.within fun _ => rfl

/-- A failure that wraps no other is its own root. -/
theorem fail {failure : Failure} (hroot : failure.root = failure) :
    Agree (fun reporting => reporting.fail failure) false :=
  .fails failure rfl rfl (by rw [hroot]; rfl)

end Agree

end Outcome

open Outcome (Agree)

/-! ## Types -/

theorem Registry.isEmpty_missing {α : Type} [DecidableEq α] [PropertyFamily α] (r : Registry α)
    (properties : List α) : (r.missing properties).isEmpty = r.holdsAll properties := by
  rw [Bool.eq_iff_iff, List.isEmpty_iff, missing, List.map_eq_nil_iff, List.filter_eq_nil_iff,
    holdsAll, List.all_eq_true]
  simp

namespace Context

variable {ρ : Type} (h : Hierarchy)

theorem agree_demand (test : Bool) (failure : Failure) (hroot : failure.root = failure) :
    Agree (fun reporting => (Context.mk h reporting).demand test failure) test := by
  cases test with
  | true => exact .holds fun _ => rfl
  | false => exact .fail hroot

/-- Nothing is missing exactly if all properties hold. -/
theorem agree_requireTopology (t : TopologyLayer ρ) (properties : List TopologyProperty) :
    Agree (fun reporting => (Context.mk h reporting).requireTopology t properties)
      (t.registry.holdsAll properties) := by
  rw [← Registry.isEmpty_missing]
  exact agree_demand h _ (.lacks _ _) rfl

theorem agree_requireQuantum (t : QuantumLayer ρ) (properties : List QuantumProperty) :
    Agree (fun reporting => (Context.mk h reporting).requireQuantum t properties)
      (t.registry.holdsAll properties) := by
  rw [← Registry.isEmpty_missing]
  exact agree_demand h _ (.lacks _ _) rfl

theorem agree_demandRules (subject : String) (r : Registry TopologyProperty) :
    Agree (fun reporting => (Context.mk h reporting).demandRules subject r) r.respectsRules := by
  unfold demandRules Registry.respectsRules
  cases r.violatedRule? with
  | none => exact .holds fun _ => rfl
  | some rule => exact .fail rfl

theorem agree_checkMapping (kind : MappingKind) (source target : TopologyLayer ρ) :
    Agree (fun reporting => (Context.mk h reporting).checkMapping kind source target)
      (kind.admits source.registry target.registry) :=
  agree_demand h _ (.mapping _ _ _ _) rfl

variable [Meaning ρ]

theorem agree_checkSubtype [DecidableEq ρ] (sub sup : Ty ρ) :
    Agree (fun reporting => (Context.mk h reporting).checkSubtype sub sup)
      (sub.isSubtype h sup) :=
  agree_demand h (sub.isSubtype h sup) (.notSubtype _ _) rfl

theorem agree_demandClauses (subject : String) (clauses : Clauses ρ) (t : Ty ρ) :
    Agree (fun reporting => (Context.mk h reporting).demandClauses subject clauses t)
      (clauses.hold t) := by
  have hverdict : clauses.hold t = (clauses.failing? t).isNone := by
    rw [Bool.eq_iff_iff, Option.isNone_iff_eq_none, Clauses.failing?_eq_none_iff]
  rw [hverdict]
  unfold demandClauses
  cases clauses.failing? t with
  | none => exact .holds fun _ => rfl
  | some clause => exact .fail rfl

/-- The runs of the check of a type agree on whether the type is well formed. -/
theorem agree_check (t : Ty ρ) :
    Agree (fun reporting => (Context.mk h reporting).check t) t.wellFormed := by
  induction t with
  | basic name => exact .holds fun _ => rfl
  | topology base registry ih =>
    exact (ih.inBase _).andThen
      ((agree_requireTopology h ⟨base, registry⟩ _).andThen (agree_demandRules h _ registry))
  | quantum base registry ih =>
    exact (ih.inBase _).andThen
      ((agree_requireQuantum h ⟨base, registry⟩ _).andThen (agree_demand h _ (.incoherent _) rfl))
  | dependent base clauses ih =>
    exact (ih.inBase _).andThen (agree_demandClauses h _ clauses base)

/-- However failures are reported, the check of a type holds exactly if the type is well formed. -/
theorem check_agrees_with_wellFormed (t : Ty ρ) :
    Outcome.OneVerdict (fun reporting => (Context.mk h reporting).check t) t.wellFormed :=
  (agree_check h t).oneVerdict

end Context

/-! ## Constraints -/

namespace Constraint

variable {ρ : Type} [Meaning ρ] [DecidableEq ρ] (h : Hierarchy)

mutual

/-- The runs of the check of a constraint agree, however deep its parts are nested. -/
theorem agree_check (constraint : Constraint ρ) :
    ∃ verdict, Agree (fun reporting => constraint.check ⟨h, reporting⟩) verdict := by
  cases constraint with
  | subtype sub sup => exact ⟨_, Context.agree_checkSubtype h sub sup⟩
  | topological t => exact ⟨_, Context.agree_requireTopology h t topologicalDemands⟩
  | quantum t => exact ⟨_, Context.agree_requireQuantum h t quantumDemands⟩
  | dependent base layer =>
    exact ⟨_, (Context.agree_check h layer.toTy).andThen
      ((Context.agree_demand h _ (.refinement _ .predicate) rfl).andThen
        (Context.agree_checkSubtype h layer.toTy base))⟩
  | mapping kind source target => exact ⟨_, Context.agree_checkMapping h kind source target⟩
  | composite parts => exact agree_checkParts 0 parts

theorem agree_checkParts (index : Nat) (parts : List (Constraint ρ)) :
    ∃ verdict, Agree (fun reporting => checkParts ⟨h, reporting⟩ index parts) verdict := by
  cases parts with
  | nil => exact ⟨true, .holds fun _ => rfl⟩
  | cons part rest =>
    obtain ⟨first, hfirst⟩ := agree_check part
    obtain ⟨later, hlater⟩ := agree_checkParts (index + 1) rest
    exact ⟨first && later, (hfirst.inPart index).andThen hlater⟩

end

/-- The runs of the check of a constraint agree on what `verify` says, in any context. -/
theorem agree_verify (constraint : Constraint ρ) (ctx : Context) :
    Agree (fun reporting => constraint.check ⟨ctx.hierarchy, reporting⟩)
      (constraint.verify ctx) := by
  obtain ⟨verdict, hagree⟩ := agree_check ctx.hierarchy constraint
  have hverify : constraint.verify ctx = verdict := hagree.verdict_eq.symm
  rwa [hverify]

theorem check_eq_holds_iff (constraint : Constraint ρ) (ctx : Context) :
    constraint.check ctx = .holds ↔ constraint.verify ctx = true :=
  (constraint.agree_verify ctx).oneVerdict.holds_iff ctx.reporting

/-- The check of a constraint is given up if failures abort and the constraint does not hold. -/
theorem isAbort_check_iff (constraint : Constraint ρ) (ctx : Context) :
    (constraint.check ctx).IsAbort ↔
      ctx.reporting = .abort ∧ constraint.verify ctx = false := by
  have hagree := constraint.agree_verify ctx
  constructor
  · intro habort
    have hreporting : ctx.reporting = .abort :=
      Decidable.byContradiction fun hne => hagree.not_isAbort hne habort
    refine ⟨hreporting, ?_⟩
    rw [← Bool.not_eq_true, ← check_eq_holds_iff]
    intro hholds
    rw [hholds] at habort
    exact habort
  · rintro ⟨hreporting, hfails⟩
    obtain ⟨reason, hreason⟩ := hagree.oneVerdict.abort_iff.2 hfails
    have hcheck : constraint.check ctx = .aborts reason := by
      rw [← hreason, ← hreporting]
    rw [hcheck]
    trivial

theorem not_isAbort_check {ctx : Context} (hreporting : ctx.reporting ≠ .abort)
    (constraint : Constraint ρ) : ¬(constraint.check ctx).IsAbort := by
  obtain ⟨verdict, hagree⟩ := agree_check ctx.hierarchy constraint
  exact hagree.not_isAbort hreporting

/-- However failures are reported, the check of a constraint comes to the verdict that `verify`
gives in any context, and `verify` is never given up. -/
theorem verify_is_the_verdict (constraint : Constraint ρ) (reporting : Reporting) :
    Outcome.OneVerdict (fun reporting => constraint.check ⟨h, reporting⟩)
      (constraint.verify ⟨h, reporting⟩) ∧
    ¬(constraint.check { (⟨h, reporting⟩ : Context) with reporting := .quiet }).IsAbort := by
  obtain ⟨verdict, hagree⟩ := agree_check h constraint
  have hverify : constraint.verify ⟨h, reporting⟩ = verdict := hagree.verdict_eq.symm
  refine ⟨?_, constraint.not_isAbort_check fun hquiet => by cases hquiet⟩
  rw [hverify]
  exact hagree.oneVerdict

example :
    let constraint : Constraint Refinement :=
      .composite [.composite [], .composite [.subtype (.basic "number") (.basic "int")]]
    constraint.check ⟨.standard, .detailed⟩ =
        .fails (.inPart 1 (.inPart 0 (.notSubtype "number" "int"))) ∧
      constraint.check ⟨.standard, .abort⟩ = .aborts (.notSubtype "number" "int") := by
  decide +kernel

end Constraint

end SpaceTypes
