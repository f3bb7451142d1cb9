import SpaceTypes.Proofs.Places
import SpaceTypes.Proofs.Preservation

/-!
# Verdicts on programs

Verification can end with many errors, but after inference nearly all of them are out of reach. No
name is declared twice and every variable has a type, so that the names have an environment and all
names in claims are found there; and inference has made the sides of mappings topology types. What
remains are invariants about a type of the wrong kind (`Invariant.Refused`). Without one, each
mapping and then each invariant gets one verdict, on the types that were inferred
(`Verdict.Reports`).
-/

namespace SpaceTypes

open Declaration

variable {ρ : Type} {env : Environment ρ}

/-! ## Invariants that cannot be verified -/

/-- The invariant is about a type of another kind, and this is the error. -/
inductive Invariant.Refused (env : Environment ρ) : Invariant → AssemblyError → Prop where
  | topological {name : String} {t : Ty ρ} (ht : env.find? name = some t)
      (hkind : t.kind ≠ .topology) : Refused env (.topological name) (.mismatch .topological t)
  | quantum {name : String} {t : Ty ρ} (ht : env.find? name = some t)
      (hkind : t.kind ≠ .quantum) : Refused env (.quantum name) (.mismatch .quantum t)

theorem Invariant.Refused.not_verifiable {claim : Invariant} {e : AssemblyError}
    (h : claim.Refused env e) : ¬claim.Verifiable env.kind? := by
  intro hverifiable
  cases h with
  | topological ht hkind | quantum ht hkind =>
    simp only [Verifiable, Environment.kind?, ht, Option.map_some, Option.some.injEq]
      at hverifiable
    exact hkind hverifiable

namespace Inferred

theorem ofTopological_eq_error {t : Ty ρ} {e : AssemblyError}
    (h : Constraint.ofTopological t = .error e) :
    t.kind ≠ .topology ∧ e = .mismatch .topological t := by
  cases t with
  | topology base registry => cases h
  | _ =>
    cases h
    exact ⟨by simp [Ty.kind], rfl⟩

theorem ofQuantum_eq_error {t : Ty ρ} {e : AssemblyError}
    (h : Constraint.ofQuantum t = .error e) : t.kind ≠ .quantum ∧ e = .mismatch .quantum t := by
  cases t with
  | quantum base registry => cases h
  | _ =>
    cases h
    exact ⟨by simp [Ty.kind], rfl⟩

/-- If its names are defined, an invariant that cannot be verified is about a type of another
kind. -/
theorem refused_of_invariantEntry {claim : Invariant} {e : AssemblyError}
    (hnames : ∀ name ∈ claim.names, ∃ t, env.find? name = some t)
    (h : invariantEntry env claim = .error e) : claim.Refused env e := by
  have hdefined : ∀ {name}, name ∈ claim.names → ∃ k, env.kind? name = some k := by
    intro name hname
    obtain ⟨t, ht⟩ := hnames name hname
    exact ⟨t.kind, by simp [Environment.kind?, ht]⟩
  have verifiable_absurd : ¬claim.Verifiable env.kind? := by
    intro hverifiable
    obtain ⟨entry, hentry⟩ := invariantEntry_ok_iff.2 hverifiable
    rw [h] at hentry
    cases hentry
  cases claim with
  | subtype left right | equal left right =>
    exact absurd ⟨hdefined (by simp [Invariant.names]), hdefined (by simp [Invariant.names])⟩
      verifiable_absurd
  | topological name =>
    obtain ⟨t, ht⟩ := hnames name (by simp [Invariant.names])
    rcases bind_eq_error_iff.1 h with hconstraint | ⟨_, -, hend⟩
    · rw [invariantConstraint, Environment.lookup_eq_ok_iff.2 ht] at hconstraint
      obtain ⟨hkind, rfl⟩ := ofTopological_eq_error hconstraint
      exact .topological ht hkind
    · cases hend
  | quantum name =>
    obtain ⟨t, ht⟩ := hnames name (by simp [Invariant.names])
    rcases bind_eq_error_iff.1 h with hconstraint | ⟨_, -, hend⟩
    · rw [invariantConstraint, Environment.lookup_eq_ok_iff.2 ht] at hconstraint
      obtain ⟨hkind, rfl⟩ := ofQuantum_eq_error hconstraint
      exact .quantum ht hkind
    · cases hend

/-- Where all mappings can be verified, what cannot be is the first of the invariants with an
error. -/
theorem first_of_entries_error {inferred : Inferred ρ} {e : AssemblyError}
    (hmappings : ∀ claim ∈ inferred.mappings, claim.Verifiable env.kind?)
    (h : inferred.entries env = .error e) :
    ∃ before claim after, inferred.invariants = before ++ claim :: after ∧
      (∀ earlier ∈ before, earlier.Verifiable env.kind?) ∧
      invariantEntry env claim = .error e := by
  obtain ⟨first, hfirst⟩ := mapM_ok fun claim hmem => mappingEntry_ok_iff.2 (hmappings claim hmem)
  rcases bind_eq_error_iff.1 h with hmade | ⟨_, -, htail⟩
  · rw [hfirst] at hmade
    cases hmade
  · rcases bind_eq_error_iff.1 htail with hmade | ⟨_, -, hend⟩
    · obtain ⟨before, claim, after, hsplit, hbefore, hclaim⟩ := exists_of_mapM_error hmade
      exact ⟨before, claim, after, hsplit,
        fun earlier hmem => invariantEntry_ok_iff.1 (hbefore earlier hmem), hclaim⟩
    · cases hend

end Inferred

/-! ## Verdicts -/

variable [Meaning ρ] [DecidableEq ρ]

/-- The verdict on a mapping or an invariant, named after it, by the types of its names. -/
inductive Verdict.Reports (h : Hierarchy) (env : Environment ρ) (verdict : Verdict) :
    Scoped → Prop where
  /-- Both sides of a mapping have what its kind requires. -/
  | mapping {scope : Option String} {name kind source target : String} {k : MappingKind}
      {base base' : Ty ρ} {r r' : Registry TopologyProperty}
      (hk : MappingKind.ofName? kind = some k)
      (hsource : env.find? source = some (.topology base r))
      (htarget : env.find? target = some (.topology base' r'))
      (hsubject : verdict.subject = name)
      (hpassed : verdict.passed = true ↔
        r.get? k.requirement = some true ∧ r'.get? k.requirement = some true) :
      Reports h env verdict (scope, .mapping name kind source target)
  /-- The first type is a subtype of the second. -/
  | subtype {scope : Option String} {sub sup : String} {s t : Ty ρ}
      (hs : env.find? sub = some s) (ht : env.find? sup = some t)
      (hsubject : verdict.subject = (Invariant.subtype sub sup).text)
      (hpassed : verdict.passed = true ↔ s.isSubtype h t = true) :
      Reports h env verdict (scope, .invariant (.subtype sub sup))
  /-- The types are subtypes of each other. -/
  | equal {scope : Option String} {left right : String} {s t : Ty ρ}
      (hs : env.find? left = some s) (ht : env.find? right = some t)
      (hsubject : verdict.subject = (Invariant.equal left right).text)
      (hpassed : verdict.passed = true ↔ s.isSubtype h t = true ∧ t.isSubtype h s = true) :
      Reports h env verdict (scope, .invariant (.equal left right))
  /-- The topology type is connected, continuous and compact. -/
  | topological {scope : Option String} {name : String} {base : Ty ρ}
      {r : Registry TopologyProperty} (ht : env.find? name = some (.topology base r))
      (hsubject : verdict.subject = (Invariant.topological name).text)
      (hpassed : verdict.passed = true ↔ r.get? .connected = some true ∧
        r.get? .continuous = some true ∧ r.get? .compact = some true) :
      Reports h env verdict (scope, .invariant (.topological name))
  /-- The quantum type is unitary, normalized and entangled. -/
  | quantum {scope : Option String} {name : String} {base : Ty ρ}
      {r : Registry QuantumProperty} (ht : env.find? name = some (.quantum base r))
      (hsubject : verdict.subject = (Invariant.quantum name).text)
      (hpassed : verdict.passed = true ↔ r.get? .unitary = some true ∧
        r.get? .normalized = some true ∧ r.get? .entangled = some true) :
      Reports h env verdict (scope, .invariant (.quantum name))

namespace Verdict.Reports

open ConstraintSystem (Judges)

variable {ctx : Context} {index : Nat} {entry : Entry ρ} {verdict : Verdict}

/-- A verdict is good exactly if the runs of the check agree on that. -/
theorem passed_iff_of_agree {label : Option String} {constraint : Constraint ρ} {holds : Bool}
    (hjudges : Judges ctx index ⟨label, constraint⟩ verdict)
    (hagree : Outcome.Agree (fun reporting => constraint.check ⟨ctx.hierarchy, reporting⟩) holds) :
    verdict.passed = true ↔ holds = true := by
  rw [Verdict.passed_iff, hjudges.outcome_eq]
  exact hagree.oneVerdict.holds_iff ctx.reporting

theorem of_mappingEntry {item : Scoped} {claim : MappingClaim}
    (hclaim : mappingClaim? item = some claim)
    (hentry : Inferred.mappingEntry env claim = .ok entry)
    (hjudges : Judges ctx index entry verdict) : verdict.Reports ctx.hierarchy env item := by
  obtain ⟨scope, d⟩ := item
  cases d with
  | mapping name kind source target =>
    obtain ⟨k, hk, rfl⟩ := Option.map_eq_some_iff.1 hclaim
    obtain ⟨s, t, hs, ht, rfl⟩ := Inferred.mappingEntry_eq_ok hentry
    refine .mapping hk hs ht hjudges.subject_eq ?_
    rw [passed_iff_of_agree hjudges (Context.agree_checkMapping ctx.hierarchy k s t),
      MappingKind.admits, Bool.and_eq_true, Registry.holds_iff, Registry.holds_iff]
  | _ => cases hclaim

theorem of_invariantEntry {scope : Option String} {claim : Invariant}
    (hentry : Inferred.invariantEntry env claim = .ok entry)
    (hjudges : Judges ctx index entry verdict) :
    verdict.Reports ctx.hierarchy env (scope, .invariant claim) := by
  obtain ⟨constraint, hmade, hend⟩ := bind_eq_ok_iff.1 hentry
  cases hend
  cases claim with
  | subtype sub sup =>
    obtain ⟨s, hs, htail⟩ := bind_eq_ok_iff.1 hmade
    obtain ⟨t, ht, hend⟩ := bind_eq_ok_iff.1 htail
    cases hend
    exact .subtype (Environment.lookup_eq_ok_iff.1 hs) (Environment.lookup_eq_ok_iff.1 ht)
      hjudges.subject_eq
      (passed_iff_of_agree hjudges (Context.agree_checkSubtype ctx.hierarchy s t))
  | equal left right =>
    obtain ⟨s, hs, htail⟩ := bind_eq_ok_iff.1 hmade
    obtain ⟨t, ht, hend⟩ := bind_eq_ok_iff.1 htail
    cases hend
    refine .equal (Environment.lookup_eq_ok_iff.1 hs) (Environment.lookup_eq_ok_iff.1 ht)
      hjudges.subject_eq ?_
    have hagree := ((Context.agree_checkSubtype ctx.hierarchy s t).inPart 0).andThen
      (((Context.agree_checkSubtype ctx.hierarchy t s).inPart 1).andThen (.holds fun _ => rfl))
    rw [passed_iff_of_agree hjudges hagree, Bool.and_eq_true, Bool.and_true]
  | topological name =>
    obtain ⟨t, ht, htail⟩ := bind_eq_ok_iff.1 hmade
    obtain ⟨layer, hlayer, hend⟩ := bind_eq_ok_iff.1 htail
    cases hend
    rw [Inferred.toTy_of_topologyOperand hlayer] at ht
    refine .topological (Environment.lookup_eq_ok_iff.1 ht) hjudges.subject_eq ?_
    rw [passed_iff_of_agree hjudges (Context.agree_requireTopology ctx.hierarchy layer _),
      Registry.holdsAll_iff]
    simp [Constraint.topologicalDemands]
  | quantum name =>
    obtain ⟨t, ht, htail⟩ := bind_eq_ok_iff.1 hmade
    cases t with
    | quantum base r =>
      cases htail
      refine .quantum (Environment.lookup_eq_ok_iff.1 ht) hjudges.subject_eq ?_
      rw [passed_iff_of_agree hjudges (Context.agree_requireQuantum ctx.hierarchy ⟨base, r⟩ _),
        Registry.holdsAll_iff]
      simp [Constraint.quantumDemands]
    | _ => cases htail

end Verdict.Reports

/-- Corresponding members of two lists and of the second and a third. -/
theorem forall₂_comp {α β γ : Type} {R : α → β → Prop} {S : β → γ → Prop} {T : α → γ → Prop}
    (hcomp : ∀ {a b c}, R a b → S b c → T a c) {l : List α} {m : List β} {n : List γ}
    (h : List.Forall₂ R l m) (h' : List.Forall₂ S m n) : List.Forall₂ T l n := by
  induction h generalizing n with
  | nil =>
    cases h'
    exact .nil
  | cons hr _ ih =>
    cases h' with
    | cons hs hrest => exact .cons (hcomp hr hs) (ih hrest)

theorem ConstraintSystem.forall₂_of_checkEntries {ctx : Context} {index : Nat}
    {entries : List (Entry ρ)} {verdicts : List Verdict}
    (h : checkEntries ctx index entries = .ok verdicts) :
    List.Forall₂ (fun entry verdict => ∃ i, Judges ctx i entry verdict) entries verdicts := by
  induction entries generalizing index verdicts with
  | nil =>
    cases h
    exact .nil
  | cons entry rest ih =>
    obtain ⟨first, later, hjudges, hrest, rfl⟩ := checkEntries_cons_eq_ok_iff.1 h
    exact .cons ⟨index, hjudges⟩ (ih hrest)

/-! ## Programs with inferred types -/

namespace Declaration

/-- The declaration is a mapping. -/
def isMapping : Scoped → Bool
  | (_, mapping _ _ _ _) => true
  | _ => false

/-- The declaration is an invariant. -/
def isInvariant : Scoped → Bool
  | (_, invariant _) => true
  | _ => false

theorem isSome_mappingClaim? {known : String → Prop} {item : Scoped}
    (h : Admissible known item) : (mappingClaim? item).isSome = isMapping item := by
  obtain ⟨scope, d⟩ := item
  cases d with
  | mapping name kind source target =>
    obtain ⟨⟨k, hk⟩, -⟩ := h
    simp [mappingClaim?, isMapping, hk]
  | _ => rfl

theorem isSome_invariantClaim? (item : Scoped) :
    (invariantClaim? item).isSome = isInvariant item := by
  obtain ⟨scope, d⟩ := item
  cases d <;> rfl

theorem invariantClaim?_eq_some_iff {item : Scoped} {claim : Invariant} :
    invariantClaim? item = some claim ↔ item.2 = .invariant claim := by
  obtain ⟨scope, d⟩ := item
  cases d <;> simp [invariantClaim?]

end Declaration

variable {config : Config} {items : List Scoped} {c : Collection ρ} {solution : Solution ρ}

namespace Solved

/-- Inference has made the sides of all mappings topology types. -/
theorem verifiable_of_mem_mappings (h : Solved config items c solution)
    (henv : solution.toEnvironment = .ok env) :
    ∀ claim ∈ c.mappings, claim.Verifiable env.kind? := by
  intro claim hmem
  rw [h.collected.mappings_eq] at hmem
  obtain ⟨⟨scope, d⟩, hitem, hclaim⟩ := List.mem_filterMap.1 hmem
  cases d with
  | mapping name kind source target =>
    obtain ⟨k, -, rfl⟩ := Option.map_eq_some_iff.1 hclaim
    obtain ⟨_, i, j, -, hi, hj, hgoal, -⟩ := h.preserve_mem_goals hitem
    obtain ⟨_, _, _, _, hs, ht, -⟩ := h.holds _ hgoal
    constructor
    · rw [Environment.kind?, (h.find?_eq_some_iff henv hi).2 hs]
      rfl
    · rw [Environment.kind?, (h.find?_eq_some_iff henv hj).2 ht]
      rfl
  | _ => cases hclaim

theorem mem_invariants_iff (h : Solved config items c solution) {claim : Invariant} :
    claim ∈ c.invariants ↔ ∃ scope, (scope, .invariant claim) ∈ items := by
  simp only [h.collected.invariants_eq, List.mem_filterMap, invariantClaim?_eq_some_iff]
  constructor
  · rintro ⟨⟨scope, _⟩, hitem, rfl⟩
    exact ⟨scope, hitem⟩
  · rintro ⟨scope, hitem⟩
    exact ⟨_, hitem, rfl⟩

/-- The names in invariants have types. -/
theorem exists_type_of_invariant (h : Solved config items c solution)
    (henv : solution.toEnvironment = .ok env) {claim : Invariant} (hmem : claim ∈ c.invariants) :
    ∀ name ∈ claim.names, ∃ t, env.find? name = some t := by
  obtain ⟨scope, hitem⟩ := h.mem_invariants_iff.1 hmem
  intro name hname
  obtain ⟨i, hi⟩ := h.collected.admissible _ hitem name hname
  obtain ⟨t, -, ht⟩ := h.exists_type henv hi
  exact ⟨t, ht⟩

/-- An error of verification is that of the first invariant about a type of another kind. -/
theorem first_of_verify_error (h : Solved config items c solution)
    (henv : solution.toEnvironment = .ok env) (hreporting : config.reporting ≠ .abort)
    {error : ProgramError}
    (hverify : Inferred.verify config ⟨solution, c.mappings, c.invariants⟩ = .error error) :
    ∃ before claim after e, c.invariants = before ++ claim :: after ∧
      (∀ earlier ∈ before, ∀ e, ¬earlier.Refused env e) ∧ claim.Refused env e ∧
      error = .assembly e := by
  obtain ⟨e, hentries, rfl⟩ := (Inferred.verify_eq_error_iff hreporting henv).1 hverify
  obtain ⟨before, claim, after, hsplit, hbefore, hclaim⟩ :=
    Inferred.first_of_entries_error (h.verifiable_of_mem_mappings henv) hentries
  change c.invariants = before ++ claim :: after at hsplit
  have hmem : claim ∈ c.invariants :=
    hsplit ▸ List.mem_append_right before List.mem_cons_self
  exact ⟨before, claim, after, e, hsplit,
    fun earlier hearlier e hrefused => hrefused.not_verifiable (hbefore earlier hearlier),
    Inferred.refused_of_invariantEntry (h.exists_type_of_invariant henv hmem) hclaim, rfl⟩

/-- The verdicts of a report are on the mappings and then on the invariants. -/
theorem forall₂_reports (h : Solved config items c solution) {checked : Checked ρ}
    (hverify : Inferred.verify config ⟨solution, c.mappings, c.invariants⟩ = .ok checked) :
    List.Forall₂ (fun item verdict => verdict.Reports config.hierarchy checked.env item)
      (items.filter isMapping ++ items.filter isInvariant) checked.report.verdicts := by
  obtain ⟨-, entries, hentries, hverdicts⟩ := Inferred.verify_eq_ok hverify
  obtain ⟨first, hfirst, htail⟩ := bind_eq_ok_iff.1 hentries
  obtain ⟨later, hlater, hend⟩ := bind_eq_ok_iff.1 htail
  cases hend
  -- a declaration, its claim and the entry for that, from the left
  have hmappings := forall₂_filterMap fun item hitem =>
    isSome_mappingClaim? (h.collected.admissible item hitem)
  have hinvariants := forall₂_filterMap (l := items) fun item _ => isSome_invariantClaim? item
  rw [← h.collected.mappings_eq] at hmappings
  rw [← h.collected.invariants_eq] at hinvariants
  have hmade : List.Forall₂ (fun item entry => ∀ i verdict,
      ConstraintSystem.Judges config.context i entry verdict →
        verdict.Reports config.hierarchy checked.env item)
      (items.filter isMapping ++ items.filter isInvariant) (first ++ later) := by
    refine List.rel_append (forall₂_comp ?_ hmappings (forall₂_of_mapM hfirst))
      (forall₂_comp ?_ hinvariants (forall₂_of_mapM hlater))
    · intro item claim entry hclaim hentry i verdict hjudges
      exact .of_mappingEntry hclaim hentry hjudges
    · rintro ⟨scope, d⟩ claim entry hclaim hentry i verdict hjudges
      cases invariantClaim?_eq_some_iff.1 hclaim
      exact .of_invariantEntry hentry hjudges
  refine forall₂_comp ?_ hmade (ConstraintSystem.forall₂_of_checkEntries hverdicts)
  rintro item entry verdict hreports ⟨i, hjudges⟩
  exact hreports i verdict hjudges

end Solved

/-- What verification comes to, for a program whose types are inferred. -/
structure Inferred.Answers (config : Config) (program : List Declaration) (inferred : Inferred ρ)
    (env : Environment ρ) : Prop where
  /-- The names have the inferred types. -/
  env_eq : inferred.solution.toEnvironment = .ok env
  /-- There is an error exactly if some invariant is about a type of another kind. -/
  error_iff : (∃ error, inferred.verify config = .error error) ↔
    ∃ scope claim e, StandsIn program scope (.invariant claim) ∧ claim.Refused env e
  /-- The error is that of the first such invariant. -/
  first_refused : ∀ error, inferred.verify config = .error error →
    ∃ before claim after e,
      (flattenAll none program).filterMap invariantClaim? = before ++ claim :: after ∧
      (∀ earlier ∈ before, ∀ e, ¬earlier.Refused env e) ∧ claim.Refused env e ∧
      error = .assembly e
  /-- Otherwise there is a verdict on each mapping and then on each invariant, in the order of
  writing. -/
  reports : ∀ checked, inferred.verify config = .ok checked → checked.env = env ∧
    List.Forall₂ (fun item verdict => verdict.Reports config.hierarchy env item)
      ((flattenAll none program).filter isMapping ++ (flattenAll none program).filter isInvariant)
      checked.report.verdicts

/-- Where failures do not abort, once types are inferred only an invariant about a type of another
kind is an error, and without one each mapping and each invariant gets its verdict. -/
theorem inferred_verify_answers {program : List Declaration} {inferred : Inferred ρ}
    (hreporting : config.reporting ≠ .abort)
    (hinfer : inferProgram config program = .ok inferred) :
    ∃ env, inferred.Answers config program env := by
  obtain ⟨c, solution, -, h, rfl⟩ := solved_of_inferProgram hinfer
  obtain ⟨env, henv⟩ := h.toEnvironment_ok
  refine ⟨env, henv, ⟨?_, ?_⟩, ?_, ?_⟩
  · rintro ⟨error, hverify⟩
    obtain ⟨before, claim, after, e, hsplit, -, hrefused, -⟩ :=
      h.first_of_verify_error henv hreporting hverify
    obtain ⟨scope, hitem⟩ := h.mem_invariants_iff.1
      (hsplit ▸ List.mem_append_right before List.mem_cons_self)
    exact ⟨scope, claim, e, mem_flattenAll_iff.1 hitem, hrefused⟩
  · rintro ⟨scope, claim, e, hstands, hrefused⟩
    have hmem := h.mem_invariants_iff.2 ⟨scope, mem_flattenAll_iff.2 hstands⟩
    cases hverify : Inferred.verify config ⟨solution, c.mappings, c.invariants⟩ with
    | error error => exact ⟨error, rfl⟩
    | ok checked =>
      obtain ⟨env', henv', -, hinvariants⟩ :=
        (Inferred.verify_ok_iff hreporting).1 ⟨checked, hverify⟩
      cases henv.symm.trans henv'
      exact absurd (hinvariants claim hmem) hrefused.not_verifiable
  · intro error hverify
    rw [← h.collected.invariants_eq]
    exact h.first_of_verify_error henv hreporting hverify
  · intro checked hverify
    obtain ⟨henv', -⟩ := Inferred.verify_eq_ok hverify
    cases henv.symm.trans henv'
    exact ⟨rfl, h.forall₂_reports hverify⟩

/-- Claims before and inside what they are about. -/
def nestedClaims : List Declaration :=
  [.invariant (.equal "left" "right"),
    .space "left" (.layer .topology (.basic "real"))
      [.property "connected" true, .mapping "glue" "homotopy" "left" "right",
        .invariant (.topological "right")],
    .space "right" (.layer .topology (.basic "real")) []]

theorem nestedClaims_answered : ∃ (inferred : Inferred Refinement) (checked : Checked Refinement),
    inferProgram {} nestedClaims = .ok inferred ∧ inferred.verify {} = .ok checked ∧
    checked.report.verdicts.map (fun verdict => (verdict.subject, verdict.passed)) =
      [("glue", true), ("left == right", true), ("topological(right)", false)] ∧
    ∃ env, inferred.Answers {} nestedClaims env := by
  obtain ⟨inferred, hinfer, checked, hverify, hverdicts⟩ : ∃ inferred : Inferred Refinement,
      inferProgram {} nestedClaims = .ok inferred ∧ ∃ checked : Checked Refinement,
      inferred.verify {} = .ok checked ∧
      checked.report.verdicts.map (fun verdict => (verdict.subject, verdict.passed)) =
        [("glue", true), ("left == right", true), ("topological(right)", false)] := by
    simp only [← mem_toOption_iff]
    decide +kernel
  exact ⟨inferred, checked, hinfer, hverify, hverdicts,
    inferred_verify_answers (fun hreporting => by cases hreporting) hinfer⟩

end SpaceTypes
