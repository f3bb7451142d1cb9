import SpaceTypes.Program
import SpaceTypes.Proofs.SystemRuns

/-!
# Verifying the claims of a program

Once types are inferred, the names become an environment and each mapping and invariant becomes a
constraint that is checked there. Unless failures abort the check, the only thing that can go
wrong is a type of the wrong kind, so that whether there is a result depends on the kinds of the
types and not on their properties (`Inferred.verify_ok_iff`). The properties decide what the
report says: it has passed exactly if every constraint holds.
-/

namespace SpaceTypes

/-! ## Environments -/

namespace Environment

variable {ρ : Type} {env env' : Environment ρ}

theorem add_eq_ok {name : String} {t : Ty ρ} (h : env.add name t = .ok env') :
    env.find? name = none ∧ env'.find? name = some t ∧
      ∀ other, other ≠ name → env'.find? other = env.find? other := by
  unfold add at h
  split at h
  case isTrue => cases h
  case isFalse hnew =>
    cases h
    refine ⟨?_, NameTable.find?_insert_self _ name t,
      fun other hne => NameTable.find?_insert_of_ne _ hne t⟩
    simpa [contains, NameTable.contains, find?] using hnew

theorem add_ok {name : String} (h : env.find? name = none) (t : Ty ρ) :
    ∃ env', env.add name t = .ok env' := by
  have hnew : env.contains name = false := by
    change (env.find? name).isSome = false
    rw [h]
    rfl
  exact ⟨_, by rw [add, hnew]; rfl⟩

theorem lookup_eq_ok_iff {name : String} {t : Ty ρ} :
    env.lookup name = .ok t ↔ env.find? name = some t := by
  unfold lookup
  split <;> simp_all

/-- The kind of the type of a name. -/
def kind? (env : Environment ρ) (name : String) : Option Kind := (env.find? name).map Ty.kind

end Environment

namespace Solution

variable {ρ : Type} {env env' : Environment ρ} {entries : List (Variable ρ)}

/-- The definitions after defining variables are those from before and the bound variables. -/
theorem find?_of_define (h : define env entries = .ok env') (name : String) (t : Ty ρ) :
    env'.find? name = some t ↔ env.find? name = some t ∨
      ∃ entry ∈ entries, entry.name = name ∧ entry.binding = some t := by
  induction entries generalizing env with
  | nil =>
    cases h
    simp
  | cons entry rest ih =>
    unfold define at h
    cases hbinding : entry.binding with
    | none =>
      simp only [hbinding] at h
      simp [ih h, hbinding]
    | some s =>
      simp only [hbinding] at h
      obtain ⟨mid, hadd, hrest⟩ := bind_eq_ok_iff.1 h
      obtain ⟨hnew, hself, hother⟩ := Environment.add_eq_ok hadd
      rw [ih hrest]
      by_cases hname : name = entry.name
      · subst hname
        simp [hself, hnew, hbinding]
      · simp [hother name hname, Ne.symm hname]

theorem define_ok (hnodup : (entries.map Variable.name).Nodup)
    (hnew : ∀ entry ∈ entries, env.find? entry.name = none) :
    ∃ env', define env entries = .ok env' := by
  induction entries generalizing env with
  | nil => exact ⟨env, rfl⟩
  | cons entry rest ih =>
    obtain ⟨hfirst, hnodup⟩ := List.nodup_cons.1 hnodup
    unfold define
    cases entry.binding with
    | none => exact ih hnodup fun entry' hmem => hnew entry' (List.mem_cons_of_mem _ hmem)
    | some t =>
      obtain ⟨mid, hadd⟩ := Environment.add_ok (hnew entry List.mem_cons_self) t
      obtain ⟨-, -, hother⟩ := Environment.add_eq_ok hadd
      have hnew' : ∀ entry' ∈ rest, mid.find? entry'.name = none := by
        intro entry' hmem
        have hne : entry'.name ≠ entry.name := fun heq =>
          hfirst (heq ▸ List.mem_map_of_mem hmem)
        rw [hother _ hne]
        exact hnew entry' (List.mem_cons_of_mem _ hmem)
      obtain ⟨env', hrest⟩ := ih hnodup hnew'
      exact ⟨env', bind_eq_ok_iff.2 ⟨mid, hadd, hrest⟩⟩

/-- An environment gives each name the type of its variable. -/
theorem find?_of_toEnvironment {solution : Solution ρ} (h : solution.toEnvironment = .ok env)
    (name : String) (t : Ty ρ) : env.find? name = some t ↔
      ∃ i, solution.vars.name? i = some name ∧ solution.vars.get? i = some t := by
  have hempty : (Environment.empty : Environment ρ).find? name = none := rfl
  rw [find?_of_define h, hempty]
  simp only [reduceCtorEq, false_or]
  constructor
  · rintro ⟨entry, hmem, rfl, hbinding⟩
    obtain ⟨i, hi⟩ := List.mem_iff_getElem?.1 hmem
    exact ⟨i, by simp [Variables.name?, hi], by simp [Variables.get?, hi, hbinding]⟩
  · rintro ⟨i, hname, hget⟩
    obtain ⟨entry, hi, rfl⟩ := Option.map_eq_some_iff.1 hname
    refine ⟨entry, List.mem_of_getElem? hi, rfl, ?_⟩
    simpa [Variables.get?, hi] using hget

end Solution

/-! ## Claims -/

section

variable {ε α β : Type} {f : α → Except ε β} {l : List α}

theorem mapM_ok (h : ∀ a ∈ l, ∃ b, f a = .ok b) : ∃ bs, l.mapM f = .ok bs := by
  induction l with
  | nil => exact ⟨[], rfl⟩
  | cons a rest ih =>
    obtain ⟨b, hb⟩ := h a List.mem_cons_self
    obtain ⟨bs, hbs⟩ := ih fun a' ha' => h a' (List.mem_cons_of_mem _ ha')
    refine ⟨b :: bs, ?_⟩
    rw [List.mapM_cons]
    exact bind_eq_ok_iff.2 ⟨b, hb, bind_eq_ok_iff.2 ⟨bs, hbs, rfl⟩⟩

theorem forall₂_of_mapM {bs : List β} (h : l.mapM f = .ok bs) :
    List.Forall₂ (fun a b => f a = .ok b) l bs := by
  induction l generalizing bs with
  | nil =>
    cases h
    exact .nil
  | cons first rest ih =>
    rw [List.mapM_cons] at h
    obtain ⟨b, hb, htail⟩ := bind_eq_ok_iff.1 h
    obtain ⟨later, hrest, hend⟩ := bind_eq_ok_iff.1 htail
    cases hend
    exact .cons hb (ih hrest)

theorem mem_of_mapM {bs : List β} (h : l.mapM f = .ok bs) {a : α} (ha : a ∈ l) :
    ∃ b ∈ bs, f a = .ok b := by
  have hmade := forall₂_of_mapM h
  clear h
  induction hmade with
  | nil => cases ha
  | cons hb _ ih =>
    rcases List.mem_cons.1 ha with rfl | ha
    · exact ⟨_, List.mem_cons_self, hb⟩
    · obtain ⟨b', hmem, hb'⟩ := ih ha
      exact ⟨b', List.mem_cons_of_mem _ hmem, hb'⟩

/-- The error is that of the first member with one. -/
theorem exists_of_mapM_error {e : ε} (h : l.mapM f = .error e) :
    ∃ before a after, l = before ++ a :: after ∧ (∀ b ∈ before, ∃ r, f b = .ok r) ∧
      f a = .error e := by
  induction l with
  | nil => cases h
  | cons first rest ih =>
    rw [List.mapM_cons] at h
    rcases bind_eq_error_iff.1 h with hfirst | ⟨b, hb, htail⟩
    · exact ⟨[], first, rest, rfl, List.forall_mem_nil _, hfirst⟩
    · rcases bind_eq_error_iff.1 htail with hrest | ⟨_, -, hend⟩
      · obtain ⟨before, a, after, rfl, hbefore, ha⟩ := ih hrest
        exact ⟨first :: before, a, after, rfl, List.forall_mem_cons.2 ⟨⟨b, hb⟩, hbefore⟩, ha⟩
      · cases hend

end

/-- Both sides of the mapping are topology types. -/
def MappingClaim.Verifiable (kind? : String → Option Kind) (claim : MappingClaim) : Prop :=
  kind? claim.source = some .topology ∧ kind? claim.target = some .topology

/-- The names of the invariant have types of the kind that it is about. -/
def Invariant.Verifiable (kind? : String → Option Kind) : Invariant → Prop
  | subtype sub sup => (∃ k, kind? sub = some k) ∧ ∃ k, kind? sup = some k
  | equal left right => (∃ k, kind? left = some k) ∧ ∃ k, kind? right = some k
  | topological name => kind? name = some .topology
  | quantum name => kind? name = some .quantum

theorem MappingClaim.Verifiable.mono {kind? kind?' : String → Option Kind}
    (hkind : ∀ name k, kind? name = some k → kind?' name = some k) {claim : MappingClaim}
    (h : claim.Verifiable kind?) : claim.Verifiable kind?' :=
  ⟨hkind _ _ h.1, hkind _ _ h.2⟩

theorem Invariant.Verifiable.mono {kind? kind?' : String → Option Kind}
    (hkind : ∀ name k, kind? name = some k → kind?' name = some k) {claim : Invariant}
    (h : claim.Verifiable kind?) : claim.Verifiable kind?' := by
  have hdefined : ∀ {name}, (∃ k, kind? name = some k) → ∃ k, kind?' name = some k :=
    fun ⟨k, hk⟩ => ⟨k, hkind _ k hk⟩
  cases claim with
  | subtype sub sup => exact ⟨hdefined h.1, hdefined h.2⟩
  | equal left right => exact ⟨hdefined h.1, hdefined h.2⟩
  | topological name => exact hkind _ _ h
  | quantum name => exact hkind _ _ h

namespace Inferred

variable {ρ : Type} {env : Environment ρ}

theorem kind?_eq_some_iff {name : String} {k : Kind} :
    env.kind? name = some k ↔ ∃ t, env.lookup name = .ok t ∧ t.kind = k := by
  simp only [Environment.kind?, Option.map_eq_some_iff, Environment.lookup_eq_ok_iff]

theorem topologyOperand_ok_iff {use : TypeUse} {t : Ty ρ} :
    (∃ layer, Constraint.topologyOperand use t = .ok layer) ↔ t.kind = .topology := by
  cases t <;> simp [Constraint.topologyOperand, Ty.topologyLayer?, Ty.kind]

theorem ofQuantum_ok_iff {t : Ty ρ} :
    (∃ constraint, Constraint.ofQuantum t = .ok constraint) ↔ t.kind = .quantum := by
  cases t <;> simp [Constraint.ofQuantum, Ty.quantumLayer?, Ty.kind]

theorem toTy_of_topologyOperand {use : TypeUse} {t : Ty ρ} {layer : TopologyLayer ρ}
    (h : Constraint.topologyOperand use t = .ok layer) : t = layer.toTy := by
  cases t with
  | topology base r =>
    cases h
    rfl
  | _ => cases h

/-- The constraint of a mapping is about the topology types of its sides. -/
theorem mappingEntry_eq_ok {claim : MappingClaim} {entry : Entry ρ}
    (h : mappingEntry env claim = .ok entry) :
    ∃ source target : TopologyLayer ρ, env.find? claim.source = some source.toTy ∧
      env.find? claim.target = some target.toTy ∧
      entry = ⟨some claim.name, .mapping claim.kind source target⟩ := by
  obtain ⟨s, hs, htail⟩ := bind_eq_ok_iff.1 h
  obtain ⟨t, ht, htail'⟩ := bind_eq_ok_iff.1 htail
  obtain ⟨constraint, hmapping, hend⟩ := bind_eq_ok_iff.1 htail'
  obtain ⟨source, hsource, htail''⟩ := bind_eq_ok_iff.1 hmapping
  obtain ⟨target, htarget, hend'⟩ := bind_eq_ok_iff.1 htail''
  cases hend
  cases hend'
  rw [toTy_of_topologyOperand hsource] at hs
  rw [toTy_of_topologyOperand htarget] at ht
  exact ⟨source, target, Environment.lookup_eq_ok_iff.1 hs, Environment.lookup_eq_ok_iff.1 ht, rfl⟩

theorem mappingEntry_ok_iff {claim : MappingClaim} :
    (∃ entry, mappingEntry env claim = .ok entry) ↔ claim.Verifiable env.kind? := by
  simp only [MappingClaim.Verifiable, kind?_eq_some_iff]
  constructor
  · rintro ⟨entry, h⟩
    obtain ⟨source, target, hs, ht, -⟩ := mappingEntry_eq_ok h
    exact ⟨⟨_, Environment.lookup_eq_ok_iff.2 hs, rfl⟩,
      ⟨_, Environment.lookup_eq_ok_iff.2 ht, rfl⟩⟩
  · rintro ⟨⟨s, hs, hskind⟩, t, ht, htkind⟩
    obtain ⟨source, hsource⟩ := topologyOperand_ok_iff.2 hskind
    obtain ⟨target, htarget⟩ := topologyOperand_ok_iff.2 htkind
    exact ⟨_, bind_eq_ok_iff.2 ⟨s, hs, bind_eq_ok_iff.2 ⟨t, ht, bind_eq_ok_iff.2
      ⟨_, bind_eq_ok_iff.2 ⟨source, hsource, bind_eq_ok_iff.2 ⟨target, htarget, rfl⟩⟩, rfl⟩⟩⟩⟩

/-- A constraint on two types can be made if both names are defined. -/
theorem lookup_pair_ok_iff {left right : String} {make : Ty ρ → Ty ρ → Constraint ρ} :
    (∃ constraint, (do
      let a ← env.lookup left
      let b ← env.lookup right
      return make a b : Except AssemblyError (Constraint ρ)) = .ok constraint) ↔
      (∃ k, env.kind? left = some k) ∧ ∃ k, env.kind? right = some k := by
  simp only [kind?_eq_some_iff]
  constructor
  · rintro ⟨constraint, h⟩
    obtain ⟨a, ha, htail⟩ := bind_eq_ok_iff.1 h
    obtain ⟨b, hb, -⟩ := bind_eq_ok_iff.1 htail
    exact ⟨⟨_, a, ha, rfl⟩, _, b, hb, rfl⟩
  · rintro ⟨⟨_, a, ha, rfl⟩, _, b, hb, rfl⟩
    exact ⟨_, bind_eq_ok_iff.2 ⟨a, ha, bind_eq_ok_iff.2 ⟨b, hb, rfl⟩⟩⟩

theorem invariantConstraint_ok_iff {claim : Invariant} :
    (∃ constraint, invariantConstraint env claim = .ok constraint) ↔
      claim.Verifiable env.kind? := by
  cases claim with
  | subtype sub sup => exact lookup_pair_ok_iff
  | equal left right => exact lookup_pair_ok_iff
  | topological name =>
    simp only [Invariant.Verifiable, kind?_eq_some_iff]
    constructor
    · rintro ⟨constraint, h⟩
      obtain ⟨t, ht, htail⟩ := bind_eq_ok_iff.1 h
      obtain ⟨layer, hlayer, -⟩ := bind_eq_ok_iff.1 htail
      exact ⟨t, ht, topologyOperand_ok_iff.1 ⟨layer, hlayer⟩⟩
    · rintro ⟨t, ht, hkind⟩
      obtain ⟨layer, hlayer⟩ := topologyOperand_ok_iff.2 hkind
      exact ⟨_, bind_eq_ok_iff.2 ⟨t, ht, bind_eq_ok_iff.2 ⟨layer, hlayer, rfl⟩⟩⟩
  | quantum name =>
    simp only [Invariant.Verifiable, kind?_eq_some_iff]
    constructor
    · rintro ⟨constraint, h⟩
      obtain ⟨t, ht, hquantum⟩ := bind_eq_ok_iff.1 h
      exact ⟨t, ht, ofQuantum_ok_iff.1 ⟨constraint, hquantum⟩⟩
    · rintro ⟨t, ht, hkind⟩
      obtain ⟨constraint, hquantum⟩ := ofQuantum_ok_iff.2 hkind
      exact ⟨constraint, bind_eq_ok_iff.2 ⟨t, ht, hquantum⟩⟩

theorem invariantEntry_ok_iff {claim : Invariant} :
    (∃ entry, invariantEntry env claim = .ok entry) ↔ claim.Verifiable env.kind? := by
  rw [← invariantConstraint_ok_iff]
  constructor
  · rintro ⟨entry, h⟩
    obtain ⟨constraint, hconstraint, -⟩ := bind_eq_ok_iff.1 h
    exact ⟨constraint, hconstraint⟩
  · rintro ⟨constraint, hconstraint⟩
    exact ⟨_, bind_eq_ok_iff.2 ⟨constraint, hconstraint, rfl⟩⟩

/-! ## The whole of verification -/

variable [Meaning ρ] [DecidableEq ρ] {config : Config} {inferred : Inferred ρ}

/-- What a result consists of. -/
theorem verify_eq_ok {checked : Checked ρ} (h : inferred.verify config = .ok checked) :
    inferred.solution.toEnvironment = .ok checked.env ∧
    ∃ entries, inferred.entries checked.env = .ok entries ∧
      ConstraintSystem.checkEntries config.context 0 entries = .ok checked.report.verdicts := by
  obtain ⟨env, henv, htail⟩ := bind_eq_ok_iff.1 h
  obtain ⟨entries, hentries, htail'⟩ := bind_eq_ok_iff.1 htail
  obtain ⟨report, hreport, hend⟩ := bind_eq_ok_iff.1 htail'
  obtain ⟨verdicts, hverdicts, hreport'⟩ := bind_eq_ok_iff.1 (mapError_eq_ok_iff.1 hreport)
  cases hend
  cases hreport'
  exact ⟨mapError_eq_ok_iff.1 henv, entries, mapError_eq_ok_iff.1 hentries, hverdicts⟩

/-- Where failures do not abort, all entries get verdicts. -/
theorem checkEntries_ok (hreporting : config.reporting ≠ .abort) (entries : List (Entry ρ)) :
    ∃ verdicts, ConstraintSystem.checkEntries config.context 0 entries = .ok verdicts := by
  have hcontext : config.context.reporting ≠ .abort := hreporting
  exact ConstraintSystem.checkEntries_ok_iff.2 fun entry _ =>
    entry.constraint.not_isAbort_check hcontext

/-- Where failures do not abort, there is a result exactly if the names are different and the
claims are about types of the right kinds. -/
theorem verify_ok_iff (hreporting : config.reporting ≠ .abort) :
    (∃ checked, inferred.verify config = .ok checked) ↔
      ∃ env, inferred.solution.toEnvironment = .ok env ∧
        (∀ claim ∈ inferred.mappings, claim.Verifiable env.kind?) ∧
        ∀ claim ∈ inferred.invariants, claim.Verifiable env.kind? := by
  constructor
  · rintro ⟨checked, h⟩
    obtain ⟨henv, entries, hentries, -⟩ := verify_eq_ok h
    obtain ⟨mappings, hmappings, htail⟩ := bind_eq_ok_iff.1 hentries
    obtain ⟨invariants, hinvariants, -⟩ := bind_eq_ok_iff.1 htail
    refine ⟨checked.env, henv, fun claim hmem => ?_, fun claim hmem => ?_⟩
    · obtain ⟨entry, -, hentry⟩ := mem_of_mapM hmappings hmem
      exact mappingEntry_ok_iff.1 ⟨entry, hentry⟩
    · obtain ⟨entry, -, hentry⟩ := mem_of_mapM hinvariants hmem
      exact invariantEntry_ok_iff.1 ⟨entry, hentry⟩
  · rintro ⟨env, henv, hmappings, hinvariants⟩
    obtain ⟨first, hfirst⟩ := mapM_ok fun claim hmem => mappingEntry_ok_iff.2 (hmappings claim hmem)
    obtain ⟨later, hlater⟩ := mapM_ok fun claim hmem =>
      invariantEntry_ok_iff.2 (hinvariants claim hmem)
    have hentries : inferred.entries env = .ok (first ++ later) :=
      bind_eq_ok_iff.2 ⟨first, hfirst, bind_eq_ok_iff.2 ⟨later, hlater, rfl⟩⟩
    obtain ⟨verdicts, hverdicts⟩ := checkEntries_ok hreporting (first ++ later)
    refine ⟨⟨env, ⟨verdicts⟩, env.illFormed⟩, bind_eq_ok_iff.2 ⟨env, mapError_eq_ok_iff.2 henv,
      bind_eq_ok_iff.2 ⟨_, mapError_eq_ok_iff.2 hentries, bind_eq_ok_iff.2 ⟨⟨verdicts⟩,
        mapError_eq_ok_iff.2 (bind_eq_ok_iff.2 ⟨verdicts, hverdicts, rfl⟩), rfl⟩⟩⟩⟩

/-- Where failures do not abort and the names are different, only a constraint that cannot be made
is an error. -/
theorem verify_eq_error_iff (hreporting : config.reporting ≠ .abort)
    (henv : inferred.solution.toEnvironment = .ok env) {error : ProgramError} :
    inferred.verify config = .error error ↔
      ∃ e, inferred.entries env = .error e ∧ error = .assembly e := by
  have hverify : inferred.verify config = (do
      let entries ← (inferred.entries env).mapError ProgramError.assembly
      let system : ConstraintSystem ρ := { context := config.context, entries }
      let report ← system.check.mapError ProgramError.aborted
      return ⟨env, report, env.illFormed⟩) := by
    unfold verify
    rw [henv]
    rfl
  rw [hverify, bind_eq_error_iff, mapError_eq_error_iff]
  refine or_iff_left ?_
  rintro ⟨entries, -, htail⟩
  obtain ⟨verdicts, hverdicts⟩ := checkEntries_ok hreporting entries
  simp only [ConstraintSystem.check, hverdicts] at htail
  cases htail

/-- In a report that has passed, both sides of each mapping have what its kind requires. -/
theorem admits_of_passed {checked : Checked ρ} (h : inferred.verify config = .ok checked)
    (hpassed : checked.report.passed = true) {claim : MappingClaim}
    (hmem : claim ∈ inferred.mappings) :
    ∃ source target : TopologyLayer ρ, checked.env.find? claim.source = some source.toTy ∧
      checked.env.find? claim.target = some target.toTy ∧
      claim.kind.admits source.registry target.registry = true := by
  obtain ⟨-, entries, hentries, hverdicts⟩ := verify_eq_ok h
  obtain ⟨mappings, hmappings, htail⟩ := bind_eq_ok_iff.1 hentries
  obtain ⟨invariants, -, hend⟩ := bind_eq_ok_iff.1 htail
  cases hend
  obtain ⟨entry, hentry, hmade⟩ := mem_of_mapM hmappings hmem
  obtain ⟨source, target, hs, ht, rfl⟩ := mappingEntry_eq_ok hmade
  have hholds := ConstraintSystem.check_of_passed hverdicts hpassed _
    (List.mem_append_left _ hentry)
  have hagree := Context.agree_checkMapping config.hierarchy claim.kind source target
  exact ⟨source, target, hs, ht, (hagree.oneVerdict.holds_iff config.reporting).1 hholds⟩

end Inferred

end SpaceTypes
