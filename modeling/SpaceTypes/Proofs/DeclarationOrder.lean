import SpaceTypes.Proofs.Accepted
import SpaceTypes.Proofs.Completeness
import SpaceTypes.Refinement

/-!
# The order of declarations

Names may be used before they are declared, and what is collected from declarations does not depend
on their order, except for the order of the goals. Inference applies them in that order, and one
kind of goal looks at what is not known yet: a mapping fills a property that its target leaves
unset, even where a later declaration denies it, which is a conflict then. With the denial first,
the same mapping leaves its target alone. So the order can decide whether a program is accepted,
and this is the only way in which it can.
-/

namespace SpaceTypes

open Declaration

/-! ## Notions that do not depend on the order -/

namespace Declaration

variable {items items' : List Scoped}

theorem flattenAll_perm {declarations declarations' : List Declaration}
    (h : declarations.Perm declarations') (scope : Option String) :
    (flattenAll scope declarations).Perm (flattenAll scope declarations') := by
  rw [flattenAll_eq_flatMap, flattenAll_eq_flatMap]
  exact h.flatMap_right (flatten scope)

theorem declaredNames_perm (h : items.Perm items') :
    (declaredNames items).Perm (declaredNames items') :=
  (h.filterMap _).map _

theorem Inherits.of_perm (h : items.Perm items') {name outer : String}
    (hinherits : Inherits items name outer) : Inherits items' name outer := by
  refine Relation.ReflTransGen.mono ?_ name outer hinherits
  rintro inner outer ⟨body, hmem⟩
  exact ⟨body, h.mem_iff.1 hmem⟩

theorem Denies.of_perm (h : items.Perm items') {name : String} {p : Property}
    (hdenies : Denies items name p) : Denies items' name p := by
  obtain ⟨outer, word, hinherits, hmem, hp⟩ := hdenies
  exact ⟨outer, word, hinherits.of_perm h, h.mem_iff.1 hmem, hp⟩

end Declaration

/-! ## The types of another order -/

section

variable {ρ : Type} {config : Config} {items items' : List Scoped} {c c' : Collection ρ}
  {solution : Solution ρ}

/-- The types that a solution gives to the variables of the same names in another collection. -/
def Solution.typesFor (solution : Solution ρ) (c c' : Collection ρ) (i : Nat) : Option (Ty ρ) :=
  (c'.system.vars.name? i).bind fun name => (c.names.find? name).bind solution.vars.get?

namespace Collection.Collected

theorem knows_perm (h : Collected config items c) (h' : Collected config items' c')
    (hperm : items.Perm items') {name : String} : c'.Knows name ↔ c.Knows name := by
  rw [h'.indexed.knows_iff h'.entries_eq, h.indexed.knows_iff h.entries_eq]
  exact (declaredNames_perm hperm).mem_iff.symm

theorem typesFor_eq (h' : Collected config items' c') {name : String} {i j : Nat}
    (hi : c'.names.find? name = some i) (hj : c.names.find? name = some j) :
    solution.typesFor c c' i = solution.vars.get? j := by
  rw [Solution.typesFor, (h'.indexed name i).1 hi, Option.bind_some, hj, Option.bind_some]

theorem exists_of_typesFor (h' : Collected config items' c') {i : Nat} {t : Ty ρ}
    (ht : solution.typesFor c c' i = some t) :
    ∃ name j, c'.names.find? name = some i ∧ c.names.find? name = some j ∧
      solution.vars.get? j = some t := by
  obtain ⟨name, hname, htail⟩ := Option.bind_eq_some_iff.1 ht
  obtain ⟨j, hj, hget⟩ := Option.bind_eq_some_iff.1 htail
  exact ⟨name, j, (h'.indexed name i).2 hname, hj, hget⟩

end Collection.Collected

end

variable {ρ : Type} [Meaning ρ] [DecidableEq ρ] {config : Config} {items items' : List Scoped}
  {c c' : Collection ρ} {solution : Solution ρ}

namespace Solved

/-- The goals of another order hold of the same types. -/
theorem holds_of_perm (h : Solved config items c solution) (h' : c'.Collected config items')
    (hperm : items.Perm items') {goal : Goal} (hgoal : goal ∈ c'.system.goals) :
    goal.Holds config.hierarchy (solution.typesFor c c') := by
  have find_of : ∀ {name i}, c'.names.find? name = some i → ∃ j, c.names.find? name = some j :=
    fun hi => (h.collected.knows_perm h' hperm).1 ⟨_, hi⟩
  rcases h'.mem_goals_iff.1 hgoal with ⟨item, hitem, hyields⟩ | ⟨hrules, i, hi, rfl⟩
  · have hitem : item ∈ items := hperm.mem_iff.2 hitem
    have hmem : ∀ {goal}, Yields c.names.find? item goal → goal ∈ c.system.goals := fun hyields =>
      h.collected.mem_goals_iff.2 (Or.inl ⟨item, hitem, hyields⟩)
    cases hyields with
    | sameAs hi hj =>
      obtain ⟨i', hi'⟩ := find_of hi
      obtain ⟨j', hj'⟩ := find_of hj
      have hholds := h.holds _ (hmem (.sameAs hi' hj'))
      simpa only [Goal.Holds, h'.typesFor_eq hi hi', h'.typesFor_eq hj hj'] using hholds
    | subtype hi hj =>
      obtain ⟨i', hi'⟩ := find_of hi
      obtain ⟨j', hj'⟩ := find_of hj
      have hholds := h.holds _ (hmem (.subtype hi' hj'))
      simpa only [Goal.Holds, h'.typesFor_eq hi hi', h'.typesFor_eq hj hj'] using hholds
    | preserve hk hi hj =>
      obtain ⟨i', hi'⟩ := find_of hi
      obtain ⟨j', hj'⟩ := find_of hj
      have hholds := h.holds _ (hmem (.preserve hk hi' hj'))
      simpa only [Goal.Holds, h'.typesFor_eq hi hi', h'.typesFor_eq hj hj'] using hholds
    | property hi hp =>
      obtain ⟨i', hi'⟩ := find_of hi
      have hholds := h.holds _ (hmem (.property hi' hp))
      simpa only [Goal.Holds, h'.typesFor_eq hi hi'] using hholds
  · obtain ⟨name, hi⟩ := h'.exists_find? hi
    obtain ⟨j, hj⟩ := find_of hi
    have hholds := h.holds (.derive j) (h.collected.mem_goals_iff.2
      (Or.inr ⟨hrules, j, h.collected.lt_size_of_find? hj, rfl⟩))
    simpa only [Goal.Holds, h'.typesFor_eq hi hj] using hholds

/-- The types of a solution are a model of the goals in any other order. -/
theorem model_of_perm (h : Solved config items c solution) (h' : c'.Collected config items')
    (hperm : items.Perm items') :
    c'.system.Model config.hierarchy (solution.typesFor c c') where
  lt_size ht := by
    obtain ⟨name, j, hi, -⟩ := h'.exists_of_typesFor ht
    exact h'.lt_size_of_find? hi
  kind_ne i t ht := by
    obtain ⟨type, rfl⟩ := h'.exists_toTy_of_get? ht
    exact type.kind_toTy_ne
  consistent i t ht := by
    obtain ⟨name, j, -, -, hget⟩ := h'.exists_of_typesFor ht
    exact GoalSystem.solution_consistent h.solve_eq hget
  start i t ht := by
    obtain ⟨name, hi⟩ := h'.exists_find? (Variables.lt_size_of_get? ht)
    obtain ⟨j, hj⟩ := (h.collected.knows_perm h' hperm).1 ⟨i, hi⟩
    obtain ⟨type, hdeclared, rfl⟩ := (h'.get?_eq_some_iff hi).1 ht
    have hdeclared : (name, some type) ∈ declared items :=
      (hperm.filterMap _).mem_iff.2 hdeclared
    have hstart := (h.collected.get?_eq_some_iff hj).2 ⟨type, hdeclared, rfl⟩
    obtain ⟨t, ht, hgrow⟩ := (GoalSystem.solution_growsTo h.solve_eq).get?_grows hstart
    refine ⟨t, by rw [h'.typesFor_eq hi hj, ht], hgrow.bare_eq, fun e he => ?_⟩
    rw [type.recorded_toTy] at he
    cases he
  holds goal hgoal := h.holds_of_perm h' hperm hgoal
  bare_eq hshare _ ht hs := by
    obtain ⟨name, outer, body, hitem, hi, hj⟩ := h'.sameAs_mem_goals_iff.1 hshare
    obtain ⟨i', hi'⟩ := (h.collected.knows_perm h' hperm).1 ⟨_, hi⟩
    obtain ⟨j', hj'⟩ := (h.collected.knows_perm h' hperm).1 ⟨_, hj⟩
    rw [h'.typesFor_eq hi hi'] at ht
    rw [h'.typesFor_eq hj hj'] at hs
    obtain ⟨_, _, _, houter, hj₁, hs₁, hbare⟩ := h.exists_outer (hperm.mem_iff.2 hitem) hi' ht
    cases houter
    cases hj'.symm.trans hj₁
    cases hs.symm.trans hs₁
    exact hbare

/-- Every variable is grounded in any other order. -/
theorem grounded_of_perm (h : Solved config items c solution) (h' : c'.Collected config items')
    (hperm : items.Perm items') {i : Nat} (hi : i < c'.system.vars.size) :
    c'.system.Grounded i := by
  obtain ⟨name, hi⟩ := h'.exists_find? hi
  obtain ⟨j, hj⟩ := (h.collected.knows_perm h' hperm).1 ⟨i, hi⟩
  obtain ⟨t, ht⟩ := h.exists_get? hj
  obtain ⟨n, hrun⟩ := GoalSystem.solution_run h.solve_eq
  obtain ⟨outer, type, hinherits, hdeclared⟩ :=
    (h.collected.grounded_iff hj).1 (GoalSystem.grounded_of_run hrun ht)
  exact (h'.grounded_iff hi).2 ⟨outer, type, hinherits.of_perm hperm,
    (hperm.filterMap _).mem_iff.1 hdeclared⟩

end Solved

/-! ## Inference in another order -/

namespace Solved

/-- If types can be inferred in one order, they can be inferred in any other order in which no
mapping fills what the types of the first deny, with no more properties. -/
theorem solve_of_perm (h : Solved config items c solution) (h' : c'.Collected config items')
    (hperm : items.Perm items') (hlimit : config.passLimit = none)
    (hfill : ∀ x ∈ c'.system.trace config, x.2.Below (solution.typesFor c c') → ∀ i q m,
      x.1.Fills x.2 i q → solution.typesFor c c' i = some m →
      m.value? (.topology q) ≠ some false) :
    ∃ solution', Solved config items' c' solution' ∧
      solution'.vars.Below (solution.typesFor c c') := by
  obtain ⟨solution', hsolve, hbelow⟩ := GoalSystem.solve_ok_of_model (h.model_of_perm h' hperm)
    (fun n hn => by rw [hlimit] at hn; cases hn) (fun i hi => h.grounded_of_perm h' hperm hi)
    hfill
  exact ⟨solution', ⟨h', hsolve⟩, hbelow⟩

/-- Where types were inferred, what a mapping has filled on the way is not denied. -/
theorem not_denies_of_fills (h : Solved config items c solution) {x : Goal × Variables ρ}
    (hx : x ∈ c.system.trace config) {i : Nat} {q : TopologyProperty} (hfills : x.1.Fills x.2 i q)
    {name : String} (hi : c.names.find? name = some i) : ¬Denies items name (.topology q) := by
  intro hdenies
  obtain ⟨t, ht, htrue⟩ := GoalSystem.value?_of_fills h.solve_eq hx hfills
  rw [(h.value?_eq_false_iff hi ht).2 hdenies] at htrue
  cases htrue

/-- In another order the names have types with no more properties. -/
theorem below_of_find? (h : Solved config items c solution) {solution' : Solution ρ}
    (h' : Solved config items' c' solution') (hperm : items.Perm items')
    (hbelow : solution'.vars.Below (solution.typesFor c c')) {env env' : Environment ρ}
    (henv : solution.toEnvironment = .ok env) (henv' : solution'.toEnvironment = .ok env')
    {name : String} {t : Ty ρ} (ht : env.find? name = some t) :
    ∃ t', env'.find? name = some t' ∧ t'.Below t := by
  obtain ⟨j, hj, hget⟩ := h.exists_find? henv ht
  obtain ⟨i, hi⟩ := (h.collected.knows_perm h'.collected hperm).2 ⟨j, hj⟩
  obtain ⟨t', ht'⟩ := h'.exists_get? hi
  have htypes : solution.typesFor c c' i = some t := by
    rw [h'.collected.typesFor_eq hi hj, hget]
  exact ⟨t', (h'.find?_eq_some_iff henv' hi).2 ht', hbelow.below ht' htypes⟩

/-- If the claims can be verified in one order, they can be verified in another, where the names
have types with no more properties. -/
theorem verify_of_perm (h : Solved config items c solution) {solution' : Solution ρ}
    (h' : Solved config items' c' solution') (hperm : items.Perm items')
    (hbelow : solution'.vars.Below (solution.typesFor c c'))
    (hreporting : config.reporting ≠ .abort) {checked : Checked ρ}
    (hverify : Inferred.verify config ⟨solution, c.mappings, c.invariants⟩ = .ok checked) :
    ∃ checked' : Checked ρ,
      Inferred.verify config ⟨solution', c'.mappings, c'.invariants⟩ = .ok checked' ∧
      ∀ name t, checked.env.find? name = some t →
        ∃ t', checked'.env.find? name = some t' ∧ t'.Below t := by
  obtain ⟨henv, -⟩ := Inferred.verify_eq_ok hverify
  obtain ⟨env, henv₁, hmappings, hinvariants⟩ :=
    (Inferred.verify_ok_iff hreporting).1 ⟨checked, hverify⟩
  cases henv.symm.trans henv₁
  obtain ⟨env', henv'⟩ := h'.toEnvironment_ok
  have hkind : ∀ name k, checked.env.kind? name = some k → env'.kind? name = some k := by
    intro name k hk
    obtain ⟨t, ht, rfl⟩ := Option.map_eq_some_iff.1 hk
    obtain ⟨t', ht', hbelow'⟩ := h.below_of_find? h' hperm hbelow henv henv' ht
    exact Option.map_eq_some_iff.2 ⟨t', ht', hbelow'.kind_eq⟩
  have hmappings' : ∀ claim ∈ c'.mappings, claim.Verifiable env'.kind? := by
    intro claim hmem
    refine (hmappings claim ?_).mono hkind
    rw [h'.collected.mappings_eq] at hmem
    rw [h.collected.mappings_eq]
    exact (hperm.filterMap _).mem_iff.2 hmem
  have hinvariants' : ∀ claim ∈ c'.invariants, claim.Verifiable env'.kind? := by
    intro claim hmem
    refine (hinvariants claim ?_).mono hkind
    rw [h'.collected.invariants_eq] at hmem
    rw [h.collected.invariants_eq]
    exact (hperm.filterMap _).mem_iff.2 hmem
  have hok : ∃ checked' : Checked ρ,
      Inferred.verify config ⟨solution', c'.mappings, c'.invariants⟩ = .ok checked' :=
    (Inferred.verify_ok_iff hreporting).2 ⟨env', henv', hmappings', hinvariants'⟩
  obtain ⟨checked', hverify'⟩ := hok
  obtain ⟨henv₂, -⟩ := Inferred.verify_eq_ok hverify'
  exact ⟨checked', hverify', fun name t ht => h.below_of_find? h' hperm hbelow henv henv₂ ht⟩

end Solved

omit [Meaning ρ] [DecidableEq ρ] in
/-- What is collected from one order can be collected from any other. -/
theorem Collection.collect_of_perm {declarations declarations' : List Declaration}
    (hperm : declarations.Perm declarations')
    (hcollect : ({} : Collection ρ).collect config declarations = (c, none)) :
    ∃ c', ({} : Collection ρ).collect config declarations' = (c', none) := by
  have hitems := flattenAll_perm hperm none
  have hnames := declaredNames_perm hitems
  have h := Collection.collected_of_collect hcollect
  refine Collection.collect_ok config (hnames.nodup_iff.1 h.nodup) fun item hitem => ?_
  refine (h.admissible item (hitems.mem_iff.2 hitem)).mono fun name hname => ?_
  exact hnames.mem_iff.1 ((h.indexed.knows_iff h.entries_eq).1 hname)

/-! ## Acceptance -/

/-- Checking the program gives a result, whatever its report says. -/
def Accepted (ρ : Type) [Meaning ρ] [DecidableEq ρ] (config : Config)
    (declarations : List Declaration) : Prop :=
  ∃ checked : Checked ρ, checkProgram config declarations = .ok checked

/-- On the way of inference, a mapping fills a property that the declarations deny to its
target. -/
def FillsDenied (ρ : Type) [Meaning ρ] [DecidableEq ρ] (config : Config)
    (declarations : List Declaration) : Prop :=
  ∃ c : Collection ρ, ({} : Collection ρ).collect config declarations = (c, none) ∧
    ∃ x ∈ c.system.trace config, ∃ i q name, x.1.Fills x.2 i q ∧ c.names.find? name = some i ∧
      Denies (flattenAll none declarations) name (.topology q)

/-- No target of a mapping is denied a property that the mapping preserves and its source has. -/
def Preserving (declarations : List Declaration) (env : Environment ρ) : Prop :=
  ∀ scope name kind source target, (scope, .mapping name kind source target) ∈
    flattenAll none declarations → ∀ k s t, MappingKind.ofName? kind = some k →
    env.find? source = some s → env.find? target = some t → ∀ p ∈ k.preserves,
    s.value? (.topology p) = some true → t.value? (.topology p) ≠ some false

variable {declarations declarations' : List Declaration}

theorem not_fillsDenied_of_accepted (h : Accepted ρ config declarations) :
    ¬FillsDenied ρ config declarations := by
  rintro ⟨c, hcollect, x, hx, i, q, name, hfills, hi, hdenies⟩
  obtain ⟨checked, hcheck⟩ := h
  obtain ⟨c', solution, hcollect', hsolved, -⟩ := solved_of_checkProgram hcheck
  cases hcollect.symm.trans hcollect'
  exact hsolved.not_denies_of_fills hx hfills hi hdenies

/-- If a program is accepted in one order, it is accepted in any other order in which no mapping
fills what the inferred types deny, and the names have types with no more properties there. -/
theorem Solved.check_of_perm (hlimit : config.passLimit = none)
    (hreporting : config.reporting ≠ .abort) (hperm : declarations.Perm declarations')
    (h : Solved config (flattenAll none declarations) c solution) {checked : Checked ρ}
    (hverify : Inferred.verify config ⟨solution, c.mappings, c.invariants⟩ = .ok checked)
    (hcollect : ({} : Collection ρ).collect config declarations' = (c', none))
    (hfill : ∀ x ∈ c'.system.trace config, x.2.Below (solution.typesFor c c') → ∀ i q m,
      x.1.Fills x.2 i q → solution.typesFor c c' i = some m →
      m.value? (.topology q) ≠ some false) :
    ∃ checked' : Checked ρ, checkProgram config declarations' = .ok checked' ∧
      ∀ name t, checked.env.find? name = some t →
        ∃ t', checked'.env.find? name = some t' ∧ t'.Below t := by
  have hitems := flattenAll_perm hperm none
  obtain ⟨solution', h', hbelow⟩ :=
    h.solve_of_perm (Collection.collected_of_collect hcollect) hitems hlimit hfill
  obtain ⟨checked', hverify', henv⟩ := h.verify_of_perm h' hitems hbelow hreporting hverify
  exact ⟨checked', (checkProgram_eq_verify hcollect h'.solve_eq).trans hverify', henv⟩

theorem accepted_of_perm (hlimit : config.passLimit = none)
    (hreporting : config.reporting ≠ .abort) (hperm : declarations.Perm declarations')
    (h : Accepted ρ config declarations) (hfills : ¬FillsDenied ρ config declarations') :
    Accepted ρ config declarations' := by
  obtain ⟨checked, hcheck⟩ := h
  obtain ⟨c, solution, hcollect, h, hverify⟩ := solved_of_checkProgram hcheck
  obtain ⟨c', hcollect'⟩ := Collection.collect_of_perm hperm hcollect
  have h' := Collection.collected_of_collect hcollect'
  have hnot : ∀ x ∈ c'.system.trace config, x.2.Below (solution.typesFor c c') → ∀ i q m,
      x.1.Fills x.2 i q → solution.typesFor c c' i = some m →
      m.value? (.topology q) ≠ some false := by
    intro x hx _ i q m hfill hm hfalse
    obtain ⟨name, j, hi, hj, hget⟩ := h'.exists_of_typesFor hm
    have hdenies := (h.value?_eq_false_iff hj hget).1 hfalse
    exact hfills ⟨c', hcollect', x, hx, i, q, name, hfill, hi,
      hdenies.of_perm (flattenAll_perm hperm none)⟩
  obtain ⟨checked', hcheck', -⟩ :=
    h.check_of_perm hlimit hreporting hperm hverify hcollect' hnot
  exact ⟨checked', hcheck'⟩

/-- A program that is accepted with mappings that preserve is so in any order. -/
theorem preserving_of_perm (hlimit : config.passLimit = none)
    (hreporting : config.reporting ≠ .abort) (hperm : declarations.Perm declarations')
    {checked : Checked ρ} (hcheck : checkProgram config declarations = .ok checked)
    (hpreserving : Preserving declarations checked.env) :
    ∃ checked' : Checked ρ, checkProgram config declarations' = .ok checked' ∧
      Preserving declarations' checked'.env := by
  have hitems := flattenAll_perm hperm none
  obtain ⟨c, solution, hcollect, h, hverify⟩ := solved_of_checkProgram hcheck
  obtain ⟨henv, -⟩ := Inferred.verify_eq_ok hverify
  obtain ⟨c', hcollect'⟩ := Collection.collect_of_perm hperm hcollect
  have h' := Collection.collected_of_collect hcollect'
  have hnot : ∀ x ∈ c'.system.trace config, x.2.Below (solution.typesFor c c') → ∀ i q m,
      x.1.Fills x.2 i q → solution.typesFor c c' i = some m →
      m.value? (.topology q) ≠ some false := by
    rintro ⟨goal, vars⟩ hx hbelow i q m hfill hm
    cases goal with
    | preserve source target k =>
      obtain ⟨rfl, hq, ⟨s, hs, hheld⟩, -⟩ := hfill
      obtain ⟨_, _, _, _, _, hitem, hk, hi, hj⟩ :=
        h'.preserve_mem_goals_iff.1 (GoalSystem.mem_goals_of_traceFrom hx)
      obtain ⟨i', hi'⟩ := (h.collected.knows_perm h' hitems).1 ⟨_, hi⟩
      obtain ⟨j', hj'⟩ := (h.collected.knows_perm h' hitems).1 ⟨_, hj⟩
      obtain ⟨n, hn, hsn⟩ := hbelow _ s hs
      rw [h'.typesFor_eq hi hi', ← h.find?_eq_some_iff henv hi'] at hn
      rw [h'.typesFor_eq hj hj', ← h.find?_eq_some_iff henv hj'] at hm
      exact hpreserving _ _ _ _ _ (hitems.mem_iff.2 hitem) k n m hk hn hm q hq
        (hsn.value? hheld)
    | _ => exact hfill.elim
  obtain ⟨checked', hcheck', hbelow⟩ :=
    h.check_of_perm hlimit hreporting hperm hverify hcollect' hnot
  refine ⟨checked', hcheck', ?_⟩
  intro scope name kind source target hmem k s' t' hk hs' ht' p hp hheld hfalse
  have hmem := hitems.mem_iff.2 hmem
  obtain ⟨-, ⟨i, hi⟩, j, hj⟩ := h.collected.admissible _ hmem
  obtain ⟨s, hs⟩ := h.exists_get? hi
  obtain ⟨t, ht⟩ := h.exists_get? hj
  rw [← h.find?_eq_some_iff henv hi] at hs
  rw [← h.find?_eq_some_iff henv hj] at ht
  obtain ⟨s₁, hs₁, hsbelow⟩ := hbelow source s hs
  obtain ⟨t₁, ht₁, htbelow⟩ := hbelow target t ht
  cases hs'.symm.trans hs₁
  cases ht'.symm.trans ht₁
  exact hpreserving scope name kind source target hmem k s t hk hs ht p hp
    (hsbelow.value? hheld) (htbelow.value? hfalse)

/-- If a program is accepted in one order, it is accepted in another exactly if no mapping fills
there what the declarations deny to its target. In particular the order does not matter for
programs whose mappings preserve. -/
theorem accepted_in_any_order (hperm : declarations.Perm declarations') :
    (Accepted ρ {} declarations →
      (Accepted ρ {} declarations' ↔ ¬FillsDenied ρ {} declarations')) ∧
    ((∃ checked : Checked ρ, checkProgram {} declarations = .ok checked ∧
        Preserving declarations checked.env) ↔
      ∃ checked : Checked ρ, checkProgram {} declarations' = .ok checked ∧
        Preserving declarations' checked.env) := by
  have hreporting : ({} : Config).reporting ≠ .abort := by decide
  refine ⟨fun h => ⟨not_fillsDenied_of_accepted, accepted_of_perm rfl hreporting hperm h⟩, ?_, ?_⟩
  · rintro ⟨checked, hcheck, hpreserving⟩
    exact preserving_of_perm rfl hreporting hperm hcheck hpreserving
  · rintro ⟨checked, hcheck, hpreserving⟩
    exact preserving_of_perm rfl hreporting hperm.symm hcheck hpreserving

/-- A mapping from a connected space to one that is not, after both of them. -/
def denialFirst : List Declaration :=
  [.space "a" (.layer .topology (.basic "real")) [.property "connected" true],
    .space "b" (.layer .topology (.basic "real")) [.property "connected" false],
    .mapping "f" "homotopy" "a" "b"]

/-- The same declarations, with the mapping before its target. -/
def mappingFirst : List Declaration :=
  [.space "a" (.layer .topology (.basic "real")) [.property "connected" true],
    .mapping "f" "homotopy" "a" "b",
    .space "b" (.layer .topology (.basic "real")) [.property "connected" false]]

theorem denialFirst_perm : denialFirst.Perm mappingFirst := by decide

theorem denialFirst_accepted : Accepted Refinement {} denialFirst := by
  have hsome : (checkProgram {} denialFirst :
      Except ProgramError (Checked Refinement)).toOption.isSome = true := by decide +kernel
  obtain ⟨checked, hmem⟩ := Option.isSome_iff_exists.1 hsome
  exact ⟨checked, mem_toOption_iff.1 hmem⟩

theorem mappingFirst_conflict : checkProgram {} mappingFirst =
    (.error (.inference (.conflict "b" (.property (.topology .connected) true false))) :
      Except ProgramError (Checked Refinement)) := by
  cbv

/-- With the mapping first, it fills what the declaration after it denies. -/
theorem mappingFirst_fillsDenied : denialFirst.Perm mappingFirst ∧
    Accepted Refinement {} denialFirst ∧ FillsDenied Refinement {} mappingFirst := by
  refine ⟨denialFirst_perm, denialFirst_accepted, ?_⟩
  by_contra hnot
  obtain ⟨checked, hcheck⟩ :=
    ((accepted_in_any_order denialFirst_perm).1 denialFirst_accepted).2 hnot
  rw [mappingFirst_conflict] at hcheck
  cases hcheck

/-- The order of the declarations decides whether the program is accepted. -/
theorem mapping_before_denial_rejected : denialFirst.Perm mappingFirst ∧
    Accepted Refinement {} denialFirst ∧ ¬Accepted Refinement {} mappingFirst := by
  refine ⟨denialFirst_perm, denialFirst_accepted, ?_⟩
  rintro ⟨checked, hcheck⟩
  rw [mappingFirst_conflict] at hcheck
  cases hcheck

end SpaceTypes
