import SpaceTypes.Proofs.Blame

/-!
# What a tree of constraints claims

Composite constraints make a tree, whose leaves are the constraints that are not composite. A leaf
is reached by a path, the numbers of the parts to enter from the outside in, and the leaves come
from left to right in the lexicographic order of their paths (`Constraint.LeafAt`). A constraint
holds exactly if all of its leaves do, and what a leaf claims is said by `Constraint.IsMet`.

The check of a tree stops at the first leaf that is not met. The numbers around its failure are the
path of that leaf, and what they are around is what the leaf fails with when it is checked alone
(`Constraint.exists_firstUnmet`). A leaf may fail inside the bases of a type, but never inside parts
of its own, so that the numbers end where the leaf begins.
-/

namespace SpaceTypes

/-- The numbers of the parts that a failure was found in, from the outside in, and what was found
there. -/
def Failure.parts : Failure → List Nat × Failure
  | inPart index inner => (index :: inner.parts.1, inner.parts.2)
  | failure => ([], failure)

namespace Constraint

variable {ρ : Type}

/-! ## Leaves -/

/-- The second constraint is no composite, and is reached in the first by entering parts of the
given numbers. -/
inductive LeafAt : Constraint ρ → List Nat → Constraint ρ → Prop where
  | here {leaf : Constraint ρ} (hkind : leaf.kind ≠ .composite) : LeafAt leaf [] leaf
  | inside {parts : List (Constraint ρ)} {index : Nat} {part leaf : Constraint ρ}
      {path : List Nat} (hpart : parts[index]? = some part) (hleaf : LeafAt part path leaf) :
      LeafAt (composite parts) (index :: path) leaf

theorem LeafAt.eq_of_kind_ne {c leaf : Constraint ρ} {path : List Nat} (h : LeafAt c path leaf)
    (hkind : c.kind ≠ .composite) : path = [] ∧ leaf = c := by
  cases h with
  | here => exact ⟨rfl, rfl⟩
  | inside => exact absurd rfl hkind

mutual

/-- What holds of every leaf, and of a composite if it holds of its parts, holds of every
constraint. -/
theorem induction_on_parts {P : Constraint ρ → Prop}
    (hleaf : ∀ c, c.kind ≠ .composite → P c)
    (hcomposite : ∀ parts, (∀ part ∈ parts, P part) → P (composite parts)) (c : Constraint ρ) :
    P c := by
  cases c with
  | composite parts => exact hcomposite parts (induction_on_list hleaf hcomposite parts)
  | _ => exact hleaf _ (fun hkind => by cases hkind)

theorem induction_on_list {P : Constraint ρ → Prop}
    (hleaf : ∀ c, c.kind ≠ .composite → P c)
    (hcomposite : ∀ parts, (∀ part ∈ parts, P part) → P (composite parts))
    (parts : List (Constraint ρ)) : ∀ part ∈ parts, P part := by
  cases parts with
  | nil => exact List.forall_mem_nil _
  | cons part rest =>
    exact List.forall_mem_cons.2
      ⟨induction_on_parts hleaf hcomposite part, induction_on_list hleaf hcomposite rest⟩

end

variable [Meaning ρ] [DecidableEq ρ] {h : Hierarchy}

/-- What a constraint that is no composite claims. -/
inductive IsMet (h : Hierarchy) : Constraint ρ → Prop where
  /-- The first type is a subtype of the second. -/
  | subtype {sub sup : Ty ρ} (hsub : sub.isSubtype h sup = true) : IsMet h (subtype sub sup)
  /-- The type is connected, continuous and compact. -/
  | topological {t : TopologyLayer ρ} (hconnected : t.registry.get? .connected = some true)
      (hcontinuous : t.registry.get? .continuous = some true)
      (hcompact : t.registry.get? .compact = some true) : IsMet h (topological t)
  /-- The type is unitary, normalized and entangled. -/
  | quantum {t : QuantumLayer ρ} (hunitary : t.registry.get? .unitary = some true)
      (hnormalized : t.registry.get? .normalized = some true)
      (hentangled : t.registry.get? .entangled = some true) : IsMet h (quantum t)
  /-- The dependent type is well formed, the base meets its predicate, and it is below the base. -/
  | dependent {base : Ty ρ} {layer : DependentLayer ρ} (hlayer : layer.toTy.wellFormed = true)
      (hpredicate : Meaning.holds layer.clauses.predicate base = true)
      (hsub : layer.toTy.isSubtype h base = true) : IsMet h (dependent base layer)
  /-- Both sides have what the kind of the mapping requires. -/
  | mapping {kind : MappingKind} {source target : TopologyLayer ρ}
      (hsource : source.registry.get? kind.requirement = some true)
      (htarget : target.registry.get? kind.requirement = some true) :
      IsMet h (mapping kind source target)

/-- The check of a leaf holds exactly if the leaf is met. -/
theorem check_leaf_eq_holds_iff {leaf : Constraint ρ} (hkind : leaf.kind ≠ .composite)
    (reporting : Reporting) : leaf.check ⟨h, reporting⟩ = .holds ↔ leaf.IsMet h := by
  cases leaf with
  | composite parts => exact absurd rfl hkind
  | subtype sub sup =>
    rw [check, (Context.agree_checkSubtype h sub sup).oneVerdict.holds_iff]
    constructor
    · exact .subtype
    · intro hmet
      cases hmet with
      | subtype hsub => exact hsub
  | topological t =>
    rw [check, (Context.agree_requireTopology h t _).oneVerdict.holds_iff]
    simp only [Registry.holdsAll, topologicalDemands, List.all_cons, List.all_nil, Bool.and_true,
      Bool.and_eq_true, Registry.holds_iff]
    constructor
    · rintro ⟨hconnected, hcontinuous, hcompact⟩
      exact .topological hconnected hcontinuous hcompact
    · intro hmet
      cases hmet with
      | topological hconnected hcontinuous hcompact =>
        exact ⟨hconnected, hcontinuous, hcompact⟩
  | quantum t =>
    rw [check, (Context.agree_requireQuantum h t _).oneVerdict.holds_iff]
    simp only [Registry.holdsAll, quantumDemands, List.all_cons, List.all_nil, Bool.and_true,
      Bool.and_eq_true, Registry.holds_iff]
    constructor
    · rintro ⟨hunitary, hnormalized, hentangled⟩
      exact .quantum hunitary hnormalized hentangled
    · intro hmet
      cases hmet with
      | quantum hunitary hnormalized hentangled => exact ⟨hunitary, hnormalized, hentangled⟩
  | dependent base layer =>
    rw [check, checkDependent, Outcome.andThen_eq_holds_iff, Outcome.andThen_eq_holds_iff,
      (Context.agree_check h layer.toTy).oneVerdict.holds_iff, Context.demand_eq_holds_iff,
      (Context.agree_checkSubtype h layer.toTy base).oneVerdict.holds_iff]
    constructor
    · rintro ⟨hlayer, hpredicate, hsub⟩
      exact .dependent hlayer hpredicate hsub
    · intro hmet
      cases hmet with
      | dependent hlayer hpredicate hsub => exact ⟨hlayer, hpredicate, hsub⟩
  | mapping kind source target =>
    rw [check, (Context.agree_checkMapping h kind source target).oneVerdict.holds_iff,
      MappingKind.admits, Bool.and_eq_true, Registry.holds_iff, Registry.holds_iff]
    constructor
    · rintro ⟨hsource, htarget⟩
      exact .mapping hsource htarget
    · intro hmet
      cases hmet with
      | mapping hsource htarget => exact ⟨hsource, htarget⟩

/-- A leaf does not fail inside parts. -/
theorem parts_of_check_leaf {leaf : Constraint ρ} (hkind : leaf.kind ≠ .composite)
    {own : Failure} (hcheck : leaf.check ⟨h, .detailed⟩ = .fails own) : own.parts = ([], own) := by
  cases leaf with
  | composite parts => exact absurd rfl hkind
  | dependent base layer =>
    rcases Outcome.andThen_eq_fails_iff.1 hcheck with hlayer | ⟨-, hcheck⟩
    · -- the dependent type fails inside its base, or by a failure of its own
      rcases (Context.check_detailed_eq_fails_iff rfl).1 hlayer with ⟨inner, -, rfl⟩ | ⟨-, hown⟩
      · rfl
      · cases hown
        rfl
    · rcases Outcome.andThen_eq_fails_iff.1 hcheck with hpredicate | ⟨-, hsub⟩
      · obtain ⟨-, rfl⟩ := Context.demand_detailed_eq_fails_iff.1 hpredicate
        rfl
      · obtain ⟨-, rfl⟩ := Context.demand_detailed_eq_fails_iff.1 hsub
        rfl
  | _ =>
    obtain ⟨-, rfl⟩ := Context.demand_detailed_eq_fails_iff.1 hcheck
    rfl

/-! ## Composites -/

variable {parts : List (Constraint ρ)} {index : Nat} {failure : Failure}

theorem checkParts_eq_holds_iff {ctx : Context} :
    checkParts ctx index parts = .holds ↔ ∀ part ∈ parts, part.check ctx = .holds := by
  induction parts generalizing index with
  | nil => simp [checkParts]
  | cons part rest ih =>
    rw [checkParts, Outcome.andThen_eq_holds_iff, Outcome.within_eq_holds_iff, ih,
      List.forall_mem_cons]

/-- Parts fail with the first of them that does, under its number. -/
theorem exists_part_of_checkParts
    (hcheck : checkParts ⟨h, .detailed⟩ index parts = .fails failure) :
    ∃ before part after inner, parts = before ++ part :: after ∧
      (∀ earlier ∈ before, earlier.check ⟨h, .detailed⟩ = .holds) ∧
      part.check ⟨h, .detailed⟩ = .fails inner ∧
      failure = .inPart (index + before.length) inner := by
  induction parts generalizing index with
  | nil => cases hcheck
  | cons part rest ih =>
    rw [checkParts, Outcome.andThen_eq_fails_iff, Outcome.within_detailed_eq_fails_iff,
      Outcome.within_eq_holds_iff] at hcheck
    rcases hcheck with ⟨inner, hpart, rfl⟩ | ⟨hholds, hrest⟩
    · exact ⟨[], part, rest, inner, rfl, List.forall_mem_nil _, hpart, rfl⟩
    · obtain ⟨before, failing, after, inner, rfl, hbefore, hfailing, rfl⟩ := ih hrest
      refine ⟨part :: before, failing, after, inner, rfl, List.forall_mem_cons.2 ⟨hholds, hbefore⟩,
        hfailing, ?_⟩
      rw [List.length_cons, Nat.add_assoc, Nat.add_comm 1]

/-- The check of a constraint holds exactly if all of its leaves are met. -/
theorem check_eq_holds_iff_isMet {c : Constraint ρ} {reporting : Reporting} :
    c.check ⟨h, reporting⟩ = .holds ↔ ∀ path leaf, LeafAt c path leaf → leaf.IsMet h := by
  induction c using induction_on_parts with
  | hleaf c hkind =>
    rw [check_leaf_eq_holds_iff hkind]
    constructor
    · intro hmet path leaf hleaf
      obtain ⟨-, rfl⟩ := hleaf.eq_of_kind_ne hkind
      exact hmet
    · intro hall
      exact hall [] c (.here hkind)
  | hcomposite parts ih =>
    rw [check, checkParts_eq_holds_iff]
    constructor
    · rintro hall path leaf hleaf
      cases hleaf with
      | here hkind => exact absurd rfl hkind
      | inside hpart hleaf =>
        have hmem := List.mem_of_getElem? hpart
        exact (ih _ hmem).1 (hall _ hmem) _ _ hleaf
    · intro hall part hmem
      obtain ⟨index, hpart⟩ := List.mem_iff_getElem?.1 hmem
      exact (ih part hmem).2 fun path leaf hleaf => hall _ _ (.inside hpart hleaf)

/-! ## The first leaf that is not met -/

/-- The leaf is not met, and all leaves to the left of it are. -/
structure FirstUnmet (h : Hierarchy) (c : Constraint ρ) (path : List Nat) (leaf : Constraint ρ) :
    Prop where
  /-- It is a leaf of the constraint. -/
  leafAt : LeafAt c path leaf
  /-- Its claim is wrong. -/
  not_isMet : ¬leaf.IsMet h
  /-- The claims of those before it are right. -/
  isMet_of_lt : ∀ path' leaf', LeafAt c path' leaf' → path' < path → leaf'.IsMet h

/-- In a composite, the first unmet leaf is that of the first part with one. -/
theorem FirstUnmet.composite {before after : List (Constraint ρ)} {part leaf : Constraint ρ}
    {path : List Nat} (hfirst : FirstUnmet h part path leaf)
    (hbefore : ∀ earlier ∈ before, earlier.check ⟨h, .detailed⟩ = .holds) :
    FirstUnmet h (composite (before ++ part :: after)) (before.length :: path) leaf := by
  have hpart : (before ++ part :: after)[before.length]? = some part := by simp
  refine ⟨.inside hpart hfirst.leafAt, hfirst.not_isMet, fun path' leaf' hleaf hlt => ?_⟩
  cases hleaf with
  | here hkind => exact absurd rfl hkind
  | @inside _ index part' _ rest hpart' hleaf =>
    rcases List.cons_lt_cons_iff.1 hlt with hindex | ⟨rfl, hrest⟩
    · -- the leaf is in a part before the failing one
      rw [List.getElem?_append_left hindex] at hpart'
      exact check_eq_holds_iff_isMet.1 (hbefore _ (List.mem_of_getElem? hpart')) _ _ hleaf
    · rw [hpart] at hpart'
      cases hpart'
      exact hfirst.isMet_of_lt _ _ hleaf hrest

/-- In full, the check of a constraint fails with what its first unmet leaf fails with, in the parts
on the path to that leaf. -/
theorem exists_firstUnmet {c : Constraint ρ} (hcheck : c.check ⟨h, .detailed⟩ = .fails failure) :
    ∃ path leaf own, FirstUnmet h c path leaf ∧ leaf.check ⟨h, .detailed⟩ = .fails own ∧
      failure.parts = (path, own) := by
  induction c using induction_on_parts generalizing failure with
  | hleaf c hkind =>
    refine ⟨[], c, failure, ⟨.here hkind, ?_, ?_⟩, hcheck, parts_of_check_leaf hkind hcheck⟩
    · rw [← check_leaf_eq_holds_iff hkind .detailed, hcheck]
      exact fun hholds => by cases hholds
    · exact fun path' leaf' _ hlt => absurd hlt (List.not_lt_nil path')
  | hcomposite parts ih =>
    obtain ⟨before, part, after, inner, rfl, hbefore, hpart, rfl⟩ :=
      exists_part_of_checkParts hcheck
    obtain ⟨path, leaf, own, hfirst, hown, hparts⟩ :=
      ih part (List.mem_append_right _ List.mem_cons_self) hpart
    refine ⟨before.length :: path, leaf, own, hfirst.composite hbefore, hown, ?_⟩
    rw [Failure.parts, hparts, Nat.zero_add]

/-- A constraint holds exactly if all leaves of its tree are met. Otherwise its failure in full
names the path to the first leaf that is not, from the left, around the failure of that leaf. -/
theorem verify_judges_leaves (c : Constraint ρ) (ctx : Context) :
    (c.verify ctx = true ↔ ∀ path leaf, LeafAt c path leaf → leaf.IsMet ctx.hierarchy) ∧
    (c.verify ctx = false → ∃ failure path leaf own,
      c.check ⟨ctx.hierarchy, .detailed⟩ = .fails failure ∧
      FirstUnmet ctx.hierarchy c path leaf ∧
      leaf.check ⟨ctx.hierarchy, .detailed⟩ = .fails own ∧ failure.parts = (path, own)) := by
  constructor
  · rw [← check_eq_holds_iff]
    exact check_eq_holds_iff_isMet
  · intro hfails
    obtain ⟨failure, hcheck⟩ := (c.agree_verify ctx).oneVerdict.detailed_iff.2 hfails
    obtain ⟨path, leaf, own, hfirst, hown, hparts⟩ := exists_firstUnmet hcheck
    exact ⟨failure, path, leaf, own, hcheck, hfirst, hown, hparts⟩

/-- Parts of several depths, some of them empty, in which a dependent type over a space that is not
continuous comes before another leaf that is not met. -/
def nestedParts : Constraint Refinement :=
  composite [composite [], subtype (.basic "int") (.basic "number"),
    composite [composite [composite []],
      mapping .homotopy ⟨.basic "real", .ofList [(.connected, true)]⟩
        ⟨.basic "int", .ofList [(.compact, false), (.connected, true)]⟩,
      dependent (.basic "real")
        ⟨.topology (.basic "real") .empty, ⟨0, .always⟩, ⟨1, .always⟩, ⟨2, .always⟩⟩],
    quantum ⟨.basic "qubit", .empty⟩]

theorem nestedParts_judged :
    nestedParts.check ⟨.standard, .detailed⟩ = .fails (.inPart 2 (.inPart 2
      (.inBase "Dependent<Topology<real>>"
        (.lacks "Topology<real>" [⟨.topology .continuous, .unset⟩])))) ∧
    nestedParts.verify ⟨.standard, .abort⟩ = false ∧
    ∃ failure path leaf own, nestedParts.check ⟨.standard, .detailed⟩ = .fails failure ∧
      FirstUnmet .standard nestedParts path leaf ∧
      leaf.check ⟨.standard, .detailed⟩ = .fails own ∧ failure.parts = (path, own) := by
  have hfails : nestedParts.verify ⟨.standard, .abort⟩ = false := by decide +kernel
  exact ⟨by decide +kernel, hfails, (verify_judges_leaves nestedParts ⟨.standard, .abort⟩).2 hfails⟩

end Constraint

end SpaceTypes
