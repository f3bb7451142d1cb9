import SpaceTypes.Proofs.NameOrder
import SpaceTypes.Proofs.Subtyping

/-!
# Subtyping as an order

Every type is below itself. Transitivity is a matter of the type on top: each of its dependent
layers asks for refinements, and whatever they accept they have to accept in subtypes too.

Below a dependent type stands what passes its refinements (`Ty.Passes`) and, without a dependent
layer of its own (`Ty.peel`), is below the base (`Ty.Conforms.dependent_right_iff`). With one such
rule for each form of the type on top, transitivity is an induction on that type alone
(`Ty.Conforms.trans`).

Refinements are compared layer by layer from the outside (`Ty.PassesAll`). One more dependent layer
on a type moves all of its layers one step further, so that they stand across from other
refinements than before. It therefore does not always leave the type below what it was below; what
it takes is in `Ty.dependent_isSubtype_of_base_isSubtype`.
-/

namespace SpaceTypes

namespace Ty

variable {ρ : Type}

/-! ## Dependent layers on the outside -/

/-- The type without its outermost layer, if that is a dependent one. -/
def peel : Ty ρ → Ty ρ
  | dependent base _ => base
  | t => t

/-- The refinements of the dependent layers on the outside, outermost first. -/
def outerClauses : Ty ρ → List (Clauses ρ)
  | dependent base clauses => clauses :: base.outerClauses
  | _ => []

/-- Induction over the dependent layers on the outside. -/
theorem outer_induction {P : Ty ρ → Prop} (plain : ∀ t, t.kind ≠ .dependent → P t)
    (layer : ∀ base clauses, P base → P (dependent base clauses)) (t : Ty ρ) : P t := by
  induction t with
  | dependent base clauses ih => exact layer base clauses ih
  | _ => exact plain _ (by simp [kind])

/-- The outermost layer is a dependent one or is not. -/
theorem outer_cases {P : Ty ρ → Prop} (plain : ∀ t, t.kind ≠ .dependent → P t)
    (layer : ∀ base clauses, P (dependent base clauses)) (t : Ty ρ) : P t :=
  outer_induction plain (fun base clauses _ => layer base clauses) t

theorem peel_of_kind_ne {t : Ty ρ} (ht : t.kind ≠ .dependent) : t.peel = t := by
  cases t with
  | dependent base clauses => exact absurd rfl ht
  | _ => rfl

theorem core_of_kind_ne {t : Ty ρ} (ht : t.kind ≠ .dependent) : t.core = t := by
  cases t with
  | dependent base clauses => exact absurd rfl ht
  | _ => rfl

@[simp]
theorem core_peel (t : Ty ρ) : t.peel.core = t.core := by
  cases t <;> rfl

variable [Meaning ρ]

/-- The type passes the refinements of a dependent layer that stands across from its outermost
layer: a dependent type does if they are its own or if its base meets them. -/
def Passes : Ty ρ → Clauses ρ → Prop
  | dependent base own, clauses => own = clauses ∨ clauses.hold base = true
  | t, clauses => clauses.hold t = true

/-- Layer by layer, the first type passes the refinements on the outside of the second. -/
def PassesAll : Ty ρ → Ty ρ → Prop
  | t, dependent base clauses => PassesAll t.peel base ∧ t.Passes clauses
  | _, _ => True

theorem passes_of_kind_ne {t : Ty ρ} (ht : t.kind ≠ .dependent) {clauses : Clauses ρ} :
    t.Passes clauses ↔ clauses.hold t = true := by
  cases t with
  | dependent base own => exact absurd rfl ht
  | _ => rfl

theorem passes_of_hold_peel {t : Ty ρ} {clauses : Clauses ρ} (hhold : clauses.hold t.peel = true) :
    t.Passes clauses := by
  cases t with
  | dependent base own => exact Or.inr hhold
  | _ => exact hhold

theorem passesAll_of_kind_ne {t r : Ty ρ} (hr : r.kind ≠ .dependent) : t.PassesAll r := by
  cases r with
  | dependent base own => exact absurd rfl hr
  | _ => trivial

namespace Conforms

variable {h : Hierarchy} {a b c t r : Ty ρ} {clauses : Clauses ρ}

/-- A type is below a dependent type exactly if it passes the refinements and, peeled, is below the
base. -/
theorem dependent_right_iff :
    Conforms h t (.dependent r clauses) ↔ Conforms h t.peel r ∧ t.Passes clauses := by
  cases t using outer_cases with
  | plain t ht =>
    rw [peel_of_kind_ne ht, passes_of_kind_ne ht]
    refine ⟨fun hconforms => ?_, fun ⟨hbase, hclauses⟩ => .right ht hbase hclauses⟩
    cases hconforms with
    | dependent hbase hclauses => exact absurd rfl ht
    | left hright hbase => exact absurd rfl ht
    | right hleft hbase hclauses => exact ⟨hbase, hclauses⟩
  | layer l own =>
    refine ⟨fun hconforms => ?_, fun ⟨hbase, hpasses⟩ => .dependent hbase hpasses⟩
    cases hconforms with
    | dependent hbase hclauses => exact ⟨hbase, hclauses⟩
    | left hright hbase => exact absurd rfl hright
    | right hleft hbase hclauses => exact absurd rfl hleft

theorem peel_left_iff (hr : r.kind ≠ .dependent) : Conforms h t.peel r ↔ Conforms h t r := by
  cases t with
  | dependent l own =>
    refine ⟨fun hbase => .left hr hbase, fun hconforms => ?_⟩
    cases hconforms with
    | dependent hbase hclauses => exact absurd rfl hr
    | left hright hbase => exact hbase
    | right hleft hbase hclauses => exact absurd rfl hr
  | _ => rfl

/-- Below a type without dependent layers on the outside, those on the left do not count. -/
theorem core_left_iff (hr : r.kind ≠ .dependent) : Conforms h t.core r ↔ Conforms h t r := by
  induction t using outer_induction with
  | plain t ht => rw [core_of_kind_ne ht]
  | layer l own ih => exact ih.trans (peel_left_iff (t := .dependent l own) hr)

/-- A type is below another exactly if it is so under the dependent layers on the outside and passes
the refinements of these. -/
theorem iff_core : Conforms h a b ↔ Conforms h a.core b.core ∧ a.PassesAll b := by
  induction b using outer_induction generalizing a with
  | plain b hb =>
    rw [core_of_kind_ne hb, core_left_iff hb, and_iff_left (passesAll_of_kind_ne hb)]
  | layer r clauses ih =>
    rw [dependent_right_iff, ih, core_peel, and_assoc]
    rfl

theorem right_core (hconforms : Conforms h a b) : Conforms h a b.core :=
  (core_left_iff b.kind_core_ne).1 (iff_core.1 hconforms).1

theorem peel (hconforms : Conforms h a b) : Conforms h a.peel b.peel := by
  cases b using outer_cases with
  | plain b hb =>
    rw [peel_of_kind_ne hb]
    exact (peel_left_iff hb).2 hconforms
  | layer r clauses => exact (dependent_right_iff.1 hconforms).1

theorem basic_right_iff {r : String} :
    Conforms h t (.basic r) ↔ ∃ l, t.core = .basic l ∧ h.isSubtype l r = true := by
  rw [← core_left_iff (by simp [kind])]
  have hcore := t.kind_core_ne
  constructor
  · intro hconforms
    generalize t.core = s at hconforms hcore
    cases hconforms with
    | basic hname => exact ⟨_, rfl, hname⟩
    | left hright hbase => exact absurd rfl hcore
  · rintro ⟨l, hl, hname⟩
    exact hl ▸ .basic hname

theorem topology_right_iff {rr : Registry TopologyProperty} :
    Conforms h t (.topology r rr) ↔ ∃ l rl, t.core = .topology l rl ∧ Conforms h l r := by
  rw [← core_left_iff (by simp [kind])]
  have hcore := t.kind_core_ne
  constructor
  · intro hconforms
    generalize t.core = s at hconforms hcore
    cases hconforms with
    | topology hbase => exact ⟨_, _, rfl, hbase⟩
    | left hright hbase => exact absurd rfl hcore
  · rintro ⟨l, rl, hl, hbase⟩
    exact hl ▸ .topology hbase

theorem quantum_right_iff {rr : Registry QuantumProperty} :
    Conforms h t (.quantum r rr) ↔ ∃ l rl, t.core = .quantum l rl ∧ Conforms h l r := by
  rw [← core_left_iff (by simp [kind])]
  have hcore := t.kind_core_ne
  constructor
  · intro hconforms
    generalize t.core = s at hconforms hcore
    cases hconforms with
    | quantum hbase => exact ⟨_, _, rfl, hbase⟩
    | left hright hbase => exact absurd rfl hcore
  · rintro ⟨l, rl, hl, hbase⟩
    exact hl ▸ .quantum hbase

/-! ## Transitivity -/

/-- Refinements that every subtype inherits are passed by the subtypes of what passes them. -/
theorem passes (hclosed : ∀ x y : Ty ρ, Conforms h x y → clauses.hold y = true →
      clauses.hold x = true) (hab : Conforms h a b) (hb : b.Passes clauses) : a.Passes clauses := by
  cases b using outer_cases with
  | plain b hkind =>
    rw [passes_of_kind_ne hkind] at hb
    exact passes_of_hold_peel (hclosed _ _ ((peel_left_iff hkind).2 hab) hb)
  | layer r own =>
    obtain ⟨hbase, hown⟩ := dependent_right_iff.1 hab
    rcases hb with rfl | hhold
    · exact hown
    · exact passes_of_hold_peel (hclosed _ _ hbase hhold)

/-- Subtyping is transitive below a type whose dependent layers have refinements that subtypes
inherit. -/
theorem trans (hclosed : ∀ r clauses, Ty.dependent r clauses ∈ c.chain →
      ∀ x y : Ty ρ, Conforms h x y → clauses.hold y = true → clauses.hold x = true)
    (hab : Conforms h a b) (hbc : Conforms h b c) : Conforms h a c := by
  -- by recursion on the chain of `c`; its outermost layer says how `b` and then `a` look inside
  induction c generalizing a b with
  | basic name =>
    obtain ⟨l, hb, hname⟩ := basic_right_iff.1 hbc
    obtain ⟨l', ha, hname'⟩ := basic_right_iff.1 (hb ▸ hab.right_core)
    exact basic_right_iff.2 ⟨l', ha, Hierarchy.isSubtype_trans hname' hname⟩
  | topology base registry ih =>
    obtain ⟨l, rl, hb, hbase⟩ := topology_right_iff.1 hbc
    obtain ⟨l', rl', ha, hbase'⟩ := topology_right_iff.1 (hb ▸ hab.right_core)
    refine topology_right_iff.2 ⟨l', rl', ha, ih (fun r clauses hmem => ?_) hbase' hbase⟩
    exact hclosed r clauses (List.mem_cons_of_mem _ hmem)
  | quantum base registry ih =>
    obtain ⟨l, rl, hb, hbase⟩ := quantum_right_iff.1 hbc
    obtain ⟨l', rl', ha, hbase'⟩ := quantum_right_iff.1 (hb ▸ hab.right_core)
    refine quantum_right_iff.2 ⟨l', rl', ha, ih (fun r clauses hmem => ?_) hbase' hbase⟩
    exact hclosed r clauses (List.mem_cons_of_mem _ hmem)
  | dependent base clauses ih =>
    obtain ⟨hbase, hpasses⟩ := dependent_right_iff.1 hbc
    refine dependent_right_iff.2 ⟨ih (fun r others hmem => ?_) hab.peel hbase, ?_⟩
    · exact hclosed r others (List.mem_cons_of_mem _ hmem)
    · exact hab.passes (hclosed base clauses List.mem_cons_self) hpasses

/-! ## One more dependent layer -/

theorem dependent_iff (hbase : Conforms h b r) :
    Conforms h (.dependent b clauses) r ↔ (Ty.dependent b clauses).PassesAll r := by
  rw [iff_core]
  exact and_iff_right (iff_core.1 hbase).1

theorem dependent_of_kind_ne (hkind : b.kind ≠ .dependent ∨ r.kind ≠ .dependent)
    (hbase : Conforms h b r) : Conforms h (.dependent b clauses) r := by
  cases r using outer_cases with
  | plain r hr => exact .left hr hbase
  | layer r others =>
    have hb : b.kind ≠ .dependent := hkind.resolve_right fun hne => hne rfl
    obtain ⟨hbase, hpasses⟩ := dependent_right_iff.1 hbase
    rw [peel_of_kind_ne hb] at hbase
    exact dependent_right_iff.2 ⟨hbase, Or.inr ((passes_of_kind_ne hb).1 hpasses)⟩

theorem dependent_of_wellFormed (hformed : b.wellFormed = true)
    (hstable : ∀ others ∈ r.outerClauses, ∀ (t : Ty ρ) (own : Clauses ρ),
      others.hold t = true → others.hold (.dependent t own) = true)
    (hbase : Conforms h b r) : Conforms h (.dependent b clauses) r := by
  induction r using outer_induction generalizing b clauses with
  | plain r hr => exact .left hr hbase
  | layer r others ih =>
    cases b using outer_cases with
    | plain b hb => exact dependent_of_kind_ne (Or.inl hb) hbase
    | layer l own =>
      obtain ⟨hbase, hpasses⟩ := dependent_right_iff.1 hbase
      obtain ⟨hl, hown⟩ := Bool.and_eq_true_iff.1 hformed
      -- shared refinements hold as well, because the base is well formed
      have hhold : others.hold l = true := by
        rcases hpasses with rfl | hhold
        · exact hown
        · exact hhold
      refine dependent_right_iff.2 ⟨?_, Or.inr (hstable others List.mem_cons_self l own hhold)⟩
      exact ih hl (fun others' hmem => hstable others' (List.mem_cons_of_mem _ hmem)) hbase

end Conforms

/-! ## The order of types -/

variable [DecidableEq ρ]

/-- Every type is a subtype of itself, whether or not its bases meet the refinements over them. If
the refinements of all dependent layers of `c` hold of the subtypes of what they hold of, then the
subtypes of subtypes of `c` are subtypes of `c`; in particular if `c` has no such layer. -/
theorem isSubtype_refl_and_trans (h : Hierarchy) :
    (∀ a : Ty ρ, isSubtype h a a = true) ∧
    (∀ a b c : Ty ρ,
      (∀ r clauses, dependent r clauses ∈ c.chain → ∀ x y : Ty ρ, isSubtype h x y = true →
        clauses.hold y = true → clauses.hold x = true) →
      isSubtype h a b = true → isSubtype h b c = true → isSubtype h a c = true) ∧
    (∀ a b c : Ty ρ, (∀ layer ∈ c.chain, layer.kind ≠ .dependent) →
      isSubtype h a b = true → isSubtype h b c = true → isSubtype h a c = true) := by
  simp only [isSubtype_iff_conforms]
  refine ⟨Conforms.refl h, fun a b c hclosed hab hbc => hab.trans hclosed hbc,
    fun a b c hplain hab hbc => hab.trans (fun r clauses hmem => ?_) hbc⟩
  exact absurd rfl (hplain _ hmem)

/-- Refinements that nothing meets. -/
def noType : Clauses Refinement := ⟨⟨0, .never⟩, ⟨1, .never⟩, ⟨2, .never⟩⟩

/-- Integers under a quantum layer and a topology layer that are both in order. -/
def layeredIntegers : Ty Refinement :=
  .topology (.quantum (.basic "int") (.ofList [(.normalized, true)]))
    (.ofList [(.continuous, true)])

/-- Nothing else is declared to be an integer. -/
theorem eq_int_of_isSubtype {name : String}
    (hname : Hierarchy.standard.isSubtype name "int" = true) : name = "int" := by
  rcases (Hierarchy.isSubtype_iff.1 hname).cases_tail with heq | ⟨sub, -, sups, hmem, hsup⟩
  · exact heq.symm
  · have hedges : ∀ entry ∈ Hierarchy.standard.table.entries, "int" ∉ entry.2 := by decide +kernel
    exact absurd hsup (hedges _ hmem)

/-- The subtypes of types over the integers are over the integers. -/
theorem refinedNumbers_inherited (r : Ty Refinement) (clauses : Clauses Refinement)
    (hmem : dependent r clauses ∈ refinedNumbers.chain) (x y : Ty Refinement)
    (hsub : isSubtype .standard x y = true) (hy : clauses.hold y = true) :
    clauses.hold x = true := by
  have hclauses : clauses = ⟨⟨3, .always⟩, ⟨4, .innermostIs "int"⟩, ⟨5, .always⟩⟩ := by
    have hplain : ∀ layer ∈ layeredNumbers.chain, layer.kind ≠ .dependent := by decide
    rcases List.mem_cons.1 hmem with heq | hmem
    · exact (Ty.dependent.inj heq).2
    · exact absurd rfl (hplain _ hmem)
  have hhold : ∀ t : Ty Refinement, clauses.hold t = (t.innermost == "int") := by
    intro t
    rw [hclauses]
    simp [Clauses.hold, Meaning.holds, Condition.holds, Condition.holdsGiven]
  rw [hhold, beq_iff_eq] at hy ⊢
  have hname := (isSubtype_iff_conforms.1 hsub).innermost
  rw [hy] at hname
  exact eq_int_of_isSubtype hname

theorem wrappedIntegers_below_refinedNumbers :
    isSubtype .standard wrappedIntegers wrappedIntegers = true ∧
    (isSubtype .standard wrappedIntegers (dependent layeredIntegers noType) = true ∧
      isSubtype .standard (dependent layeredIntegers noType) refinedNumbers = true ∧
      isSubtype .standard wrappedIntegers refinedNumbers = true) ∧
    (isSubtype .standard refinedNumbers layeredNumbers = true ∧
      isSubtype .standard wrappedIntegers layeredNumbers = true) := by
  obtain ⟨hrefl, htrans, hplain⟩ := @isSubtype_refl_and_trans Refinement _ _ .standard
  have hfirst : isSubtype .standard wrappedIntegers (dependent layeredIntegers noType) = true := by
    decide +kernel
  have hsecond : isSubtype .standard (dependent layeredIntegers noType) refinedNumbers = true := by
    decide +kernel
  have hthird : isSubtype .standard refinedNumbers layeredNumbers = true := by decide +kernel
  have hwrapped := htrans _ _ _ refinedNumbers_inherited hfirst hsecond
  exact ⟨hrefl _, ⟨hfirst, hsecond, hwrapped⟩, hthird,
    hplain _ _ _ (by decide) hwrapped hthird⟩

/-- One more dependent layer leaves a type below what it was below exactly if its layers, one step
further out, pass the refinements on the outside of the other type. This is so if only one of the
two types has a dependent layer on the outside, and if the base is well formed and no refinement
on the outside of the other type is lost under a dependent layer. The same condition decides
whether a dependent type is below its own base. -/
theorem dependent_isSubtype_of_base_isSubtype (h : Hierarchy) (base x : Ty ρ)
    (clauses : Clauses ρ) (hbase : isSubtype h base x = true) :
    (isSubtype h (dependent base clauses) x = true ↔ (dependent base clauses).PassesAll x) ∧
    (base.kind ≠ .dependent ∨ x.kind ≠ .dependent →
      isSubtype h (dependent base clauses) x = true) ∧
    (base.wellFormed = true →
      (∀ others ∈ x.outerClauses, ∀ (t : Ty ρ) (own : Clauses ρ),
        others.hold t = true → others.hold (dependent t own) = true) →
      isSubtype h (dependent base clauses) x = true) ∧
    (isSubtype h (dependent base clauses) base = true ↔
      (dependent base clauses).PassesAll base) := by
  simp only [isSubtype_iff_conforms] at hbase ⊢
  exact ⟨hbase.dependent_iff, fun hkind => .dependent_of_kind_ne hkind hbase,
    fun hformed hstable => .dependent_of_wellFormed hformed hstable hbase,
    (Conforms.refl h base).dependent_iff⟩

/-- Refinements that everything meets. -/
def anyType : Clauses Refinement := ⟨⟨6, .always⟩, ⟨7, .always⟩, ⟨8, .always⟩⟩

theorem guardedIntegers_below_refinedNumbers :
    (isSubtype .standard (dependent layeredIntegers anyType) refinedNumbers = true ∧
      (dependent layeredIntegers anyType).wellFormed = true ∧
      (dependent (dependent layeredIntegers anyType) noType).PassesAll refinedNumbers ∧
      isSubtype .standard (dependent (dependent layeredIntegers anyType) noType)
        refinedNumbers = true) ∧
    (isSubtype .standard layeredIntegers layeredIntegers = true ∧
      isSubtype .standard (dependent layeredIntegers noType) layeredIntegers = true) := by
  have hbase : isSubtype .standard (dependent layeredIntegers anyType) refinedNumbers = true := by
    decide +kernel
  have hformed : (dependent layeredIntegers anyType).wellFormed = true := by decide +kernel
  have hself : isSubtype .standard layeredIntegers layeredIntegers = true := by decide +kernel
  obtain ⟨hiff, -, hstable, -⟩ :=
    dependent_isSubtype_of_base_isSubtype .standard _ _ noType hbase
  have hsub := hstable hformed (by
    intro others hmem t own hhold
    obtain rfl := List.mem_singleton.1 hmem
    exact hhold)
  exact ⟨⟨hbase, hformed, hiff.1 hsub, hsub⟩, hself,
    (dependent_isSubtype_of_base_isSubtype .standard _ _ noType hself).2.1 (Or.inl (by decide))⟩

/-- The real numbers under a compact topology, with a dependent layer that asks for compactness. -/
def compactReals : Ty Refinement :=
  .dependent (.topology (.basic "real") (.ofList [(.continuous, true), (.compact, true)]))
    ⟨⟨0, .always⟩, ⟨1, .topologyHas [.compact]⟩, ⟨2, .always⟩⟩

/-- A dependent type is not always below its own base: the refinement looks at the layer under the
outermost one, which is no topology layer any more. -/
theorem dependent_compactReals_not_below_base :
    (dependent compactReals anyType).wellFormed = true ∧
    isSubtype .standard compactReals compactReals = true ∧
    isSubtype .standard (dependent compactReals anyType) compactReals = false := by
  decide +kernel

end Ty

end SpaceTypes
