import SpaceTypes.Proofs.NameOrder
import SpaceTypes.Refinement
import SpaceTypes.Ty.Subtype

/-!
# The structure of subtypes

The test for subtypes strips dependent layers from the left, from the right or from both sides at
once, in whatever order they stand on the two sides. `Ty.Conforms` has its cases as rules, one for
each way to look at a pair of outermost layers, and `Ty.isSubtype_iff_conforms` says that the rules
give what the test computes. What holds of all subtypes is then an induction over the rules, and no
longer over two chains of different lengths.

Dependent layers apart, a type and its subtypes consist of the same layers (`Ty.layers`) over
related names. For types above that have no dependent layer, this is all that the test asks for.
-/

namespace SpaceTypes

namespace Ty

variable {ρ : Type}

/-! ## Layers -/

/-- The kinds of the topology and quantum layers, outermost first. -/
def layers (t : Ty ρ) : List Kind :=
  (t.chain.map kind).filter fun k => k == .topology || k == .quantum

@[simp]
theorem layers_basic (name : String) : (basic name : Ty ρ).layers = [] := rfl

@[simp]
theorem layers_topology (base : Ty ρ) (registry : Registry TopologyProperty) :
    (topology base registry).layers = .topology :: base.layers := rfl

@[simp]
theorem layers_quantum (base : Ty ρ) (registry : Registry QuantumProperty) :
    (quantum base registry).layers = .quantum :: base.layers := rfl

@[simp]
theorem layers_dependent (base : Ty ρ) (clauses : Clauses ρ) :
    (dependent base clauses).layers = base.layers := rfl

theorem mem_layers_iff {t : Ty ρ} {k : Kind} (hk : k = .topology ∨ k = .quantum) :
    k ∈ t.layers ↔ (t.chain.any fun layer => layer.kind == k) = true := by
  have hkept : (k == .topology || k == .quantum) = true := by simpa using hk
  simp [layers, List.mem_filter, hkept]

/-- The layers decide the representation. -/
theorem representation_eq (t : Ty ρ) : t.representation =
    if .quantum ∈ t.layers then .quantum
    else if .topology ∈ t.layers then .topological else .classical := by
  unfold representation
  simp only [mem_layers_iff (t := t) (Or.inl rfl), mem_layers_iff (t := t) (Or.inr rfl)]

/-- The type under the dependent layers on the outside. -/
def core : Ty ρ → Ty ρ
  | dependent base _ => base.core
  | t => t

@[simp]
theorem layers_core (t : Ty ρ) : t.core.layers = t.layers := by
  induction t with
  | dependent base clauses ih => exact ih
  | _ => rfl

theorem kind_core_ne (t : Ty ρ) : t.core.kind ≠ .dependent := by
  induction t with
  | dependent base clauses ih => exact ih
  | _ => simp [core, kind]

/-- The outermost layer, dependent ones apart, is the first of the layers. -/
theorem kind_core (t : Ty ρ) : t.core.kind = t.layers.head?.getD .basic := by
  rw [← layers_core]
  have hkind := t.kind_core_ne
  cases hcore : t.core with
  | dependent base clauses => exact absurd (by rw [hcore]; rfl) hkind
  | _ => rfl

/-! ## The rules of subtyping -/

variable [Meaning ρ]

/-- The rules by which a type is below another. -/
inductive Conforms (h : Hierarchy) : Ty ρ → Ty ρ → Prop where
  /-- Names are in the order of the hierarchy. -/
  | basic {l r : String} (hname : h.isSubtype l r = true) : Conforms h (basic l) (basic r)
  /-- Topology layers are in the order of their bases. -/
  | topology {l r : Ty ρ} {rl rr : Registry TopologyProperty} (hbase : Conforms h l r) :
      Conforms h (topology l rl) (topology r rr)
  /-- Quantum layers are in the order of their bases. -/
  | quantum {l r : Ty ρ} {rl rr : Registry QuantumProperty} (hbase : Conforms h l r) :
      Conforms h (quantum l rl) (quantum r rr)
  /-- Between dependent types the base on the left meets the refinements on the right, unless
  they are the same. -/
  | dependent {l r : Ty ρ} {cl cr : Clauses ρ} (hbase : Conforms h l r)
      (hclauses : cl = cr ∨ cr.hold l = true) : Conforms h (dependent l cl) (dependent r cr)
  /-- A dependent type is below what its base is below. -/
  | left {l t : Ty ρ} {clauses : Clauses ρ} (ht : t.kind ≠ .dependent) (hbase : Conforms h l t) :
      Conforms h (dependent l clauses) t
  /-- A type is below a dependent type if it is below the base and meets the refinements. -/
  | right {t r : Ty ρ} {clauses : Clauses ρ} (ht : t.kind ≠ .dependent) (hbase : Conforms h t r)
      (hclauses : clauses.hold t = true) : Conforms h t (dependent r clauses)

section

variable [DecidableEq ρ] {h : Hierarchy} {a b : Ty ρ}

theorem Conforms.isSubtype (hconforms : Conforms h a b) : isSubtype h a b = true := by
  induction hconforms with
  | basic hname => rwa [isSubtype_basic_basic]
  | topology hbase ih => rwa [isSubtype_topology_topology]
  | quantum hbase ih => rwa [isSubtype_quantum_quantum]
  | dependent hbase hclauses ih =>
    rw [isSubtype_dependent_dependent, ih]
    simpa using hclauses
  | left ht hbase ih => rwa [isSubtype_dependent_left h _ _ _ ht]
  | right ht hbase hclauses ih =>
    rw [isSubtype_dependent_right h _ _ _ ht, ih, hclauses]
    rfl

theorem kind_eq_of_isSubtype (ha : a.kind ≠ .dependent) (hb : b.kind ≠ .dependent)
    (hsub : Ty.isSubtype h a b = true) : a.kind = b.kind := by
  by_contra hne
  rw [isSubtype_of_kind_ne h ha hb hne] at hsub
  cases hsub

/-- The dependent layers on the outside of the right type are stripped one by one. -/
theorem conforms_of_stripped (ha : a.kind ≠ .dependent)
    (hstripped : ∀ r : Ty ρ, a.kind = r.kind → Ty.isSubtype h a r = true → Conforms h a r)
    (hsub : Ty.isSubtype h a b = true) : Conforms h a b := by
  induction b with
  | dependent r clauses ih =>
    rw [isSubtype_dependent_right h _ _ _ ha, Bool.and_eq_true] at hsub
    exact .right ha (ih hsub.1) hsub.2
  | _ => exact hstripped _ (kind_eq_of_isSubtype ha (by simp [kind]) hsub) hsub

theorem conforms_of_isSubtype (hsub : Ty.isSubtype h a b = true) : Conforms h a b := by
  induction a generalizing b with
  | basic l =>
    refine conforms_of_stripped (by simp [kind]) (fun r hkind hsub => ?_) hsub
    cases r with
    | basic r => exact .basic (by rwa [isSubtype_basic_basic] at hsub)
    | _ => cases hkind
  | topology l registry ih =>
    refine conforms_of_stripped (by simp [kind]) (fun r hkind hsub => ?_) hsub
    cases r with
    | topology r registry' => exact .topology (ih (by rwa [isSubtype_topology_topology] at hsub))
    | _ => cases hkind
  | quantum l registry ih =>
    refine conforms_of_stripped (by simp [kind]) (fun r hkind hsub => ?_) hsub
    cases r with
    | quantum r registry' => exact .quantum (ih (by rwa [isSubtype_quantum_quantum] at hsub))
    | _ => cases hkind
  | dependent l clauses ih =>
    by_cases hb : b.kind = .dependent
    · cases b with
      | dependent r others =>
        rw [isSubtype_dependent_dependent, Bool.and_eq_true] at hsub
        exact .dependent (ih hsub.1) (by simpa using hsub.2)
      | _ => cases hb
    · rw [isSubtype_dependent_left h _ _ _ hb] at hsub
      exact .left hb (ih hsub)

/-- The test for subtypes computes what the rules say. -/
theorem isSubtype_iff_conforms : Ty.isSubtype h a b = true ↔ Conforms h a b :=
  ⟨conforms_of_isSubtype, Conforms.isSubtype⟩

end

namespace Conforms

variable {h : Hierarchy} {a b : Ty ρ}

/-- Every type is below itself, whether or not its bases meet its refinements. -/
theorem refl (h : Hierarchy) (t : Ty ρ) : Conforms h t t := by
  induction t with
  | basic name => exact .basic (h.isSubtype_refl name)
  | topology base registry ih => exact .topology ih
  | quantum base registry ih => exact .quantum ih
  | dependent base clauses ih => exact .dependent ih (Or.inl rfl)

theorem layers_eq (hconforms : Conforms h a b) : a.layers = b.layers := by
  induction hconforms with
  | basic hname => rfl
  | topology hbase ih => rw [layers_topology, layers_topology, ih]
  | quantum hbase ih => rw [layers_quantum, layers_quantum, ih]
  | dependent hbase hclauses ih => exact ih
  | left ht hbase ih => exact ih
  | right ht hbase hclauses ih => exact ih

theorem innermost (hconforms : Conforms h a b) :
    h.isSubtype a.innermost b.innermost = true := by
  induction hconforms with
  | basic hname => exact hname
  | topology hbase ih => exact ih
  | quantum hbase ih => exact ih
  | dependent hbase hclauses ih => exact ih
  | left ht hbase ih => exact ih
  | right ht hbase hclauses ih => exact ih

/-- Without dependent layers on the right, the same layers over related names are enough. -/
theorem of_layers_eq (hplain : ∀ layer ∈ b.chain, layer.kind ≠ .dependent)
    (hlayers : a.layers = b.layers) (hname : h.isSubtype a.innermost b.innermost = true) :
    Conforms h a b := by
  induction a generalizing b with
  | dependent l clauses ih =>
    have hb : b.kind ≠ .dependent := hplain b (by cases b <;> simp [chain])
    exact .left hb (ih hplain hlayers hname)
  | basic l =>
    cases b with
    | basic r => exact .basic hname
    | dependent r clauses => exact absurd rfl (hplain _ List.mem_cons_self)
    | _ => cases hlayers
  | topology l rl ih =>
    cases b with
    | topology r rr =>
      exact .topology (ih (fun layer hmem => hplain layer (List.mem_cons_of_mem _ hmem))
        (List.cons.inj hlayers).2 hname)
    | dependent r clauses => exact absurd rfl (hplain _ List.mem_cons_self)
    | _ => cases hlayers
  | quantum l rl ih =>
    cases b with
    | quantum r rr =>
      exact .quantum (ih (fun layer hmem => hplain layer (List.mem_cons_of_mem _ hmem))
        (List.cons.inj hlayers).2 hname)
    | dependent r clauses => exact absurd rfl (hplain _ List.mem_cons_self)
    | _ => cases hlayers

end Conforms

/-! ## Layers of subtypes -/

variable [DecidableEq ρ]

/-- A type and its subtypes have the same layers, dependent ones left out, over related names, and
so the same representation. For a type above without dependent layers the converse holds. Under
any dependent layers, a topology type is never below a quantum type or a name. -/
theorem isSubtype_respects_layers (h : Hierarchy) (a b : Ty ρ) :
    (isSubtype h a b = true → a.layers = b.layers ∧
      h.isSubtype a.innermost b.innermost = true ∧ a.representation = b.representation) ∧
    ((∀ layer ∈ b.chain, layer.kind ≠ .dependent) → a.layers = b.layers →
      h.isSubtype a.innermost b.innermost = true → isSubtype h a b = true) ∧
    (a.core.kind = .topology → b.core.kind = .quantum ∨ b.core.kind = .basic →
      isSubtype h a b = false) := by
  refine ⟨fun hsub => ?_, fun hplain hlayers hname => ?_, fun ha hb => ?_⟩
  · have hconforms := isSubtype_iff_conforms.1 hsub
    refine ⟨hconforms.layers_eq, hconforms.innermost, ?_⟩
    rw [representation_eq, representation_eq, hconforms.layers_eq]
  · exact isSubtype_iff_conforms.2 (.of_layers_eq hplain hlayers hname)
  · rw [Bool.eq_false_iff]
    intro hsub
    have hkind : a.core.kind = b.core.kind := by
      rw [kind_core, kind_core, (isSubtype_iff_conforms.1 hsub).layers_eq]
    rw [← hkind, ha] at hb
    rcases hb with hb | hb <;> cases hb

/-- Integers under a quantum layer, a topology layer and dependent layers around them whose
refinements nothing meets. -/
def wrappedIntegers : Ty Refinement :=
  let nothing : Clauses Refinement := ⟨⟨0, .never⟩, ⟨1, .never⟩, ⟨2, .never⟩⟩
  .dependent (.dependent (.topology (.dependent (.quantum (.basic "int") .empty) nothing)
    (.ofList [(.compact, true)])) nothing) nothing

/-- Numbers under a quantum layer and a topology layer. -/
def layeredNumbers : Ty Refinement := .topology (.quantum (.basic "number") .empty) .empty

/-- Such numbers under a dependent layer that the integers meet. -/
def refinedNumbers : Ty Refinement :=
  .dependent layeredNumbers ⟨⟨3, .always⟩, ⟨4, .innermostIs "int"⟩, ⟨5, .always⟩⟩

theorem wrappedIntegers_respect_layers :
    (isSubtype .standard wrappedIntegers refinedNumbers = true ∧
      wrappedIntegers.layers = refinedNumbers.layers ∧
      Hierarchy.standard.isSubtype wrappedIntegers.innermost refinedNumbers.innermost = true ∧
      wrappedIntegers.representation = refinedNumbers.representation) ∧
    ((∀ layer ∈ layeredNumbers.chain, layer.kind ≠ .dependent) ∧
      isSubtype .standard wrappedIntegers layeredNumbers = true) ∧
    (wrappedIntegers.core.kind = .topology ∧
      isSubtype .standard wrappedIntegers (.basic "number") = false) := by
  have hsub : isSubtype .standard wrappedIntegers refinedNumbers = true := by decide +kernel
  have hplain : ∀ layer ∈ layeredNumbers.chain, layer.kind ≠ .dependent := by decide
  have hname : Hierarchy.standard.isSubtype wrappedIntegers.innermost
      layeredNumbers.innermost = true := by decide +kernel
  exact ⟨⟨hsub, (isSubtype_respects_layers _ _ _).1 hsub⟩,
    ⟨hplain, (isSubtype_respects_layers _ _ _).2.1 hplain rfl hname⟩,
    ⟨rfl, (isSubtype_respects_layers _ _ _).2.2 rfl (Or.inr rfl)⟩⟩

end Ty

end SpaceTypes
