import SpaceTypes.Hierarchy
import SpaceTypes.Ty

/-!
# Subtyping

Basic types are ordered by the hierarchy of their names. Topology and quantum layers are compared
with layers of the same kind only, by their bases, whatever their registries say. A dependent type
is below everything that its base is below; a type is below a dependent type when it is below the
base of that type and meets its refinements. Between two dependent types it is the base on the left
that has to meet the refinements on the right, unless the two have the same refinements.

The definition is by recursion on the left type. `admits` strips the dependent layers of the right
type; the equations at the end are the rules above, one for each pair of outermost layers.
-/

namespace SpaceTypes.Ty

variable {ρ : Type} [Meaning ρ]

/-- Whether `t` meets the refinements of all dependent layers on the outside of a type, and what is
under them passes the test. -/
def admits (t : Ty ρ) (test : Ty ρ → Bool) : Ty ρ → Bool
  | dependent base clauses => admits t test base && clauses.hold t
  | basic name => test (basic name)
  | topology base registry => test (topology base registry)
  | quantum base registry => test (quantum base registry)

variable [DecidableEq ρ]

/-- Whether the first type is a subtype of the second. -/
def isSubtype (h : Hierarchy) : Ty ρ → Ty ρ → Bool
  | basic l, other =>
    admits (basic l) (fun
      | basic r => h.isSubtype l r
      | _ => false) other
  | topology l registry, other =>
    admits (topology l registry) (fun
      | topology r _ => isSubtype h l r
      | _ => false) other
  | quantum l registry, other =>
    admits (quantum l registry) (fun
      | quantum r _ => isSubtype h l r
      | _ => false) other
  | dependent l clauses, dependent r others =>
    isSubtype h l r && (clauses = others || others.hold l)
  | dependent l _, other => isSubtype h l other

variable (h : Hierarchy)

/-! ## The rules -/

theorem isSubtype_basic_basic (l r : String) :
    isSubtype h (basic l : Ty ρ) (basic r) = h.isSubtype l r := by
  rw [isSubtype]; rfl

theorem isSubtype_topology_topology (l r : Ty ρ) (rl rr : Registry TopologyProperty) :
    isSubtype h (topology l rl) (topology r rr) = isSubtype h l r := by
  rw [isSubtype]; rfl

theorem isSubtype_quantum_quantum (l r : Ty ρ) (rl rr : Registry QuantumProperty) :
    isSubtype h (quantum l rl) (quantum r rr) = isSubtype h l r := by
  rw [isSubtype]; rfl

theorem isSubtype_dependent_dependent (l r : Ty ρ) (cl cr : Clauses ρ) :
    isSubtype h (dependent l cl) (dependent r cr) =
      (isSubtype h l r && (cl = cr || cr.hold l)) := by
  rw [isSubtype]

/-- A dependent type is below what its base is below. -/
theorem isSubtype_dependent_left (l t : Ty ρ) (clauses : Clauses ρ) (ht : t.kind ≠ .dependent) :
    isSubtype h (dependent l clauses) t = isSubtype h l t := by
  cases t with
  | basic name => rfl
  | topology base registry => rfl
  | quantum base registry => rfl
  | dependent base others => exact absurd rfl ht

/-- Below a dependent type is what is below its base and meets its refinements. -/
theorem isSubtype_dependent_right (t r : Ty ρ) (clauses : Clauses ρ) (ht : t.kind ≠ .dependent) :
    isSubtype h t (dependent r clauses) = (isSubtype h t r && clauses.hold t) := by
  cases t with
  | basic l => rw [isSubtype, isSubtype]; rfl
  | topology l registry => rw [isSubtype, isSubtype]; rfl
  | quantum l registry => rw [isSubtype, isSubtype]; rfl
  | dependent l clauses => exact absurd rfl ht

/-- Apart from dependent layers, only types of one kind are comparable. -/
theorem isSubtype_of_kind_ne {l r : Ty ρ} (hl : l.kind ≠ .dependent) (hr : r.kind ≠ .dependent)
    (hlr : l.kind ≠ r.kind) : isSubtype h l r = false := by
  cases l <;> cases r <;> first
    | exact absurd rfl hl
    | exact absurd rfl hr
    | exact absurd rfl hlr
    | (rw [isSubtype]; rfl)

end SpaceTypes.Ty
