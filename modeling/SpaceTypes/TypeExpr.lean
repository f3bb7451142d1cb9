import SpaceTypes.Ty

/-!
# Written types

A type as it is written in a declaration: a bare name, or `Topology` or `Quantum` with another
written type in angle brackets. It stands for the type with the same layers and empty registries.
-/

namespace SpaceTypes

/-- The layers that a written type may have. -/
inductive Modifier where
  | topology
  | quantum
deriving DecidableEq, Repr

/-- The word that writes the layer. -/
def Modifier.name : Modifier → String
  | topology => "Topology"
  | quantum => "Quantum"

/-- The layer that a word writes. -/
def Modifier.ofName? (name : String) : Option Modifier :=
  if name = topology.name then some topology
  else if name = quantum.name then some quantum
  else none

theorem Modifier.ofName?_eq_some_iff {name : String} {modifier : Modifier} :
    ofName? name = some modifier ↔ name = modifier.name := by
  unfold ofName?
  by_cases htopology : name = topology.name
  · rw [if_pos htopology, htopology]
    cases modifier <;> decide
  · rw [if_neg htopology]
    by_cases hquantum : name = quantum.name
    · rw [if_pos hquantum, hquantum]
      cases modifier <;> decide
    · rw [if_neg hquantum]
      cases modifier <;> simp [htopology, hquantum]

theorem Modifier.ofName?_eq_none_iff {name : String} :
    ofName? name = none ↔ ∀ modifier : Modifier, name ≠ modifier.name := by
  rw [Option.eq_none_iff_forall_ne_some]
  simp only [ne_eq, ofName?_eq_some_iff]

/-- A written type. -/
inductive TypeExpr where
  /-- A bare name. -/
  | basic (name : String)
  /-- A layer over another written type. -/
  | layer (modifier : Modifier) (base : TypeExpr)
deriving DecidableEq, Repr

namespace TypeExpr

/-- The kind of the outermost layer. -/
def kind : TypeExpr → Kind
  | basic _ => .basic
  | layer .topology _ => .topology
  | layer .quantum _ => .quantum

/-- What the outermost layer is over. -/
def base? : TypeExpr → Option TypeExpr
  | basic _ => none
  | layer _ base => some base

/-- The type that is written, without any property set. -/
def toTy {ρ : Type} : TypeExpr → Ty ρ
  | basic name => .basic name
  | layer .topology base => .topology base.toTy .empty
  | layer .quantum base => .quantum base.toTy .empty

/-- The written form, without blanks. -/
def text : TypeExpr → String
  | basic name => name
  | layer modifier base => modifier.name ++ "<" ++ base.text ++ ">"

/-- A written type and the type it stands for read the same. -/
theorem text_toTy {ρ : Type} (e : TypeExpr) : (e.toTy : Ty ρ).text = e.text := by
  induction e with
  | basic name => rfl
  | layer modifier base ih =>
    cases modifier
    · rw [toTy, Ty.text, ih]; rfl
    · rw [toTy, Ty.text, ih]; rfl

/-- A written type records nothing. -/
theorem recorded_toTy {ρ : Type} (e : TypeExpr) : (e.toTy : Ty ρ).recorded = [] := by
  cases e with
  | basic name => rfl
  | layer modifier base => cases modifier <;> rfl

/-- Every layer of the type that is written can be written itself. -/
theorem exists_toTy_of_mem_chain {ρ : Type} {e : TypeExpr} {layer : Ty ρ}
    (hlayer : layer ∈ (e.toTy : Ty ρ).chain) : ∃ inner : TypeExpr, layer = inner.toTy := by
  induction e with
  | basic name => exact ⟨basic name, List.mem_singleton.1 hlayer⟩
  | layer modifier base ih =>
    cases modifier with
    | topology => exact (List.mem_cons.1 hlayer).elim (fun h => ⟨.layer .topology base, h⟩) ih
    | quantum => exact (List.mem_cons.1 hlayer).elim (fun h => ⟨.layer .quantum base, h⟩) ih

end TypeExpr

end SpaceTypes
