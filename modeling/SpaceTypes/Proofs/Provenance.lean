import SpaceTypes.Proofs.Soundness

/-!
# Where inferred types and properties come from

Inference invents nothing. Each type goes back to one that a variable had at the start, along
sharing goals (`Grounded`), and each denial goes back to a goal that denies the property, along the
same goals (`Denied`); mappings and separation rules never deny anything. Conversely a settled
system has bound every grounded variable, and types of which the goals hold record every denial
that can be traced.
-/

namespace SpaceTypes

variable {ρ : Type}

namespace Goal.Move

variable {goal : Goal} {vars vars' : Variables ρ} {i : Nat} {t' : Ty ρ}

/-- A type after a move has grown out of a type before it, or was shared just now. -/
theorem get?_cases (h : goal.Move vars vars') (ht' : vars'.get? i = some t') :
    (∃ t, vars.get? i = some t ∧ t.GrowsTo t') ∨
      ∃ source, goal = .sameAs i source ∧ vars.get? source = some t' := by
  cases h with
  | @bind var source s hgoal hsource hlt hfree =>
    rw [Variables.get?_put] at ht'
    split at ht'
    case isTrue hi =>
      cases ht'
      exact Or.inr ⟨source, by rw [hgoal, hi.1], hsource⟩
    case isFalse => exact Or.inl ⟨t', ht', .refl t'⟩
  | @record j t p v hdemand hbound hkind hunset =>
    rw [Variables.get?_put] at ht'
    split at ht'
    case isTrue hi =>
      cases ht'
      exact Or.inl ⟨t, by rw [← hi.1, hbound], Ty.growsTo_record hkind hunset v⟩
    case isFalse => exact Or.inl ⟨t', ht', .refl t'⟩

/-- An entry after a move was there before it, or is what the goal demands. -/
theorem recorded_cases (h : goal.Move vars vars') (ht' : vars'.get? i = some t')
    {e : Property × Bool} (he : e ∈ t'.recorded) :
    (∃ t, vars.get? i = some t ∧ e ∈ t.recorded) ∨ goal.Demands vars i e.1 e.2 := by
  cases h with
  | @bind var source s hgoal hsource hlt hfree =>
    rw [Variables.get?_put] at ht'
    split at ht'
    case isTrue hi =>
      cases ht'
      refine Or.inr ?_
      rw [hgoal]
      exact ⟨hi.1.symm, t', hsource, he⟩
    case isFalse => exact Or.inl ⟨t', ht', he⟩
  | @record j t p v hdemand hbound hkind hunset =>
    rw [Variables.get?_put] at ht'
    split at ht'
    case isTrue hi =>
      cases ht'
      rw [Ty.recorded_record hkind hunset, List.mem_append, List.mem_singleton] at he
      rcases he with he | rfl
      · exact Or.inl ⟨t, by rw [← hi.1, hbound], he⟩
      · rw [← hi.1]
        exact Or.inr hdemand
    case isFalse => exact Or.inl ⟨t', ht', he⟩

end Goal.Move

/-! ## Types -/

/-- A chain of sharing goals leads from the first variable to the second. -/
def Shares (goals : List Goal) : Nat → Nat → Prop :=
  Relation.ReflTransGen fun i source => .sameAs i source ∈ goals

namespace GoalSystem

variable {system : GoalSystem ρ} {n : Nat} {vars : Variables ρ}

/-- The variable shares the type of one that is bound at the start. -/
def Grounded (system : GoalSystem ρ) (i : Nat) : Prop :=
  ∃ j t, Shares system.goals i j ∧ system.vars.get? j = some t

theorem grounded_of_run (hrun : Run system.goals n system.vars vars) {i : Nat} {t : Ty ρ}
    (ht : vars.get? i = some t) : system.Grounded i := by
  have hall : ∀ i t, vars.get? i = some t → system.Grounded i := by
    refine hrun.induct (P := fun vars => ∀ i t, vars.get? i = some t → system.Grounded i) ?_
      (fun i t ht => ⟨i, t, .refl, ht⟩)
    intro goal hmem vars vars' hmove ih i t' ht'
    rcases hmove.get?_cases ht' with ⟨t, ht, -⟩ | ⟨source, rfl, hsource⟩
    · exact ih i t ht
    · obtain ⟨j, t, hshares, ht⟩ := ih source t' hsource
      exact ⟨j, t, .head hmem hshares, ht⟩
  exact hall i t ht

/-- What holds of the types at the start and is kept when properties are recorded, holds of all
types of a run: the others are shared. -/
theorem forall_of_run {P : Ty ρ → Prop} (hrun : Run system.goals n system.vars vars)
    (hstart : ∀ i t, system.vars.get? i = some t → P t)
    (hrecord : ∀ t p v, P t → P (t.record p v)) {i : Nat} {t : Ty ρ}
    (ht : vars.get? i = some t) : P t := by
  have hall : ∀ i t, vars.get? i = some t → P t := by
    refine hrun.induct (P := fun vars => ∀ i t, vars.get? i = some t → P t) ?_ hstart
    intro goal _ vars vars' hmove ih i t' ht'
    cases hmove with
    | @bind var source s hgoal hsource hlt hfree =>
      rw [Variables.get?_put] at ht'
      split at ht'
      case isTrue =>
        cases ht'
        exact ih source t' hsource
      case isFalse => exact ih i t' ht'
    | @record j t p v hdemand hbound hkind hunset =>
      rw [Variables.get?_put] at ht'
      split at ht'
      case isTrue =>
        cases ht'
        exact hrecord t p v (ih j t hbound)
      case isFalse => exact ih i t' ht'
  exact hall i t ht

theorem kind_ne_of_run {k : Kind} (hrun : Run system.goals n system.vars vars)
    (hstart : ∀ i t, system.vars.get? i = some t → t.kind ≠ k) {i : Nat} {t : Ty ρ}
    (ht : vars.get? i = some t) : t.kind ≠ k :=
  forall_of_run hrun hstart (fun t p v h => by rwa [t.kind_record p v]) ht

/-- A settled system has bound every grounded variable. -/
theorem bound_of_settled [Meaning ρ] [DecidableEq ρ] {h : Hierarchy}
    (hsettled : Settled h system.goals vars) (hgrow : system.vars.GrowsTo vars) {i : Nat}
    (hground : system.Grounded i) : ∃ t, vars.get? i = some t := by
  obtain ⟨j, t, hshares, ht⟩ := hground
  induction hshares using Relation.ReflTransGen.head_induction_on with
  | refl =>
    obtain ⟨t', ht', -⟩ := hgrow.get?_grows ht
    exact ⟨t', ht'⟩
  | @head i source hmem _ ih =>
    obtain ⟨s, hs⟩ := ih
    cases hvar : vars.get? i with
    | some t => exact ⟨t, rfl⟩
    | none =>
      -- a free variable with a bound source would have been bound, which is an effect
      have happly := hsettled _ hmem
      simp only [Goal.apply, Variables.applySameAs, hs, hvar] at happly
      split at happly
      · cases happly
      · cases happly

theorem freeNames_eq_nil_of_settled [Meaning ρ] [DecidableEq ρ] {h : Hierarchy}
    (hsettled : Settled h system.goals vars) (hgrow : system.vars.GrowsTo vars)
    (hground : ∀ i < system.vars.size, system.Grounded i) : vars.freeNames = [] := by
  refine Variables.freeNames_eq_nil fun i hi => ?_
  rw [hgrow.size_eq] at hi
  exact bound_of_settled hsettled hgrow (hground i hi)

/-- A variable that was free at the start has the type of a variable that it should share the type
of, up to what the outermost layer records. -/
theorem shared_of_run (hrun : Run system.goals n system.vars vars) {i : Nat} {t : Ty ρ}
    (ht : vars.get? i = some t) (hfree : system.vars.get? i = none) :
    ∃ source s, .sameAs i source ∈ system.goals ∧ vars.get? source = some s ∧
      s.bare = t.bare := by
  have hall : ∀ i t, vars.get? i = some t → system.vars.get? i = none →
      ∃ source s, .sameAs i source ∈ system.goals ∧ vars.get? source = some s ∧
        s.bare = t.bare := by
    refine hrun.induct (P := fun vars => ∀ i t, vars.get? i = some t →
      system.vars.get? i = none → ∃ source s, .sameAs i source ∈ system.goals ∧
        vars.get? source = some s ∧ s.bare = t.bare) ?_ ?_
    · intro goal hmem vars vars' hmove ih i t' ht' hfree
      rcases hmove.get?_cases ht' with ⟨t, ht, hgrow⟩ | ⟨source, rfl, hsource⟩
      · obtain ⟨source, s, hgoal, hs, hbare⟩ := ih i t ht hfree
        obtain ⟨s', hs', hgrow'⟩ := hmove.growsTo.get?_grows hs
        exact ⟨source, s', hgoal, hs', by rw [← hgrow'.bare_eq, hbare, hgrow.bare_eq]⟩
      · obtain ⟨s', hs', hgrow'⟩ := hmove.growsTo.get?_grows hsource
        exact ⟨source, s', hmem, hs', hgrow'.bare_eq.symm⟩
    · intro i t ht hfree
      rw [hfree] at ht
      cases ht
  exact hall i t ht hfree

end GoalSystem

/-! ## Denials -/

/-- The goals deny the property to the variable, or to one whose type it shares. -/
def Denied (goals : List Goal) (i : Nat) (p : Property) : Prop :=
  ∃ j, Shares goals i j ∧ .property j p false ∈ goals

namespace GoalSystem

variable {system : GoalSystem ρ} {n : Nat} {vars : Variables ρ}

/-- Every recorded denial can be traced to the goals, if no type denies anything at the start. -/
theorem denied_of_run (hrun : Run system.goals n system.vars vars)
    (hstart : ∀ i t, system.vars.get? i = some t → ∀ e ∈ t.recorded, e.2 = true) {i : Nat}
    {t : Ty ρ} (ht : vars.get? i = some t) {p : Property} (hp : t.value? p = some false) :
    Denied system.goals i p := by
  have hall : ∀ i t, vars.get? i = some t → ∀ e ∈ t.recorded, e.2 = false →
      Denied system.goals i e.1 := by
    refine hrun.induct (P := fun vars => ∀ i t, vars.get? i = some t → ∀ e ∈ t.recorded,
      e.2 = false → Denied system.goals i e.1) ?_ ?_
    · intro goal hmem vars vars' hmove ih i t' ht' e he hfalse
      rcases hmove.recorded_cases ht' he with ⟨t, ht, he⟩ | hdemand
      · exact ih i t ht e he hfalse
      · -- mappings and rules demand the value true, so the denial is declared or shared
        cases goal with
        | sameAs var source =>
          obtain ⟨rfl, s, hs, he⟩ := hdemand
          obtain ⟨j, hshares, hdeny⟩ := ih source s hs _ he hfalse
          exact ⟨j, .head hmem hshares, hdeny⟩
        | subtype sub sup => exact hdemand.elim
        | property var q w =>
          obtain ⟨rfl, hq, hw⟩ := hdemand
          rw [hfalse] at hw
          rw [hq]
          exact ⟨i, .refl, hw ▸ hmem⟩
        | preserve source target mapping =>
          obtain ⟨-, htrue, -⟩ := hdemand
          rw [hfalse] at htrue
          cases htrue
        | derive var =>
          obtain ⟨-, htrue, -⟩ := hdemand
          rw [hfalse] at htrue
          cases htrue
    · intro i t ht e he hfalse
      rw [hstart i t ht e he] at hfalse
      cases hfalse
  exact hall i t ht _ (Ty.mem_recorded_iff.2 hp) rfl

/-- In types of which the goals hold, every denial that can be traced is recorded. -/
theorem value?_of_denied [Meaning ρ] [DecidableEq ρ] {h : Hierarchy} {goals : List Goal}
    {types : Nat → Option (Ty ρ)} (hholds : ∀ goal ∈ goals, goal.Holds h types) {i : Nat}
    {p : Property} (hdenied : Denied goals i p) :
    ∃ t, types i = some t ∧ t.value? p = some false := by
  obtain ⟨j, hshares, hdeny⟩ := hdenied
  induction hshares using Relation.ReflTransGen.head_induction_on with
  | refl => exact hholds _ hdeny
  | head hmem _ ih =>
    obtain ⟨s, hs, hvalue⟩ := ih
    obtain ⟨t, s', ht, hs', -, -, hshare⟩ := hholds _ hmem
    rw [hs] at hs'
    cases hs'
    exact ⟨t, ht, hshare _ (Ty.mem_recorded_iff.2 hvalue)⟩

end GoalSystem

end SpaceTypes
