import SpaceTypes.Inference.GoalSystem
import SpaceTypes.Proofs.Recorded

/-!
# The moves of inference

Whatever a goal does to the variables is a sequence of moves: it binds a free variable to the type
of another one, or it records an unset property that it demands. `Goal.Move` lists the moves with
their reasons, `Run` is a sequence of moves by goals from a list, and `Goal.apply_run` and
`GoalSystem.applyAll_run` say that a goal and a pass are runs with at least as many moves as
effects. Every invariant of inference follows from what a single move preserves (`Run.induct`).

A pass without effects leaves the variables as they are, so that a solution is settled: each goal
was applied to the final variables and had nothing to change (`GoalSystem.iterate_ok`).
-/

namespace SpaceTypes

theorem bind_eq_ok_iff {ε α β : Type} {x : Except ε α} {f : α → Except ε β} {b : β} :
    (x >>= f) = .ok b ↔ ∃ a, x = .ok a ∧ f a = .ok b := by
  cases x with
  | error e => simp [bind, Except.bind]
  | ok a => simp [bind, Except.bind]

theorem bind_eq_error_iff {ε α β : Type} {x : Except ε α} {f : α → Except ε β} {e : ε} :
    (x >>= f) = .error e ↔ x = .error e ∨ ∃ a, x = .ok a ∧ f a = .error e := by
  cases x with
  | error e' => simp [bind, Except.bind]
  | ok a => simp [bind, Except.bind]

theorem mapError_eq_ok_iff {ε ε' α : Type} {f : ε → ε'} {x : Except ε α} {a : α} :
    x.mapError f = .ok a ↔ x = .ok a := by
  cases x <;> simp [Except.mapError]

theorem mapError_eq_error_iff {ε ε' α : Type} {f : ε → ε'} {x : Except ε α} {e : ε'} :
    x.mapError f = .error e ↔ ∃ e', x = .error e' ∧ e = f e' := by
  cases x <;> simp [Except.mapError, eq_comm]

/-- Turns a run on a fixed input into a bounded search, which is decidable. -/
theorem mem_toOption_iff {ε α : Type} {x : Except ε α} {a : α} :
    a ∈ x.toOption ↔ x = .ok a := by
  cases x <;> simp [Except.toOption]

/-! ## Rules -/

theorem Rule.fires_iff {rule : Rule} {r : Registry TopologyProperty} :
    rule.fires r = true ↔ ∀ a ∈ rule.antecedents, r.get? a = some true := by
  simp only [Rule.fires, Registry.holdsAll, List.all_eq_true, Registry.holds_iff]

theorem Registry.nextRule?_eq_some {r : Registry TopologyProperty} {rule : Rule}
    (h : r.nextRule? = some rule) :
    rule ∈ separationRules ∧ rule.fires r = true ∧ r.get? rule.consequent = none := by
  unfold nextRule? at h
  have hderives := List.find?_some h
  simp only [Rule.derivesIn, Bool.and_eq_true, beq_iff_eq] at hderives
  exact ⟨List.mem_of_find?_eq_some h, hderives⟩

theorem Registry.nextRule?_eq_none {r : Registry TopologyProperty} (h : r.nextRule? = none)
    {rule : Rule} (hmem : rule ∈ separationRules) (hfires : rule.fires r = true) :
    r.get? rule.consequent ≠ none := by
  intro hunset
  have hnot := List.find?_eq_none.1 h rule hmem
  simp [Rule.derivesIn, hfires, hunset] at hnot

/-- A derivation is by a rule that fires with its consequent unset. -/
theorem Registry.deriveUpTo_cases {bound : Nat} {r closed : Registry TopologyProperty}
    {derived : List TopologyProperty} (h : r.deriveUpTo bound = (closed, derived)) :
    (closed = r ∧ derived = []) ∨
    ∃ bound' rule later, bound = bound' + 1 ∧ r.nextRule? = some rule ∧
      (r.set rule.consequent true).deriveUpTo bound' = (closed, later) ∧
      derived = rule.consequent :: later := by
  cases bound with
  | zero =>
    cases h
    exact Or.inl ⟨rfl, rfl⟩
  | succ bound =>
    unfold deriveUpTo at h
    cases hnext : r.nextRule? with
    | none =>
      simp only [hnext, Prod.mk.injEq] at h
      exact Or.inl ⟨h.1.symm, h.2.symm⟩
    | some rule =>
      simp only [hnext, Prod.mk.injEq] at h
      obtain ⟨rfl, rfl⟩ := h
      exact Or.inr ⟨bound, rule, _, rfl, rfl, rfl, rfl⟩

namespace Variables

variable {ρ : Type}

/-! ## Reading and writing variables -/

theorem get?_put (vars : Variables ρ) (i j : Nat) (t : Ty ρ) :
    (vars.put i t).get? j = if i = j ∧ j < vars.size then some t else vars.get? j := by
  by_cases hij : i = j
  · subst hij
    by_cases hlt : i < vars.size
    · simp [get?_put_self hlt, hlt]
    · have hnone : vars.entries[i]? = none := List.getElem?_eq_none (Nat.le_of_not_lt hlt)
      simp [put, get?, hlt, hnone]
  · simp [get?_put_of_ne vars hij, hij]

theorem lt_size_of_get? {vars : Variables ρ} {i : Nat} {t : Ty ρ} (h : vars.get? i = some t) :
    i < vars.size := by
  refine Nat.lt_of_not_le fun hle => ?_
  have hnone : vars.entries[i]? = none := List.getElem?_eq_none hle
  simp [get?, hnone] at h

@[simp]
theorem name?_put (vars : Variables ρ) (i j : Nat) (t : Ty ρ) :
    (vars.put i t).name? j = vars.name? j := by
  by_cases hij : i = j
  · subst hij
    simp only [name?, put, List.getElem?_modify_eq]
    cases vars.entries[i]? <;> rfl
  · simp only [name?, put, List.getElem?_modify_ne _ _ hij]

theorem put_put (vars : Variables ρ) (i : Nat) (t t' : Ty ρ) :
    (vars.put i t).put i t' = vars.put i t' := by
  simp only [put, List.modify_modify_eq]
  rfl

theorem put_self {vars : Variables ρ} {i : Nat} {t : Ty ρ} (h : vars.get? i = some t) :
    vars.put i t = vars := by
  have hlt : i < vars.entries.length := lt_size_of_get? h
  have hbound : vars.entries[i].binding = some t := by
    simpa [get?, List.getElem?_eq_getElem hlt] using h
  have hentries : vars.entries.modify i (fun entry => { entry with binding := some t }) =
      vars.entries := by
    apply List.ext_getElem (by simp)
    intro j hj hj'
    by_cases hij : i = j
    · subst hij
      simp [← hbound]
    · simp [List.getElem_modify_ne _ _ hij]
  rw [put, hentries]

/-! ## Growth -/

/-- The second variables are the first ones with more of them bound and more properties
recorded. -/
structure GrowsTo (vars vars' : Variables ρ) : Prop where
  /-- There are no new variables. -/
  size_eq : vars'.size = vars.size
  /-- The variables keep their names. -/
  name?_eq : ∀ i, vars'.name? i = vars.name? i
  /-- Bound variables stay bound, to types that have grown. -/
  get?_grows : ∀ {i t}, vars.get? i = some t → ∃ t', vars'.get? i = some t' ∧ t.GrowsTo t'

theorem GrowsTo.refl (vars : Variables ρ) : vars.GrowsTo vars :=
  ⟨rfl, fun _ => rfl, fun {_ t} h => ⟨t, h, .refl t⟩⟩

theorem GrowsTo.trans {vars vars' vars'' : Variables ρ} (h : vars.GrowsTo vars')
    (h' : vars'.GrowsTo vars'') : vars.GrowsTo vars'' := by
  refine ⟨h'.size_eq.trans h.size_eq, fun i => (h'.name?_eq i).trans (h.name?_eq i), ?_⟩
  intro i t ht
  obtain ⟨t', ht', hgrow⟩ := h.get?_grows ht
  obtain ⟨t'', ht'', hgrow'⟩ := h'.get?_grows ht'
  exact ⟨t'', ht'', hgrow.trans hgrow'⟩

theorem growsTo_put_free {vars : Variables ρ} {i : Nat} (hfree : vars.get? i = none) (t : Ty ρ) :
    vars.GrowsTo (vars.put i t) := by
  refine ⟨size_put vars i t, fun j => name?_put vars i j t, ?_⟩
  intro j s hs
  have hij : i ≠ j := by
    rintro rfl
    rw [hfree] at hs
    cases hs
  exact ⟨s, by rw [get?_put_of_ne vars hij, hs], .refl s⟩

theorem growsTo_put {vars : Variables ρ} {i : Nat} {t t' : Ty ρ} (ht : vars.get? i = some t)
    (hgrow : t.GrowsTo t') : vars.GrowsTo (vars.put i t') := by
  refine ⟨size_put vars i t', fun j => name?_put vars i j t', ?_⟩
  intro j s hs
  by_cases hij : i = j
  · subst hij
    rw [ht] at hs
    cases hs
    exact ⟨t', get?_put_self (lt_size_of_get? ht) t', hgrow⟩
  · exact ⟨s, by rw [get?_put_of_ne vars hij, hs], .refl s⟩

end Variables

variable {ρ : Type}

/-! ## Moves -/

/-- The property that a goal wants a variable to have with a value, for what it reads in the
variables. -/
def Goal.Demands (vars : Variables ρ) : Goal → Nat → Property → Bool → Prop
  | sameAs var source, i, p, v =>
    i = var ∧ ∃ s, vars.get? source = some s ∧ (p, v) ∈ s.recorded
  | subtype _ _, _, _, _ => False
  | property var q w, i, p, v => i = var ∧ p = q ∧ v = w
  | preserve source target mapping, i, p, v =>
    i = target ∧ v = true ∧ ∃ q ∈ mapping.preserves, p = .topology q ∧
      ∃ s, vars.get? source = some s ∧ (p, true) ∈ s.recorded
  | derive var, i, p, v =>
    i = var ∧ v = true ∧ ∃ rule ∈ separationRules, p = .topology rule.consequent ∧
      ∃ t, vars.get? var = some t ∧ ∀ a ∈ rule.antecedents, t.value? (.topology a) = some true

/-- A goal still demands what it has demanded when the variables have grown. -/
theorem Goal.Demands.mono {vars vars' : Variables ρ} (hgrow : vars.GrowsTo vars') {goal : Goal}
    {i : Nat} {p : Property} {v : Bool} (h : goal.Demands vars i p v) :
    goal.Demands vars' i p v := by
  cases goal with
  | sameAs var source =>
    obtain ⟨rfl, s, hs, hmem⟩ := h
    obtain ⟨s', hs', hsgrow⟩ := hgrow.get?_grows hs
    exact ⟨rfl, s', hs', hsgrow.recorded_prefix.subset hmem⟩
  | subtype sub sup => exact h
  | property var q w => exact h
  | preserve source target mapping =>
    obtain ⟨rfl, rfl, q, hq, rfl, s, hs, hmem⟩ := h
    obtain ⟨s', hs', hsgrow⟩ := hgrow.get?_grows hs
    exact ⟨rfl, rfl, q, hq, rfl, s', hs', hsgrow.recorded_prefix.subset hmem⟩
  | derive var =>
    obtain ⟨rfl, rfl, rule, hrule, rfl, t, ht, hfires⟩ := h
    obtain ⟨t', ht', htgrow⟩ := hgrow.get?_grows ht
    exact ⟨rfl, rfl, rule, hrule, rfl, t', ht', fun a ha => htgrow.value? (hfires a ha)⟩

/-- One change that a goal makes. -/
inductive Goal.Move (goal : Goal) : Variables ρ → Variables ρ → Prop where
  /-- A free variable gets the type that it should share. -/
  | bind {vars : Variables ρ} {var source : Nat} {s : Ty ρ} (hgoal : goal = .sameAs var source)
      (hsource : vars.get? source = some s) (hlt : var < vars.size)
      (hfree : vars.get? var = none) : Move goal vars (vars.put var s)
  /-- An unset property that the goal demands is recorded. -/
  | record {vars : Variables ρ} {i : Nat} {t : Ty ρ} {p : Property} {v : Bool}
      (hdemand : goal.Demands vars i p v) (hbound : vars.get? i = some t)
      (hkind : t.kind = p.kind) (hunset : t.value? p = none) :
      Move goal vars (vars.put i (t.record p v))

theorem Goal.Move.growsTo {goal : Goal} {vars vars' : Variables ρ} (h : goal.Move vars vars') :
    vars.GrowsTo vars' := by
  cases h with
  | bind hgoal hsource hlt hfree => exact Variables.growsTo_put_free hfree _
  | record hdemand hbound hkind hunset =>
    exact Variables.growsTo_put hbound (Ty.growsTo_record hkind hunset _)

/-- A number of moves by some of the goals, one after another. -/
inductive Run (goals : List Goal) : Nat → Variables ρ → Variables ρ → Prop where
  | refl (vars : Variables ρ) : Run goals 0 vars vars
  | step {goal : Goal} {n : Nat} {vars vars' vars'' : Variables ρ} (hmem : goal ∈ goals)
      (hmove : goal.Move vars vars') (hrest : Run goals n vars' vars'') :
      Run goals (n + 1) vars vars''

namespace Run

variable {goals : List Goal} {m n : Nat} {vars vars' vars'' : Variables ρ}

theorem one {goal : Goal} (hmem : goal ∈ goals) (hmove : goal.Move vars vars') :
    Run goals 1 vars vars' :=
  .step hmem hmove (.refl vars')

theorem trans (h : Run goals m vars vars') (h' : Run goals n vars' vars'') :
    Run goals (m + n) vars vars'' := by
  induction h with
  | refl vars => rwa [Nat.zero_add]
  | step hmem hmove hrest ih =>
    rw [Nat.add_right_comm]
    exact .step hmem hmove (ih h')

theorem mono {goals' : List Goal} (hsub : goals ⊆ goals') (h : Run goals n vars vars') :
    Run goals' n vars vars' := by
  induction h with
  | refl vars => exact .refl vars
  | step hmem hmove hrest ih => exact .step (hsub hmem) hmove ih

/-- What every move preserves, a run preserves. -/
theorem induct {P : Variables ρ → Prop}
    (hstep : ∀ goal ∈ goals, ∀ vars vars', goal.Move vars vars' → P vars → P vars')
    (h : Run goals n vars vars') (hP : P vars) : P vars' := by
  induction h with
  | refl vars => exact hP
  | step hmem hmove hrest ih => exact ih (hstep _ hmem _ _ hmove hP)

theorem growsTo (h : Run goals n vars vars') : vars.GrowsTo vars' := by
  induction h with
  | refl vars => exact .refl vars
  | step hmem hmove hrest ih => exact hmove.growsTo.trans ih

theorem eq_of_zero (h : Run goals 0 vars vars') : vars' = vars := by
  cases h
  rfl

end Run

/-! ## What the operations do -/

namespace Variables

variable {vars vars' : Variables ρ} {effects : List Effect} {goal : Goal} {i : Nat}

/-- A demand is either met already or recorded. -/
theorem require_cases {p : Property} {v : Bool} (h : vars.require i p v = .ok (vars', effects)) :
    (vars' = vars ∧ effects = [] ∧
      ∀ t, vars.get? i = some t → t.kind = p.kind ∧ t.value? p = some v) ∨
    ∃ t, vars.get? i = some t ∧ t.kind = p.kind ∧ t.value? p = none ∧
      vars' = vars.put i (t.record p v) ∧ effects = [.set i p v] := by
  unfold require at h
  split at h
  case h_1 => cases h
  cases hget : vars.get? i with
  | none =>
    simp only [hget, Except.ok.injEq, Prod.mk.injEq] at h
    exact Or.inl ⟨h.1.symm, h.2.symm, fun t ht => by cases ht⟩
  | some t =>
    by_cases hk : t.kind = p.kind
    · cases hv : t.value? p with
      | none =>
        simp only [hget, hk, hv, if_true, Except.ok.injEq, Prod.mk.injEq] at h
        exact Or.inr ⟨t, rfl, hk, hv, h.1.symm, h.2.symm⟩
      | some known =>
        by_cases hknown : known = v
        · simp only [hget, hk, hv, hknown, if_true, Except.ok.injEq, Prod.mk.injEq] at h
          refine Or.inl ⟨h.1.symm, h.2.symm, fun s hs => ?_⟩
          cases hs
          exact ⟨hk, by rw [hv, hknown]⟩
        · simp [hget, hk, hv, hknown] at h
    · simp [hget, hk] at h

theorem require_run {p : Property} {v : Bool} (hd : goal.Demands vars i p v)
    (h : vars.require i p v = .ok (vars', effects)) : Run [goal] effects.length vars vars' := by
  rcases require_cases h with ⟨rfl, rfl, -⟩ | ⟨t, ht, hk, hu, rfl, rfl⟩
  · exact .refl _
  · exact .one List.mem_cons_self (.record hd ht hk hu)

theorem size_of_require {p : Property} {v : Bool} (h : vars.require i p v = .ok (vars', effects)) :
    vars'.size = vars.size := by
  rcases require_cases h with ⟨rfl, -⟩ | ⟨t, -, -, -, rfl, -⟩
  · rfl
  · exact size_put vars i _

/-- A property is demanded of a bound variable only. -/
theorem applyProperty_cases {p : Property} {v : Bool}
    (h : vars.applyProperty i p v = .ok (vars', effects)) :
    (vars' = vars ∧ effects = [] ∧ vars.get? i = none) ∨
      vars.require i p v = .ok (vars', effects) := by
  unfold applyProperty at h
  split at h
  case h_1 hfree =>
    cases h
    exact Or.inl ⟨rfl, rfl, hfree⟩
  case h_2 => exact Or.inr h

theorem applyProperty_run {p : Property} {v : Bool}
    (h : vars.applyProperty i p v = .ok (vars', effects)) :
    Run [.property i p v] effects.length vars vars' := by
  rcases applyProperty_cases h with ⟨rfl, rfl, -⟩ | hrequire
  · exact .refl _
  · exact require_run ⟨rfl, rfl, rfl⟩ hrequire

theorem requireAll_run {demands : List (Property × Bool)}
    (hd : ∀ e ∈ demands, goal.Demands vars i e.1 e.2)
    (h : vars.requireAll i demands = .ok (vars', effects)) :
    Run [goal] effects.length vars vars' := by
  induction demands generalizing vars effects with
  | nil =>
    simp only [requireAll, Except.ok.injEq, Prod.mk.injEq] at h
    obtain ⟨rfl, rfl⟩ := h
    exact .refl _
  | cons e rest ih =>
    obtain ⟨⟨mid, first⟩, hfirst, h⟩ := bind_eq_ok_iff.1 h
    obtain ⟨⟨last, others⟩, hrest, h⟩ := bind_eq_ok_iff.1 h
    cases h
    have hrun := require_run (hd e List.mem_cons_self) hfirst
    have hd' : ∀ e' ∈ rest, goal.Demands mid i e'.1 e'.2 := fun e' he' =>
      (hd e' (List.mem_cons_of_mem _ he')).mono hrun.growsTo
    rw [List.length_append]
    exact hrun.trans (ih hd' hrest)

theorem fill_run {p : TopologyProperty} (hd : goal.Demands vars i (.topology p) true)
    (h : vars.fill i p = .ok (vars', effects)) : Run [goal] effects.length vars vars' := by
  unfold fill at h
  split at h
  · cases h
    exact .refl _
  · exact require_run hd h

theorem fillAll_run {properties : List TopologyProperty}
    (hd : ∀ p ∈ properties, goal.Demands vars i (.topology p) true)
    (h : vars.fillAll i properties = .ok (vars', effects)) :
    Run [goal] effects.length vars vars' := by
  induction properties generalizing vars effects with
  | nil =>
    simp only [fillAll, Except.ok.injEq, Prod.mk.injEq] at h
    obtain ⟨rfl, rfl⟩ := h
    exact .refl _
  | cons p rest ih =>
    obtain ⟨⟨mid, first⟩, hfirst, h⟩ := bind_eq_ok_iff.1 h
    obtain ⟨⟨last, others⟩, hrest, h⟩ := bind_eq_ok_iff.1 h
    cases h
    have hrun := fill_run (hd p List.mem_cons_self) hfirst
    have hd' : ∀ q ∈ rest, goal.Demands mid i (.topology q) true := fun q hq =>
      (hd q (List.mem_cons_of_mem _ hq)).mono hrun.growsTo
    rw [List.length_append]
    exact hrun.trans (ih hd' hrest)

/-- A derivation by a rule is a move, so that deriving until nothing applies is a run. -/
theorem deriveUpTo_run {bound var : Nat} {base : Ty ρ} {r closed : Registry TopologyProperty}
    {derived : List TopologyProperty} (hbound : vars.get? var = some (.topology base r))
    (h : r.deriveUpTo bound = (closed, derived)) :
    Run [.derive var] derived.length vars (vars.put var (.topology base closed)) := by
  induction derived generalizing vars r bound with
  | nil =>
    rcases Registry.deriveUpTo_cases h with ⟨rfl, -⟩ | ⟨_, _, _, -, -, -, hnil⟩
    · rw [put_self hbound]
      exact .refl _
    · cases hnil
  | cons p derived ih =>
    rcases Registry.deriveUpTo_cases h with ⟨-, hnil⟩ | ⟨bound, rule, _, rfl, hnext, hlater, hcons⟩
    · cases hnil
    · cases hcons
      obtain ⟨hmem, hfires, hunset⟩ := Registry.nextRule?_eq_some hnext
      have hmove : (Goal.derive var).Move vars
          (vars.put var ((Ty.topology base r).record (.topology rule.consequent) true)) :=
        .record ⟨rfl, rfl, rule, hmem, rfl, _, hbound, Rule.fires_iff.1 hfires⟩ hbound rfl hunset
      have hrest := ih (get?_put_self (lt_size_of_get? hbound) _) hlater
      rw [put_put] at hrest
      exact .step List.mem_cons_self hmove hrest

variable [Meaning ρ] [DecidableEq ρ]

/-- A variable that should agree with another waits for it, is bound to its type, or takes over its
properties. -/
theorem applySameAs_cases {h : Hierarchy} {var source : Nat}
    (happly : vars.applySameAs h var source = .ok (vars', effects)) :
    (vars' = vars ∧ effects = []) ∨
    ∃ s, vars.get? source = some s ∧
      ((vars.get? var = none ∧ var < vars.size ∧ vars' = vars.put var s ∧ effects = [.bound var]) ∨
        vars.requireAll var s.recorded = .ok (vars', effects)) := by
  unfold applySameAs at happly
  cases hsource : vars.get? source with
  | none =>
    simp only [hsource, Except.ok.injEq, Prod.mk.injEq] at happly
    exact Or.inl ⟨happly.1.symm, happly.2.symm⟩
  | some s =>
    simp only [hsource] at happly
    refine Or.inr ⟨s, rfl, ?_⟩
    cases hvar : vars.get? var with
    | none =>
      simp only [hvar, assign, Option.isSome_none, Bool.false_eq_true, if_false] at happly
      by_cases hlt : var < vars.size
      · simp only [Nat.not_le.2 hlt, if_false, Except.ok.injEq, Prod.mk.injEq] at happly
        exact Or.inl ⟨rfl, hlt, happly.1.symm, happly.2.symm⟩
      · simp [Nat.le_of_not_lt hlt] at happly
    | some current =>
      simp only [hvar] at happly
      split at happly
      · exact Or.inr happly
      · cases happly

theorem applySameAs_run {h : Hierarchy} {var source : Nat}
    (happly : vars.applySameAs h var source = .ok (vars', effects)) :
    Run [.sameAs var source] effects.length vars vars' := by
  rcases applySameAs_cases happly with ⟨rfl, rfl⟩ |
    ⟨s, hsource, ⟨hfree, hlt, rfl, rfl⟩ | hrequire⟩
  · exact .refl _
  · exact .one List.mem_cons_self (.bind rfl hsource hlt hfree)
  · exact requireAll_run (fun e he => ⟨rfl, s, hsource, he⟩) hrequire

theorem applySubtype_eq {h : Hierarchy} {sub sup : Nat}
    (happly : vars.applySubtype h sub sup = .ok (vars', effects)) :
    vars' = vars ∧ effects = [] := by
  unfold applySubtype at happly
  split at happly
  · split at happly
    · cases happly
      exact ⟨rfl, rfl⟩
    · cases happly
  · cases happly
    exact ⟨rfl, rfl⟩

omit [Meaning ρ] [DecidableEq ρ] in
theorem applyPreserve_run {source target : Nat} {mapping : MappingKind}
    (happly : vars.applyPreserve source target mapping = .ok (vars', effects)) :
    Run [.preserve source target mapping] effects.length vars vars' := by
  unfold applyPreserve at happly
  split at happly
  case h_1 s t hs ht =>
    obtain ⟨registry, hregistry, happly⟩ := bind_eq_ok_iff.1 happly
    obtain ⟨_, -, happly⟩ := bind_eq_ok_iff.1 happly
    refine fillAll_run (fun p hp => ?_) happly
    cases s with
    | topology base r =>
      cases hregistry
      obtain ⟨e, he, rfl⟩ := List.mem_map.1 hp
      obtain ⟨hmem, he⟩ := List.mem_filter.1 he
      simp only [Bool.and_eq_true, List.contains_iff_mem] at he
      refine ⟨rfl, rfl, e.1, he.2, rfl, _, hs, List.mem_map.2 ⟨e, hmem, ?_⟩⟩
      rw [he.1]
    | _ => cases hregistry
  case h_2 =>
    cases happly
    exact .refl _

omit [Meaning ρ] [DecidableEq ρ] in
theorem applyDerive_cases {var : Nat} (happly : vars.applyDerive var = .ok (vars', effects)) :
    (vars' = vars ∧ effects = []) ∨
    ∃ base registry closed derived, vars.get? var = some (.topology base registry) ∧
      registry.saturate = (closed, derived) ∧ derived ≠ [] ∧
      vars' = vars.put var (.topology base closed) ∧ effects = [.derived var derived] := by
  unfold applyDerive at happly
  split at happly
  case h_1 base registry hbound =>
    rcases hsat : registry.saturate with ⟨closed, derived⟩
    simp only [hsat] at happly
    cases derived with
    | nil =>
      cases happly
      exact Or.inl ⟨rfl, rfl⟩
    | cons p rest =>
      cases happly
      exact Or.inr ⟨base, registry, closed, _, hbound, hsat, List.cons_ne_nil p rest, rfl, rfl⟩
  case h_2 =>
    cases happly
    exact Or.inl ⟨rfl, rfl⟩

omit [Meaning ρ] [DecidableEq ρ] in
theorem applyDerive_run {var : Nat} (happly : vars.applyDerive var = .ok (vars', effects)) :
    ∃ n, Run [.derive var] n vars vars' ∧ effects.length ≤ n ∧ (effects = [] → n = 0) := by
  rcases applyDerive_cases happly with ⟨rfl, rfl⟩ |
    ⟨base, registry, closed, derived, hbound, hsat, hderived, rfl, rfl⟩
  · exact ⟨0, .refl _, Nat.le_refl 0, fun _ => rfl⟩
  · exact ⟨_, deriveUpTo_run hbound hsat, List.length_pos_iff.2 hderived, fun h => by cases h⟩

end Variables

/-! ## Goals, passes and the whole of inference -/

section

variable [Meaning ρ] [DecidableEq ρ] {h : Hierarchy} {vars vars' : Variables ρ}

/-- Applying a goal is a run of its moves. -/
theorem Goal.apply_run {goal : Goal} {effects : List Effect}
    (happly : goal.apply h vars = .ok (vars', effects)) :
    ∃ n, Run [goal] n vars vars' ∧ effects.length ≤ n ∧ (effects = [] → n = 0) := by
  have exact_length : ∀ {goal : Goal}, Run [goal] effects.length vars vars' →
      ∃ n, Run [goal] n vars vars' ∧ effects.length ≤ n ∧ (effects = [] → n = 0) :=
    fun hrun => ⟨_, hrun, Nat.le_refl _, fun heq => by rw [heq]; rfl⟩
  cases goal with
  | sameAs var source => exact exact_length (Variables.applySameAs_run happly)
  | subtype sub sup =>
    obtain ⟨rfl, rfl⟩ := Variables.applySubtype_eq happly
    exact exact_length (.refl _)
  | property var p v => exact exact_length (Variables.applyProperty_run happly)
  | preserve source target mapping => exact exact_length (Variables.applyPreserve_run happly)
  | derive var => exact Variables.applyDerive_run happly

/-- Every goal was applied to the variables and had nothing to change. -/
def Settled (h : Hierarchy) (goals : List Goal) (vars : Variables ρ) : Prop :=
  ∀ goal ∈ goals, goal.apply h vars = .ok (vars, [])

namespace GoalSystem

variable {goals : List Goal} {steps : List Step} {pass index : Nat}

/-- A pass is a run. -/
theorem applyAll_run (happly : applyAll h pass index vars goals = .ok (vars', steps)) :
    ∃ n, Run goals n vars vars' ∧ steps.length ≤ n ∧ (steps = [] → n = 0) := by
  induction goals generalizing vars index steps with
  | nil =>
    cases happly
    exact ⟨0, .refl _, Nat.le_refl 0, fun _ => rfl⟩
  | cons goal rest ih =>
    obtain ⟨⟨mid, effects⟩, hgoal, happly⟩ := bind_eq_ok_iff.1 happly
    obtain ⟨⟨last, later⟩, hrest, happly⟩ := bind_eq_ok_iff.1 happly
    cases happly
    obtain ⟨m, hrun, hle, hzero⟩ := Goal.apply_run hgoal
    obtain ⟨n, hrun', hle', hzero'⟩ := ih hrest
    have hsub : [goal] ⊆ goal :: rest := by simp
    refine ⟨m + n, (hrun.mono hsub).trans (hrun'.mono (List.subset_cons_self _ _)), ?_, ?_⟩
    · rw [List.length_append, List.length_map]
      omega
    · intro hnil
      obtain ⟨hfirst, hlater⟩ := List.append_eq_nil_iff.1 hnil
      have hm := hzero (List.map_eq_nil_iff.1 hfirst)
      have hn := hzero' hlater
      omega

/-- In a pass without effects, every goal is applied to the variables as they were. -/
theorem settled_of_applyAll (happly : applyAll h pass index vars goals = .ok (vars', [])) :
    vars' = vars ∧ Settled h goals vars := by
  induction goals generalizing index with
  | nil =>
    cases happly
    exact ⟨rfl, fun goal hmem => by cases hmem⟩
  | cons goal rest ih =>
    obtain ⟨⟨mid, effects⟩, hgoal, happly⟩ := bind_eq_ok_iff.1 happly
    obtain ⟨⟨last, later⟩, hrest, happly⟩ := bind_eq_ok_iff.1 happly
    obtain ⟨rfl, hnil⟩ := Prod.mk.inj (Except.ok.inj happly)
    obtain ⟨hfirst, rfl⟩ := List.append_eq_nil_iff.1 hnil
    have heffects : effects = [] := List.map_eq_nil_iff.1 hfirst
    subst heffects
    -- no effects, so no moves: the rest of the pass starts from the same variables
    obtain ⟨n, hrun, -, hzero⟩ := Goal.apply_run hgoal
    have hmid : mid = vars := Run.eq_of_zero (hzero rfl ▸ hrun)
    subst hmid
    obtain ⟨rfl, hsettled⟩ := ih hrest
    refine ⟨rfl, fun goal' hmem => ?_⟩
    rcases List.mem_cons.1 hmem with rfl | hmem
    · exact hgoal
    · exact hsettled goal' hmem

/-- Inference ends well after a pass that changes nothing, or it goes on after one that does. -/
theorem iterate_cases {remaining : Nat} {path : List Step} {solution : Solution ρ}
    (hsolve : iterate h goals remaining pass vars path = .ok solution) :
    (solution = ⟨vars, path⟩ ∧ Settled h goals vars ∧ vars.checkConsistent = .ok () ∧
      vars.freeNames = []) ∨
    ∃ remaining' mid steps, remaining = remaining' + 1 ∧ steps ≠ [] ∧
      applyAll h pass 0 vars goals = .ok (mid, steps) ∧
      iterate h goals remaining' (pass + 1) mid (path ++ steps) = .ok solution := by
  cases remaining with
  | zero => cases hsolve
  | succ remaining =>
    obtain ⟨⟨mid, steps⟩, hpass, hloop⟩ := bind_eq_ok_iff.1 hsolve
    obtain ⟨⟨⟩, hconsistent, hend⟩ := bind_eq_ok_iff.1 hloop
    cases steps with
    | nil =>
      obtain ⟨rfl, hsettled⟩ := settled_of_applyAll hpass
      change conclude mid path = .ok solution at hend
      unfold conclude at hend
      split at hend
      case isTrue hfree =>
        cases hend
        exact Or.inl ⟨rfl, hsettled, hconsistent, List.isEmpty_iff.1 hfree⟩
      case isFalse => cases hend
    | cons step later =>
      exact Or.inr ⟨remaining, mid, step :: later, rfl, List.cons_ne_nil _ _, hpass, hend⟩

/-- A solution is reached by a run, and it is settled, consistent and bound. -/
theorem iterate_ok {remaining : Nat} {path : List Step} {solution : Solution ρ}
    (hsolve : iterate h goals remaining pass vars path = .ok solution) :
    (∃ n, Run goals n vars solution.vars) ∧ Settled h goals solution.vars ∧
      solution.vars.checkConsistent = .ok () ∧ solution.vars.freeNames = [] := by
  induction remaining generalizing pass vars path with
  | zero => cases hsolve
  | succ remaining ih =>
    rcases iterate_cases hsolve with ⟨rfl, hsolved⟩ | ⟨_, mid, steps, hsucc, -, hpass, hrest⟩
    · exact ⟨⟨0, .refl _⟩, hsolved⟩
    · cases hsucc
      obtain ⟨m, hrun, -⟩ := applyAll_run hpass
      obtain ⟨⟨n, hrun'⟩, hsolved⟩ := ih hrest
      exact ⟨⟨m + n, hrun.trans hrun'⟩, hsolved⟩

end GoalSystem

end

end SpaceTypes
