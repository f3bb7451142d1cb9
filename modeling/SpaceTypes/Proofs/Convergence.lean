import SpaceTypes.Proofs.Errors

/-!
# Convergence of inference

Every move of inference makes something known: it binds a variable, or it records a property that
was unset. `Variables.unknowns` counts what is not known yet, for each variable its type and the
value of each property, and every move lowers it (`Goal.Move.unknowns_lt`). A pass with an effect
makes at least one move, so that there are no more such passes than unknowns at the start, and the
bound on the passes leaves room for one more that changes nothing.

Binding a variable may make many properties known at once, and deriving by the rules records
several properties in one effect. Both only help: the count goes down by at least one for each
effect.
-/

namespace SpaceTypes

variable {ρ : Type}

/-! ## What is not known -/

/-- What is not known about a variable: its type if it is not bound, and each property that is
unset. -/
def unknownsOf (binding : Option (Ty ρ)) : Nat :=
  (if binding.isNone then 1 else 0) +
    Property.all.countP fun p => (binding.bind fun t => t.value? p).isNone

/-- The number of unbound variables plus the number of unset properties of all variables. -/
def Variables.unknowns (vars : Variables ρ) : Nat :=
  (vars.entries.map fun entry => unknownsOf entry.binding).sum

theorem unknownsOf_le (binding : Option (Ty ρ)) : unknownsOf binding ≤ 18 := by
  have hcount := List.countP_le_length (p := fun p => (binding.bind fun t => t.value? p).isNone)
    (l := Property.all)
  have hlength : Property.all.length = 17 := rfl
  unfold unknownsOf
  split <;> omega

theorem unknownsOf_none : unknownsOf (none : Option (Ty ρ)) = 18 := rfl

theorem unknownsOf_some_le (t : Ty ρ) : unknownsOf (some t) ≤ 17 := by
  have hcount := List.countP_le_length (p := fun p => (t.value? p).isNone) (l := Property.all)
  have hlength : Property.all.length = 17 := rfl
  simp only [unknownsOf, Option.isNone_some, Bool.false_eq_true, if_false, Option.bind_some]
  omega

theorem countP_lt_countP {α : Type} {p q : α → Bool} {l : List α}
    (himp : ∀ a, q a = true → p a = true) {a : α} (hmem : a ∈ l) (hp : p a = true)
    (hq : q a = false) : l.countP q < l.countP p := by
  induction l with
  | nil => cases hmem
  | cons b rest ih =>
    have hle : rest.countP q ≤ rest.countP p := List.countP_mono_left fun x _ => himp x
    rw [List.countP_cons, List.countP_cons]
    rcases List.mem_cons.1 hmem with rfl | hmem
    · rw [hp, hq, if_pos rfl, if_neg Bool.false_ne_true]
      omega
    · have hlt := ih hmem
      by_cases hb : q b = true
      · rw [himp b hb, hb]
        omega
      · rw [if_neg hb]
        omega

theorem unknownsOf_record_lt {t : Ty ρ} {p : Property} (hk : t.kind = p.kind)
    (hu : t.value? p = none) (v : Bool) :
    unknownsOf (some (t.record p v)) < unknownsOf (some t) := by
  refine Nat.add_lt_add_left (countP_lt_countP (fun q hq => ?_) p.mem_all ?_ ?_) 0
  · simp only [Option.bind_some, Option.isNone_iff_eq_none] at hq ⊢
    by_cases hqp : q = p
    · rw [hqp, Ty.value?_record_self hk] at hq
      cases hq
    · rwa [Ty.value?_record_of_ne hqp] at hq
  · simp [hu]
  · simp [Ty.value?_record_self hk]

namespace Variables

theorem unknowns_le (vars : Variables ρ) : vars.unknowns ≤ vars.size * 18 := by
  unfold unknowns size
  induction vars.entries with
  | nil => simp
  | cons entry rest ih =>
    have hentry := unknownsOf_le entry.binding
    simp only [List.map_cons, List.sum_cons, List.length_cons]
    omega

/-- Writing a variable changes what is unknown about this variable only. -/
theorem unknowns_put {vars : Variables ρ} {i : Nat} (hlt : i < vars.size) (t : Ty ρ) :
    (vars.put i t).unknowns + unknownsOf (vars.get? i) = vars.unknowns + unknownsOf (some t) := by
  obtain ⟨before, entry, after, hentries, hlength, hmodify⟩ :=
    List.exists_of_modify (fun entry : Variable ρ => { entry with binding := some t }) hlt
  have hput : (vars.put i t).entries = before ++ { entry with binding := some t } :: after :=
    hmodify
  have hget : vars.get? i = entry.binding := by
    simp [get?, hentries, ← hlength]
  simp only [unknowns, hput, hentries, hget, List.map_append, List.map_cons, List.sum_append_nat,
    List.sum_cons]
  omega

end Variables

/-- A move makes something known. -/
theorem Goal.Move.unknowns_lt {goal : Goal} {vars vars' : Variables ρ}
    (h : goal.Move vars vars') : vars'.unknowns < vars.unknowns := by
  cases h with
  | @bind var source s hgoal hsource hlt hfree =>
    have hput := Variables.unknowns_put hlt s
    have hsome := unknownsOf_some_le s
    rw [hfree, unknownsOf_none] at hput
    omega
  | @record i t p v hdemand hbound hkind hunset =>
    have hput := Variables.unknowns_put (Variables.lt_size_of_get? hbound) (t.record p v)
    have hless := unknownsOf_record_lt hkind hunset v
    rw [hbound] at hput
    omega

theorem Run.unknowns_add_le {goals : List Goal} {n : Nat} {vars vars' : Variables ρ}
    (h : Run goals n vars vars') : vars'.unknowns + n ≤ vars.unknowns := by
  induction h with
  | refl vars => exact Nat.le_refl _
  | step hmem hmove hrest ih =>
    have hless := hmove.unknowns_lt
    omega

variable [Meaning ρ] [DecidableEq ρ] {h : Hierarchy} {vars vars' : Variables ρ}

namespace GoalSystem

variable {goals : List Goal} {pass index : Nat}

/-! ## Enough passes -/

/-- A pass with an effect makes something known. -/
theorem unknowns_lt_of_applyAll {steps : List Step}
    (happly : applyAll h pass index vars goals = .ok (vars', steps)) (hsteps : steps ≠ []) :
    vars'.unknowns < vars.unknowns := by
  obtain ⟨n, hrun, hle, -⟩ := applyAll_run happly
  have hpos : 0 < steps.length := List.length_pos_iff.2 hsteps
  have hadd := hrun.unknowns_add_le
  omega

/-- With more passes than unknowns, inference does not run out of passes. -/
theorem iterate_ne_notConverged {remaining : Nat} {path : List Step}
    (henough : vars.unknowns < remaining) (passes : Nat) :
    iterate h goals remaining pass vars path ≠ .error (.notConverged passes) := by
  induction remaining generalizing pass vars path with
  | zero => omega
  | succ remaining ih =>
    intro hfail
    rcases iterate_succ_error hfail with hrejects | ⟨-, -, hfree⟩ |
      ⟨mid, steps, hsteps, hpass, hrest⟩
    · cases hrejects.isIncomplete_eq
    · cases hfree
    · have hless := unknowns_lt_of_applyAll hpass hsteps
      exact ih (by omega) hrest

omit [Meaning ρ] [DecidableEq ρ] in
theorem unknowns_lt_passBound (system : GoalSystem ρ) :
    system.vars.unknowns < system.passBound := by
  have hle := system.vars.unknowns_le
  have hbound : system.passBound = system.vars.size * 18 + system.goals.length + 1 := rfl
  omega

omit [Meaning ρ] [DecidableEq ρ] in
theorem unknowns_lt_limit {config : Config} {system : GoalSystem ρ}
    (hlimit : ∀ n, config.passLimit = some n → system.passBound ≤ n) :
    system.vars.unknowns < config.passLimit.getD system.passBound := by
  have hless := system.unknowns_lt_passBound
  cases hcap : config.passLimit with
  | none => exact hless
  | some n => exact Nat.lt_of_lt_of_le hless (hlimit n hcap)

/-- Without a limit on the passes, or with one that is not below the bound, inference never gives
up: each pass with an effect lowers the number of unknowns, and the bound leaves room for as many
passes as there can be unknowns and one more. -/
theorem solve_converges {config : Config} (system : GoalSystem ρ)
    (hlimit : ∀ n, config.passLimit = some n → system.passBound ≤ n) :
    (∀ passes, system.solve config ≠ .error (.notConverged passes)) ∧
    (∀ {pass : Nat} {vars vars' : Variables ρ} {steps : List Step},
      applyAll config.hierarchy pass 0 vars system.goals = .ok (vars', steps) → steps ≠ [] →
      vars'.unknowns < vars.unknowns) ∧
    system.vars.unknowns ≤ system.vars.size * 18 ∧
    system.passBound = system.vars.size * 18 + system.goals.length + 1 :=
  ⟨iterate_ne_notConverged (unknowns_lt_limit hlimit), unknowns_lt_of_applyAll,
    system.vars.unknowns_le, rfl⟩

/-- A chain of three shapes, given in the order in which it takes longest to go through them. -/
def shapeChain : GoalSystem Refinement where
  vars := ⟨[⟨"space", some (.topology (.basic "real") (.ofList [(.compact, true)]))⟩,
    ⟨"shape", none⟩, ⟨"copy", none⟩, ⟨"image", none⟩]⟩
  goals := [.sameAs 3 2, .sameAs 2 1, .sameAs 1 0, .derive 0]

/-- With a limit that just reaches the bound. The first pass binds the first of the shapes and
derives what follows from compactness. -/
theorem shapeChain_converges :
    shapeChain.passBound = 77 ∧
    (∀ passes, shapeChain.solve { passLimit := some 77 } ≠ .error (.notConverged passes)) ∧
    ∃ vars steps, applyAll .standard 0 0 shapeChain.vars shapeChain.goals = .ok (vars, steps) ∧
      steps.map Step.effect =
        [.bound 1, .derived 0 [.paracompact, .locallyCompact]] ∧
      vars.unknowns < shapeChain.vars.unknowns := by
  have hbound : shapeChain.passBound = 77 := by decide
  have hlimit : ∀ n, ({ passLimit := some 77 } : Config).passLimit = some n →
      shapeChain.passBound ≤ n := by
    rintro n hn
    cases hn
    exact Nat.le_of_eq hbound
  obtain ⟨hends, hless, -⟩ := solve_converges shapeChain hlimit
  obtain ⟨vars, steps, hpass, heffects⟩ : ∃ vars steps,
      applyAll .standard 0 0 shapeChain.vars shapeChain.goals = .ok (vars, steps) ∧
      steps.map Step.effect =
        [.bound 1, .derived 0 [.paracompact, .locallyCompact]] := ⟨_, _, by cbv, by cbv⟩
  have hsteps : steps ≠ [] := by
    rintro rfl
    cases heffects
  exact ⟨hbound, hends, vars, steps, hpass, heffects, hless hpass hsteps⟩

end GoalSystem

end SpaceTypes
