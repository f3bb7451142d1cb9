import SpaceTypes.Proofs.Moves
import SpaceTypes.Refinement

/-!
# Replaying the path of a solution

The path of a solution is a log of what inference did. `Step.replay?` makes the change of one step
again, knowing only the step and the goals: it copies the type of the source into a free variable,
or records properties that are unset. A step that would change something known, or nothing at all,
cannot be replayed.

A goal changes the variables exactly as its effects say (`Goal.replay_apply`). So does a pass, and
the whole of inference (`GoalSystem.iterate_logs`): replaying the path leads from the variables at
the start to those of the solution. What a step writes was unknown before and is known ever after
(`Variables.Learns`), so that nothing is written twice.
-/

namespace SpaceTypes

variable {ρ : Type}

/-! ## Making changes again -/

namespace Variables

/-- Binds a free variable to the type of another. -/
def copy? (vars : Variables ρ) (var source : Nat) : Option (Variables ρ) :=
  match vars.get? var, vars.get? source with
  | none, some t => if var < vars.size then some (vars.put var t) else none
  | _, _ => none

/-- Records a property that is unset in the type of a variable. -/
def record? (vars : Variables ρ) (i : Nat) (p : Property) (value : Bool) :
    Option (Variables ρ) :=
  match vars.get? i with
  | none => none
  | some t =>
    if t.kind = p.kind ∧ t.value? p = none then some (vars.put i (t.record p value)) else none

/-- Records that a variable has the properties, one after another. -/
def recordAll? (vars : Variables ρ) (i : Nat) (properties : List TopologyProperty) :
    Option (Variables ρ) :=
  properties.foldlM (fun vars p => vars.record? i (.topology p) true) vars

theorem copy?_eq_some_iff {vars vars' : Variables ρ} {var source : Nat} :
    vars.copy? var source = some vars' ↔ vars.get? var = none ∧ var < vars.size ∧
      ∃ t, vars.get? source = some t ∧ vars' = vars.put var t := by
  unfold copy?
  cases vars.get? var with
  | some t => simp
  | none =>
    cases vars.get? source with
    | none => simp
    | some s => simp [eq_comm]

theorem record?_eq_some_iff {vars vars' : Variables ρ} {i : Nat} {p : Property} {value : Bool} :
    vars.record? i p value = some vars' ↔ ∃ t, vars.get? i = some t ∧ t.kind = p.kind ∧
      t.value? p = none ∧ vars' = vars.put i (t.record p value) := by
  unfold record?
  cases vars.get? i with
  | none => simp
  | some t => simp [and_assoc, eq_comm]

end Variables

/-- Makes the change of an effect again, which a goal has caused. -/
def Effect.replay? (cause : Option Goal) (vars : Variables ρ) : Effect → Option (Variables ρ)
  | bound var =>
    match cause with
    | some (.sameAs v source) => if v = var then vars.copy? var source else none
    | _ => none
  | set var p value => vars.record? var p value
  | derived var properties =>
    if properties.isEmpty then none else vars.recordAll? var properties

/-- Makes the change of a step again. -/
def Step.replay? (goals : List Goal) (vars : Variables ρ) (step : Step) : Option (Variables ρ) :=
  step.effect.replay? goals[step.goal]? vars

/-- Makes the changes of a path again, one step after another. -/
def Variables.replay? (vars : Variables ρ) (goals : List Goal) (path : List Step) :
    Option (Variables ρ) :=
  path.foldlM (Step.replay? goals) vars

/-! ## What is written -/

/-- A place for something to be known about a variable. -/
inductive Slot where
  /-- The type of a variable. -/
  | type (var : Nat)
  /-- The value of a property in the outermost layer of that type. -/
  | value (var : Nat) (property : Property)
deriving DecidableEq, Repr

/-- Nothing is known in the place. -/
def Slot.Unknown (vars : Variables ρ) : Slot → Prop
  | type var => vars.get? var = none
  | value var p => ∀ t, vars.get? var = some t → t.value? p = none

/-- The places that an effect writes to, in order. -/
def Effect.slots : Effect → List Slot
  | bound var => [.type var]
  | set var p _ => [.value var p]
  | derived var properties => properties.map fun p => .value var (.topology p)

/-- What is unknown was unknown before. -/
theorem Slot.Unknown.of_growsTo {vars vars' : Variables ρ} (hgrow : vars.GrowsTo vars')
    {slot : Slot} (h : slot.Unknown vars') : slot.Unknown vars := by
  cases slot with
  | type var =>
    refine Option.eq_none_iff_forall_ne_some.2 fun t ht => ?_
    obtain ⟨t', ht', -⟩ := hgrow.get?_grows ht
    exact Option.ne_none_iff_exists'.2 ⟨t', ht'⟩ h
  | value var p =>
    intro t ht
    obtain ⟨t', ht', htgrow⟩ := hgrow.get?_grows ht
    refine Option.eq_none_iff_forall_ne_some.2 fun v hv => ?_
    have hknown := htgrow.value? hv
    rw [h t' ht'] at hknown
    cases hknown

namespace Variables

/-- The variables come to know what is in the places, each of which is written once. -/
structure Learns (vars : Variables ρ) (slots : List Slot) (vars' : Variables ρ) : Prop where
  /-- Nothing that was known is lost. -/
  growsTo : vars.GrowsTo vars'
  /-- No place is written twice. -/
  nodup : slots.Nodup
  /-- Nothing was known there before. -/
  unknown : ∀ slot ∈ slots, slot.Unknown vars
  /-- Something is known there now. -/
  known : ∀ slot ∈ slots, ¬slot.Unknown vars'

namespace Learns

variable {vars vars' vars'' : Variables ρ} {slots later : List Slot}

theorem refl (vars : Variables ρ) : vars.Learns [] vars :=
  ⟨.refl vars, List.nodup_nil, by simp, by simp⟩

theorem trans (h : vars.Learns slots vars') (h' : vars'.Learns later vars'') :
    vars.Learns (slots ++ later) vars'' where
  growsTo := h.growsTo.trans h'.growsTo
  nodup := List.nodup_append'.2
    ⟨h.nodup, h'.nodup, fun slot hfirst hlater => h.known slot hfirst (h'.unknown slot hlater)⟩
  unknown slot hmem := (List.mem_append.1 hmem).elim (h.unknown slot)
    fun hlater => (h'.unknown slot hlater).of_growsTo h.growsTo
  known slot hmem hunknown := (List.mem_append.1 hmem).elim
    (fun hfirst => h.known slot hfirst (hunknown.of_growsTo h'.growsTo))
    fun hlater => h'.known slot hlater hunknown

/-- What every step of a sequence writes once, the sequence writes once. -/
theorem foldlM {α : Type} {f : Variables ρ → α → Option (Variables ρ)} {slotsOf : α → List Slot}
    (hstep : ∀ vars a vars', f vars a = some vars' → vars.Learns (slotsOf a) vars')
    {steps : List α} (h : steps.foldlM f vars = some vars') :
    vars.Learns (steps.flatMap slotsOf) vars' := by
  induction steps generalizing vars with
  | nil =>
    cases h
    exact .refl _
  | cons a rest ih =>
    rw [List.foldlM_cons] at h
    obtain ⟨mid, hfirst, hrest⟩ := Option.bind_eq_some_iff.1 h
    exact (hstep _ _ _ hfirst).trans (ih hrest)

end Learns

variable {vars vars' : Variables ρ}

theorem learns_copy {var source : Nat} (h : vars.copy? var source = some vars') :
    vars.Learns [.type var] vars' := by
  obtain ⟨hfree, hlt, t, -, rfl⟩ := copy?_eq_some_iff.1 h
  refine ⟨growsTo_put_free hfree t, List.nodup_singleton _, ?_, ?_⟩
  · intro slot hslot
    cases List.mem_singleton.1 hslot
    exact hfree
  · intro slot hslot hunknown
    cases List.mem_singleton.1 hslot
    rw [Slot.Unknown, get?_put_self hlt] at hunknown
    cases hunknown

theorem learns_record {i : Nat} {p : Property} {value : Bool}
    (h : vars.record? i p value = some vars') : vars.Learns [.value i p] vars' := by
  obtain ⟨t, ht, hkind, hunset, rfl⟩ := record?_eq_some_iff.1 h
  refine ⟨growsTo_put ht (Ty.growsTo_record hkind hunset value), List.nodup_singleton _, ?_, ?_⟩
  · intro slot hslot
    cases List.mem_singleton.1 hslot
    intro s hs
    rw [ht] at hs
    cases hs
    exact hunset
  · intro slot hslot hunknown
    cases List.mem_singleton.1 hslot
    have hnone := hunknown _ (get?_put_self (lt_size_of_get? ht) _)
    rw [Ty.value?_record_self hkind] at hnone
    cases hnone

end Variables

theorem Effect.learns_replay {cause : Option Goal} {vars vars' : Variables ρ} {effect : Effect}
    (h : effect.replay? cause vars = some vars') : vars.Learns effect.slots vars' := by
  cases effect with
  | bound var =>
    simp only [replay?] at h
    split at h
    · split at h
      · exact Variables.learns_copy h
      · cases h
    · cases h
  | set var p value => exact Variables.learns_record h
  | derived var properties =>
    simp only [replay?] at h
    split at h
    · cases h
    · rw [slots, List.map_eq_flatMap]
      refine Variables.Learns.foldlM (fun vars p vars' hfirst => ?_) h
      exact Variables.learns_record hfirst

theorem Effect.slots_ne_nil {cause : Option Goal} {vars vars' : Variables ρ} {effect : Effect}
    (h : effect.replay? cause vars = some vars') : effect.slots ≠ [] := by
  cases effect with
  | bound var => exact List.cons_ne_nil _ _
  | set var p value => exact List.cons_ne_nil _ _
  | derived var properties =>
    intro hnil
    cases List.map_eq_nil_iff.1 hnil
    cases h

/-- Replaying a path writes each place once. -/
theorem Variables.learns_replay {goals : List Goal} {vars vars' : Variables ρ} {path : List Step}
    (h : vars.replay? goals path = some vars') :
    vars.Learns (path.flatMap fun step => step.effect.slots) vars' :=
  Variables.Learns.foldlM (fun _ _ _ hstep => Effect.learns_replay hstep) h

/-! ## Effects are what goals do -/

namespace Variables

variable {vars vars' : Variables ρ} {effects : List Effect} {cause : Option Goal} {i : Nat}

theorem replay_require {p : Property} {value : Bool}
    (h : vars.require i p value = .ok (vars', effects)) :
    effects.foldlM (Effect.replay? cause) vars = some vars' := by
  rcases require_cases h with ⟨rfl, rfl, -⟩ | ⟨t, ht, hkind, hunset, rfl, rfl⟩
  · rfl
  · rw [List.foldlM_cons]
    exact Option.bind_eq_some_iff.2
      ⟨_, record?_eq_some_iff.2 ⟨t, ht, hkind, hunset, rfl⟩, rfl⟩

theorem replay_append {mid : Variables ρ} {later : List Effect}
    (h : effects.foldlM (Effect.replay? cause) vars = some mid)
    (h' : later.foldlM (Effect.replay? cause) mid = some vars') :
    (effects ++ later).foldlM (Effect.replay? cause) vars = some vars' := by
  rw [List.foldlM_append]
  exact Option.bind_eq_some_iff.2 ⟨mid, h, h'⟩

theorem replay_requireAll {demands : List (Property × Bool)}
    (h : vars.requireAll i demands = .ok (vars', effects)) :
    effects.foldlM (Effect.replay? cause) vars = some vars' := by
  induction demands generalizing vars effects with
  | nil =>
    cases h
    rfl
  | cons e rest ih =>
    obtain ⟨⟨mid, first⟩, hfirst, htail⟩ := bind_eq_ok_iff.1 h
    obtain ⟨⟨last, others⟩, hrest, hend⟩ := bind_eq_ok_iff.1 htail
    cases hend
    exact replay_append (replay_require hfirst) (ih hrest)

theorem replay_fillAll {properties : List TopologyProperty}
    (h : vars.fillAll i properties = .ok (vars', effects)) :
    effects.foldlM (Effect.replay? cause) vars = some vars' := by
  induction properties generalizing vars effects with
  | nil =>
    cases h
    rfl
  | cons p rest ih =>
    obtain ⟨⟨mid, first⟩, hfirst, htail⟩ := bind_eq_ok_iff.1 h
    obtain ⟨⟨last, others⟩, hrest, hend⟩ := bind_eq_ok_iff.1 htail
    cases hend
    have hreplay : first.foldlM (Effect.replay? cause) vars = some mid := by
      unfold fill at hfirst
      split at hfirst
      · cases hfirst
        rfl
      · exact replay_require hfirst
    exact replay_append hreplay (ih hrest)

/-- What the rules derive, recorded one after another, gives the closed registry. -/
theorem recordAll_deriveUpTo {bound : Nat} {base : Ty ρ} {r closed : Registry TopologyProperty}
    {derived : List TopologyProperty} (hbound : vars.get? i = some (.topology base r))
    (h : r.deriveUpTo bound = (closed, derived)) :
    vars.recordAll? i derived = some (vars.put i (.topology base closed)) := by
  induction derived generalizing vars r bound with
  | nil =>
    rcases Registry.deriveUpTo_cases h with ⟨rfl, -⟩ | ⟨_, _, _, -, -, -, hnil⟩
    · rw [put_self hbound]
      rfl
    · cases hnil
  | cons p derived ih =>
    rcases Registry.deriveUpTo_cases h with ⟨-, hnil⟩ | ⟨bound, rule, _, rfl, hnext, hlater, hcons⟩
    · cases hnil
    · cases hcons
      obtain ⟨-, -, hunset⟩ := Registry.nextRule?_eq_some hnext
      have hfirst : vars.record? i (.topology rule.consequent) true =
          some (vars.put i (.topology base (r.set rule.consequent true))) :=
        record?_eq_some_iff.2 ⟨_, hbound, rfl, hunset, rfl⟩
      have hrest := ih (get?_put_self (lt_size_of_get? hbound) _) hlater
      rw [put_put] at hrest
      rw [recordAll?, List.foldlM_cons, hfirst]
      exact hrest

theorem replay_applyDerive (h : vars.applyDerive i = .ok (vars', effects)) :
    effects.foldlM (Effect.replay? cause) vars = some vars' := by
  rcases applyDerive_cases h with ⟨rfl, rfl⟩ |
    ⟨base, registry, closed, derived, hbound, hsat, hderived, rfl, rfl⟩
  · rfl
  · have hne : ¬derived.isEmpty = true := fun hempty => hderived (List.isEmpty_iff.1 hempty)
    rw [List.foldlM_cons, Effect.replay?, if_neg hne, recordAll_deriveUpTo hbound hsat]
    rfl

theorem replay_applyPreserve {source target : Nat} {mapping : MappingKind}
    (h : vars.applyPreserve source target mapping = .ok (vars', effects)) :
    effects.foldlM (Effect.replay? cause) vars = some vars' := by
  unfold applyPreserve at h
  split at h
  case h_1 =>
    obtain ⟨_, -, htail⟩ := bind_eq_ok_iff.1 h
    obtain ⟨_, -, hfill⟩ := bind_eq_ok_iff.1 htail
    exact replay_fillAll hfill
  case h_2 =>
    cases h
    rfl

variable [Meaning ρ] [DecidableEq ρ] {h : Hierarchy}

theorem replay_applySameAs {source : Nat}
    (happly : vars.applySameAs h i source = .ok (vars', effects)) :
    effects.foldlM (Effect.replay? (some (.sameAs i source))) vars = some vars' := by
  rcases applySameAs_cases happly with ⟨rfl, rfl⟩ |
    ⟨s, hsource, ⟨hfree, hlt, rfl, rfl⟩ | hrequire⟩
  · rfl
  · have hcopy := copy?_eq_some_iff.2 ⟨hfree, hlt, s, hsource, rfl⟩
    rw [List.foldlM_cons, Effect.replay?, if_pos rfl, hcopy]
    rfl
  · exact replay_requireAll hrequire

end Variables

section

variable [Meaning ρ] [DecidableEq ρ] {h : Hierarchy} {vars vars' : Variables ρ}

/-- A goal changes the variables exactly as its effects say. -/
theorem Goal.replay_apply {goal : Goal} {effects : List Effect}
    (happly : goal.apply h vars = .ok (vars', effects)) :
    effects.foldlM (Effect.replay? (some goal)) vars = some vars' := by
  cases goal with
  | sameAs var source => exact Variables.replay_applySameAs happly
  | subtype sub sup =>
    obtain ⟨rfl, rfl⟩ := Variables.applySubtype_eq happly
    rfl
  | property var p value =>
    rcases Variables.applyProperty_cases happly with ⟨rfl, rfl, -⟩ | hrequire
    · rfl
    · exact Variables.replay_require hrequire
  | preserve source target mapping => exact Variables.replay_applyPreserve happly
  | derive var => exact Variables.replay_applyDerive happly

/-- The first step does not come after the second in the order of passes and goals. -/
def Step.Precedes (first second : Step) : Prop :=
  first.pass < second.pass ∨ first.pass = second.pass ∧ first.goal ≤ second.goal

namespace GoalSystem

variable {goals : List Goal} {pass : Nat} {path : List Step}

/-- The steps are what passes over the goals, from the given pass on, have done to the variables. -/
structure Logs (goals : List Goal) (pass : Nat) (vars : Variables ρ) (path : List Step)
    (vars' : Variables ρ) : Prop where
  /-- The changes lead from the first variables to the second. -/
  replay_eq : vars.replay? goals path = some vars'
  /-- The steps stand in the order of passes and goals. -/
  ordered : path.Pairwise Step.Precedes
  /-- Every pass before the last one has changed something. -/
  passes : ∃ last, ∀ n, (∃ step ∈ path, step.pass = n) ↔ pass ≤ n ∧ n < last

omit [Meaning ρ] [DecidableEq ρ] in
theorem Logs.refl (goals : List Goal) (pass : Nat) (vars : Variables ρ) :
    Logs goals pass vars [] vars :=
  ⟨rfl, List.Pairwise.nil, 0, by simp⟩

/-- A pass changes the variables exactly as its steps say, goal after goal. -/
theorem replay_applyAll {index : Nat} {later : List Goal} {steps : List Step}
    (hlater : goals.drop index = later)
    (happly : applyAll h pass index vars later = .ok (vars', steps)) :
    vars.replay? goals steps = some vars' ∧ steps.Pairwise Step.Precedes ∧
      ∀ step ∈ steps, step.pass = pass ∧ index ≤ step.goal := by
  induction later generalizing vars index steps with
  | nil =>
    cases happly
    exact ⟨rfl, List.Pairwise.nil, by simp⟩
  | cons goal rest ih =>
    obtain ⟨⟨mid, effects⟩, hgoal, htail⟩ := bind_eq_ok_iff.1 happly
    obtain ⟨⟨last, others⟩, hrest, hend⟩ := bind_eq_ok_iff.1 htail
    cases hend
    have hat : goals[index]? = some goal := by
      rw [← List.head?_drop, hlater]
      rfl
    have hdrop : goals.drop (index + 1) = rest := by
      rw [← List.tail_drop, hlater]
      rfl
    obtain ⟨hreplay, hordered, hall⟩ := ih hdrop hrest
    refine ⟨?_, ?_, ?_⟩
    · have hfirst := Goal.replay_apply hgoal
      rw [← hat] at hfirst
      rw [Variables.replay?, List.foldlM_append, List.foldlM_map]
      exact Option.bind_eq_some_iff.2 ⟨mid, hfirst, hreplay⟩
    · refine List.pairwise_append.2 ⟨?_, hordered, ?_⟩
      -- the effects of one goal share its place in the order
      · exact List.pairwise_map.2 (List.pairwise_of_forall fun _ _ => Or.inr ⟨rfl, Nat.le_refl _⟩)
      · intro first hfirst second hsecond
        obtain ⟨effect, -, rfl⟩ := List.mem_map.1 hfirst
        obtain ⟨hpass, hindex⟩ := hall second hsecond
        exact Or.inr ⟨hpass.symm, Nat.le_of_succ_le hindex⟩
    · intro step hmem
      rcases List.mem_append.1 hmem with hmem | hmem
      · obtain ⟨effect, -, rfl⟩ := List.mem_map.1 hmem
        exact ⟨rfl, Nat.le_refl _⟩
      · obtain ⟨hpass, hindex⟩ := hall step hmem
        exact ⟨hpass, Nat.le_of_succ_le hindex⟩

/-- A pass that has changed something goes before the passes after it. -/
theorem Logs.cons_pass {mid : Variables ρ} {steps later : List Step} (hsteps : steps ≠ [])
    (happly : applyAll h pass 0 vars goals = .ok (mid, steps))
    (hlater : Logs goals (pass + 1) mid later vars') :
    Logs goals pass vars (steps ++ later) vars' := by
  obtain ⟨hreplay, hordered, hall⟩ := replay_applyAll List.drop_zero happly
  obtain ⟨last, hlast⟩ := hlater.passes
  have hafter : ∀ step ∈ later, pass < step.pass := fun step hmem =>
    ((hlast step.pass).1 ⟨step, hmem, rfl⟩).1
  refine ⟨?_, ?_, max last (pass + 1), fun n => ⟨?_, ?_⟩⟩
  · rw [Variables.replay?, List.foldlM_append]
    exact Option.bind_eq_some_iff.2 ⟨mid, hreplay, hlater.replay_eq⟩
  · refine List.pairwise_append.2 ⟨hordered, hlater.ordered, fun first hfirst second hsecond => ?_⟩
    have hpass := (hall first hfirst).1
    have hless := hafter second hsecond
    exact Or.inl (by omega)
  · rintro ⟨step, hmem, rfl⟩
    rcases List.mem_append.1 hmem with hmem | hmem
    · have hpass := (hall step hmem).1
      omega
    · have hrange := (hlast step.pass).1 ⟨step, hmem, rfl⟩
      omega
  · rintro ⟨hfrom, hto⟩
    by_cases hn : n = pass
    · obtain ⟨step, hmem⟩ := List.exists_mem_of_ne_nil _ hsteps
      exact ⟨step, List.mem_append_left _ hmem, by rw [(hall step hmem).1, hn]⟩
    · obtain ⟨step, hmem, hpass⟩ := (hlast n).2 (by omega)
      exact ⟨step, List.mem_append_right _ hmem, hpass⟩

/-- Inference adds to the path what the remaining passes do. -/
theorem iterate_logs {remaining : Nat} {solution : Solution ρ}
    (hsolve : iterate h goals remaining pass vars path = .ok solution) :
    ∃ later, solution.path = path ++ later ∧ Logs goals pass vars later solution.vars := by
  induction remaining generalizing pass vars path with
  | zero => cases hsolve
  | succ remaining ih =>
    rcases iterate_cases hsolve with ⟨rfl, -⟩ | ⟨_, mid, steps, hsucc, hsteps, hpass, hrest⟩
    · exact ⟨[], (List.append_nil _).symm, .refl goals pass vars⟩
    · cases hsucc
      obtain ⟨later, hpath, hlogs⟩ := ih hrest
      refine ⟨steps ++ later, ?_, .cons_pass hsteps hpass hlogs⟩
      rw [hpath, List.append_assoc]

variable {config : Config} {system : GoalSystem ρ} {solution : Solution ρ}

/-- The path of a solution is a complete and exact log. Replaying it from the variables at the start
gives those of the solution. Each step writes to places where nothing was known at its point, so
that no place is written twice. The steps stand in the order of passes and goals, and the passes
that occur are the first ones, without a gap. -/
theorem solution_path_replays (hsolve : system.solve config = .ok solution) :
    system.vars.replay? system.goals solution.path = some solution.vars ∧
    (∀ before step after, solution.path = before ++ step :: after →
      ∃ vars, system.vars.replay? system.goals before = some vars ∧
        step.effect.slots ≠ [] ∧ ∀ slot ∈ step.effect.slots, slot.Unknown vars) ∧
    (solution.path.flatMap fun step => step.effect.slots).Nodup ∧
    solution.path.Pairwise Step.Precedes ∧
    ∃ passes, ∀ n, (∃ step ∈ solution.path, step.pass = n) ↔ n < passes := by
  obtain ⟨path, hpath, hlogs⟩ := iterate_logs hsolve
  rw [hpath, List.nil_append]
  refine ⟨hlogs.replay_eq, ?_, (Variables.learns_replay hlogs.replay_eq).nodup, hlogs.ordered, ?_⟩
  · intro before step after hsplit
    have hreplay := hlogs.replay_eq
    rw [hsplit, Variables.replay?, List.foldlM_append] at hreplay
    obtain ⟨vars, hbefore, hrest⟩ := Option.bind_eq_some_iff.1 hreplay
    rw [List.foldlM_cons] at hrest
    obtain ⟨mid, hstep, -⟩ := Option.bind_eq_some_iff.1 hrest
    exact ⟨vars, hbefore, Effect.slots_ne_nil hstep, (Effect.learns_replay hstep).unknown⟩
  · obtain ⟨last, hlast⟩ := hlogs.passes
    exact ⟨last, fun n => by simpa using hlast n⟩

/-- A shape of a metrizable space that maps onto another space. The shape is bound before the space
is found to be Hausdorff and normal, and takes this over in the next pass. -/
def metricShape : GoalSystem Refinement where
  vars := ⟨[⟨"space", some (.topology (.basic "real") (.ofList [(.metrizable, true)]))⟩,
    ⟨"shape", none⟩, ⟨"image", some (.topology (.basic "real") (.ofList [(.compact, false)]))⟩]⟩
  goals := [.sameAs 1 0, .derive 0, .preserve 1 2 .homeomorphism,
    .property 2 (.topology .connected) true]

theorem metricShape_path_replays :
    ∃ solution, metricShape.solve {} = .ok solution ∧ solution.path.length = 18 ∧
      metricShape.vars.replay? metricShape.goals solution.path = some solution.vars := by
  obtain ⟨solution, hsolve, hlength⟩ :
      ∃ solution, metricShape.solve {} = .ok solution ∧ solution.path.length = 18 :=
    ⟨_, by cbv, by decide⟩
  exact ⟨solution, hsolve, hlength, (solution_path_replays hsolve).1⟩

end GoalSystem

end

end SpaceTypes
