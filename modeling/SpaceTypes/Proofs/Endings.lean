import SpaceTypes.Proofs.Completeness

/-!
# How inference ends

Inference makes the same passes whatever their number is limited to. A limit can only cut it off:
an inference that ends within a limit ends in the same way within any larger one
(`GoalSystem.iterate_add`), and since inference without a limit is never cut off, that is also how
it ends there.

If inference ends because nothing changes any more, the variables that are still free are those
that share the type of no variable that is bound at the start. Goals are applied in order, and it
may take many passes for a type to come through a chain of sharing goals, but settled variables
have what any chain can bring (`GoalSystem.mem_free_iff_of_settled`).
-/

namespace SpaceTypes

variable {ρ : Type}

namespace Variables

variable {vars : Variables ρ} {i : Nat}

theorem mem_free_iff : i ∈ vars.free ↔ i < vars.size ∧ vars.get? i = none := by
  simp [free]

/-- The free variables are numbered in order. -/
theorem pairwise_free (vars : Variables ρ) : vars.free.Pairwise (· < ·) :=
  List.pairwise_lt_range.filter _

/-- The names of the free variables are in the order of their numbers. -/
theorem map_name?_free (vars : Variables ρ) :
    vars.free.map vars.name? = vars.freeNames.map some := by
  unfold free freeNames size get? name?
  induction vars.entries with
  | nil => rfl
  | cons entry rest ih =>
    rw [List.length_cons, List.range_succ_eq_map]
    cases hbinding : entry.binding <;>
      simpa [List.filter_cons, List.filter_map, hbinding, Function.comp_def] using ih

end Variables

namespace GoalSystem

variable [Meaning ρ] [DecidableEq ρ] {h : Hierarchy} {goals : List Goal} {vars : Variables ρ}
  {pass : Nat} {path : List Step}

/-! ## Limits on the passes -/

/-- More passes make no difference to an inference that is not cut off. -/
theorem iterate_add {remaining : Nat}
    (hend : iterate h goals remaining pass vars path ≠ .error (.notConverged (pass + remaining)))
    (more : Nat) :
    iterate h goals (remaining + more) pass vars path =
      iterate h goals remaining pass vars path := by
  induction remaining generalizing pass vars path with
  | zero => exact absurd rfl hend
  | succ remaining ih =>
    rw [Nat.succ_add]
    unfold iterate at hend ⊢
    cases hpass : applyAll h pass 0 vars goals with
    | error e => rfl
    | ok result =>
      obtain ⟨mid, steps⟩ := result
      simp only [hpass, bind, Except.bind] at hend ⊢
      cases hcheck : mid.checkConsistent with
      | error e => rfl
      | ok =>
        simp only [hcheck] at hend ⊢
        cases steps with
        | nil => rfl
        | cons step later =>
          refine ih ?_
          rwa [Nat.add_right_comm, Nat.add_assoc]

/-- What inference gives when it is limited to a number of passes. -/
def solveWithin (config : Config) (system : GoalSystem ρ) (limit : Option Nat) :
    Except InferenceError (Solution ρ) :=
  system.solve { config with passLimit := limit }

theorem solveWithin_of_le {config : Config} {system : GoalSystem ρ} {n m : Nat}
    (hend : system.solveWithin config (some n) ≠ .error (.notConverged n)) (hle : n ≤ m) :
    system.solveWithin config (some m) = system.solveWithin config (some n) := by
  obtain ⟨more, rfl⟩ := Nat.exists_eq_add_of_le hle
  refine iterate_add ?_ more
  rwa [Nat.zero_add]

/-- Without a limit, inference is as with the bound that follows from the variables and goals. -/
theorem solveWithin_none (config : Config) (system : GoalSystem ρ) :
    system.solveWithin config none = system.solveWithin config (some system.passBound) := rfl

theorem solveWithin_passBound_ne (config : Config) (system : GoalSystem ρ) (passes : Nat) :
    system.solveWithin config (some system.passBound) ≠ .error (.notConverged passes) :=
  iterate_ne_notConverged system.unknowns_lt_passBound passes

/-- A limit on the passes only cuts inference off. Within a limit it ends as it does without one, or
it says that it was cut off at the limit; an inference that was not cut off ends in the same way
within any larger limit; and none is cut off that may make as many passes as the bound. -/
theorem limit_only_truncates (config : Config) (system : GoalSystem ρ) (n : Nat) :
    (system.solveWithin config (some n) = .error (.notConverged n) ∨
      system.solveWithin config (some n) = system.solveWithin config none) ∧
    (system.solveWithin config (some n) ≠ .error (.notConverged n) →
      ∀ m, n ≤ m → system.solveWithin config (some m) = system.solveWithin config (some n)) ∧
    (system.passBound ≤ n →
      system.solveWithin config (some n) = system.solveWithin config none) := by
  rw [solveWithin_none]
  have hbeyond : system.passBound ≤ n →
      system.solveWithin config (some n) = system.solveWithin config (some system.passBound) :=
    solveWithin_of_le (system.solveWithin_passBound_ne config _)
  refine ⟨?_, fun hend m hle => solveWithin_of_le hend hle, hbeyond⟩
  by_cases hend : system.solveWithin config (some n) = .error (.notConverged n)
  · exact Or.inl hend
  · rcases Nat.le_total n system.passBound with hle | hle
    · exact Or.inr (solveWithin_of_le hend hle).symm
    · exact Or.inr (hbeyond hle)

theorem shapeChain_truncates :
    shapeChain.solveWithin {} (some 3) = .error (.notConverged 3) ∧
    shapeChain.solveWithin {} (some 6) ≠ .error (.notConverged 6) ∧
    shapeChain.solveWithin {} (some 6) = shapeChain.solveWithin {} none ∧
    ∀ m, 6 ≤ m → shapeChain.solveWithin {} (some m) = shapeChain.solveWithin {} (some 6) := by
  have hcut : shapeChain.solveWithin {} (some 3) = .error (.notConverged 3) := by cbv
  have hend : shapeChain.solveWithin {} (some 6) ≠ .error (.notConverged 6) := by
    intro hfail
    have hok : (shapeChain.solveWithin {} (some 6)).toOption.isSome = true := by decide +kernel
    rw [hfail] at hok
    cases hok
  obtain ⟨hsame, hlarger, -⟩ := limit_only_truncates {} shapeChain 6
  exact ⟨hcut, hend, hsame.resolve_left hend, hlarger hend⟩

/-! ## Variables that remain free -/

/-- Inference leaves variables unresolved when they are settled and some of them are free. -/
theorem iterate_unresolved {remaining : Nat} {names : List String}
    (hsolve : iterate h goals remaining pass vars path = .error (.unresolved names)) :
    ∃ last, (∃ n, Run goals n vars last) ∧ Settled h goals last ∧ last.freeNames = names ∧
      names ≠ [] := by
  induction remaining generalizing pass vars path with
  | zero => cases hsolve
  | succ remaining ih =>
    rcases iterate_succ_error hsolve with hrejects | ⟨hsettled, hfree, heq⟩ |
      ⟨mid, steps, -, hpass, hrest⟩
    · cases hrejects.isIncomplete_eq
    · cases heq
      exact ⟨vars, ⟨0, .refl vars⟩, hsettled, rfl, hfree⟩
    · obtain ⟨m, hrun, -⟩ := applyAll_run hpass
      obtain ⟨last, ⟨n, hrun'⟩, hlast⟩ := ih hrest
      exact ⟨last, ⟨m + n, hrun.trans hrun'⟩, hlast⟩

/-- When inference has settled, the free variables are those that share the type of none that is
bound at the start. -/
theorem mem_free_iff_of_settled {system : GoalSystem ρ} {n : Nat} {last : Variables ρ}
    (hrun : Run system.goals n system.vars last) (hsettled : Settled h system.goals last)
    {i : Nat} : i ∈ last.free ↔ i < system.vars.size ∧ ¬system.Grounded i := by
  rw [Variables.mem_free_iff, hrun.growsTo.size_eq]
  refine and_congr_right fun _ => ⟨fun hfree hground => ?_, fun hground => ?_⟩
  · obtain ⟨t, ht⟩ := bound_of_settled hsettled hrun.growsTo hground
    rw [hfree] at ht
    cases ht
  · exact Option.eq_none_iff_forall_ne_some.2 fun t ht => hground (grounded_of_run hrun ht)

/-- The names that inference leaves unresolved are those of the variables that no chain of sharing
goals leads from to one that is bound at the start, in the order of their numbers and at least one.
If there are such variables, there is no solution. -/
theorem unresolved_are_unreachable (config : Config) (system : GoalSystem ρ) :
    (∀ names, system.solve config = .error (.unresolved names) →
      ∃ unreachable : List Nat, unreachable ≠ [] ∧ unreachable.Pairwise (· < ·) ∧
        (∀ i, i ∈ unreachable ↔ i < system.vars.size ∧ ¬system.Grounded i) ∧
        unreachable.map system.vars.name? = names.map some) ∧
    ∀ solution, system.solve config = .ok solution →
      ∀ i < system.vars.size, system.Grounded i := by
  refine ⟨fun names hsolve => ?_, fun solution hsolve i hi => ?_⟩
  · obtain ⟨last, ⟨n, hrun⟩, hsettled, hnames, hne⟩ := iterate_unresolved hsolve
    have hmap : last.free.map system.vars.name? = names.map some := by
      rw [← hnames, ← last.map_name?_free]
      exact List.map_congr_left fun i _ => (hrun.growsTo.name?_eq i).symm
    refine ⟨last.free, ?_, last.pairwise_free, fun i => mem_free_iff_of_settled hrun hsettled, hmap⟩
    intro hnil
    rw [hnil] at hmap
    exact hne (List.map_eq_nil_iff.1 hmap.symm)
  · obtain ⟨t, ht⟩ := solution_bound hsolve hi
    obtain ⟨n, hrun⟩ := solution_run hsolve
    exact grounded_of_run hrun ht

/-- A shape of a space, and two shapes that share the types of each other only. -/
def loneCycle : GoalSystem Refinement where
  vars := ⟨[⟨"first", none⟩, ⟨"space", some (.topology (.basic "real") .empty)⟩, ⟨"shape", none⟩,
    ⟨"second", none⟩]⟩
  goals := [.sameAs 0 3, .sameAs 2 1, .sameAs 3 0, .property 0 (.topology .compact) true]

theorem loneCycle_unreachable :
    loneCycle.solve {} = .error (.unresolved ["first", "second"]) ∧
    ∃ unreachable : List Nat, unreachable ≠ [] ∧ unreachable.Pairwise (· < ·) ∧
      (∀ i, i ∈ unreachable ↔ i < loneCycle.vars.size ∧ ¬loneCycle.Grounded i) ∧
      unreachable.map loneCycle.vars.name? = [some "first", some "second"] := by
  have hsolve : loneCycle.solve {} = .error (.unresolved ["first", "second"]) := by cbv
  exact ⟨hsolve, (unresolved_are_unreachable {} loneCycle).1 _ hsolve⟩

end GoalSystem

end SpaceTypes
