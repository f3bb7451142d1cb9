import SpaceTypes.Proofs.IllFormed
import SpaceTypes.Proofs.RegistryRuns

/-!
# Environments in use

Names are added and removed, and properties of their types are set, in any order. Some calls are
refused: a name cannot be added twice, and a property can be set only of a name that is defined and
has a type of its kind (`Environment.Refuses`).

The calls act on an environment in place (`Environment.Call.perform`), so that it has to be said
that a refused one leaves no trace. What is known about a name after any calls is told by the calls
and what they gave back (`Environment.history`): its type is the last one that was added under it,
if it was not removed since, with the properties that were set since then in the outermost registry
(`Environment.Stands`). One call at a time, this is `Environment.find?_call_iff`.
-/

namespace SpaceTypes

variable {ρ : Type}

/-! ## Values written to a type -/

namespace Ty

/-- The second type is the first one with the values written to its outermost registry, one after
another. A type without a registry on the outside takes no values. -/
inductive Written : Ty ρ → List (Property × Bool) → Ty ρ → Prop where
  | basic (name : String) : Written (basic name) [] (basic name)
  | topology (base : Ty ρ) (r : Registry TopologyProperty)
      (values : List (TopologyProperty × Bool)) :
      Written (topology base r) (values.map fun e => (.topology e.1, e.2))
        (topology base (r.setAll values))
  | quantum (base : Ty ρ) (r : Registry QuantumProperty) (values : List (QuantumProperty × Bool)) :
      Written (quantum base r) (values.map fun e => (.quantum e.1, e.2))
        (quantum base (r.setAll values))
  | dependent (base : Ty ρ) (clauses : Clauses ρ) :
      Written (dependent base clauses) [] (dependent base clauses)

variable {t t' : Ty ρ} {p : Property} {v : Bool}

theorem written_nil_iff : t.Written [] t' ↔ t' = t := by
  constructor
  · intro h
    generalize hvalues : ([] : List (Property × Bool)) = values at h
    cases h with
    | basic => rfl
    | dependent => rfl
    | topology base r values =>
      obtain rfl := List.map_eq_nil_iff.1 hvalues.symm
      rfl
    | quantum base r values =>
      obtain rfl := List.map_eq_nil_iff.1 hvalues.symm
      rfl
  · rintro rfl
    cases t' with
    | basic name => exact .basic name
    | topology base r => exact .topology base r []
    | quantum base r => exact .quantum base r []
    | dependent base clauses => exact .dependent base clauses

/-- To write values is to write some of them first and the others afterwards. -/
theorem written_append_iff {values more : List (Property × Bool)} :
    t.Written (values ++ more) t' ↔ ∃ mid, t.Written values mid ∧ mid.Written more t' := by
  constructor
  · intro h
    generalize hall : values ++ more = all at h
    cases h with
    | basic name =>
      obtain ⟨rfl, rfl⟩ := List.append_eq_nil_iff.1 hall
      exact ⟨_, .basic name, .basic name⟩
    | dependent base clauses =>
      obtain ⟨rfl, rfl⟩ := List.append_eq_nil_iff.1 hall
      exact ⟨_, .dependent base clauses, .dependent base clauses⟩
    | topology base r all =>
      obtain ⟨first, later, rfl, rfl, rfl⟩ := List.map_eq_append_iff.1 hall.symm
      rw [Registry.setAll_append]
      exact ⟨_, .topology base r first, .topology base _ later⟩
    | quantum base r all =>
      obtain ⟨first, later, rfl, rfl, rfl⟩ := List.map_eq_append_iff.1 hall.symm
      rw [Registry.setAll_append]
      exact ⟨_, .quantum base r first, .quantum base _ later⟩
  · rintro ⟨mid, hfirst, hlater⟩
    cases hfirst with
    | basic name =>
      cases hlater
      exact .basic name
    | dependent base clauses =>
      cases hlater
      exact .dependent base clauses
    | topology base r first =>
      cases hlater with
      | topology _ _ later =>
        rw [← List.map_append, ← Registry.setAll_append]
        exact .topology base r (first ++ later)
    | quantum base r first =>
      cases hlater with
      | quantum _ _ later =>
        rw [← List.map_append, ← Registry.setAll_append]
        exact .quantum base r (first ++ later)

/-- To write one value is to record it, which takes a type of its kind. -/
theorem written_singleton_iff : t.Written [(p, v)] t' ↔ t.kind = p.kind ∧ t' = t.record p v := by
  constructor
  · intro h
    generalize hvalues : [(p, v)] = values at h
    cases h with
    | basic => cases hvalues
    | dependent => cases hvalues
    | topology base r values =>
      obtain ⟨e, rfl, he⟩ := List.map_eq_singleton_iff.1 hvalues.symm
      cases he
      exact ⟨rfl, rfl⟩
    | quantum base r values =>
      obtain ⟨e, rfl, he⟩ := List.map_eq_singleton_iff.1 hvalues.symm
      cases he
      exact ⟨rfl, rfl⟩
  · rintro ⟨hkind, rfl⟩
    cases t <;> cases p <;> cases hkind
    · exact .topology _ _ [(_, v)]
    · exact .quantum _ _ [(_, v)]

end Ty

namespace Environment

/-! ## Calls -/

/-- A call on an environment. -/
inductive Call (ρ : Type) where
  /-- Defines a name. -/
  | add (name : String) (t : Ty ρ)
  /-- Removes a name. -/
  | remove (name : String)
  /-- Sets a property of the type of a name. -/
  | setProperty (name : String) (p : Property) (value : Bool)

/-- The name that a call is about. -/
def Call.name : Call ρ → String
  | add name _ => name
  | remove name => name
  | setProperty name _ _ => name

/-- What a call gives back. -/
inductive Answer (ρ : Type) where
  /-- Nothing but that the name is defined now. -/
  | added
  /-- The type that the name had, if it had one. -/
  | removed (earlier : Option (Ty ρ))
  /-- The value that the property had, if it had one. -/
  | recorded (earlier : Option Bool)

/-- Work on an environment that is changed in place. When it is given up at an error, the
environment is left as it was changed until then. -/
abbrev InPlace (ρ : Type) := ExceptT AssemblyError (StateM (Environment ρ))

/-- What a call does. -/
def Call.perform : Call ρ → InPlace ρ (Answer ρ)
  | add name t => do
    set (← (← get).add name t)
    return .added
  | remove name => do
    let earlier := (← get).find? name
    modify fun env => env.erase name
    return .removed earlier
  | setProperty name p value => do
    let (earlier, env) ← (← get).setProperty name p value
    set env
    return .recorded earlier

/-- What a call gives back, unless it is refused, and the environment that it leaves. -/
def call (env : Environment ρ) (call : Call ρ) :
    Except AssemblyError (Answer ρ) × Environment ρ :=
  call.perform.run.run env

/-- The calls that are refused, with the reason. -/
inductive Refuses (env : Environment ρ) : Call ρ → AssemblyError → Prop where
  /-- The name is defined already. -/
  | duplicate {name : String} {t old : Ty ρ} (hfind : env.find? name = some old) :
    Refuses env (.add name t) (.duplicateName name)
  /-- The name is not defined. -/
  | unknown {name : String} {p : Property} {v : Bool} (hfind : env.find? name = none) :
    Refuses env (.setProperty name p v) (.unknownName name)
  /-- The name is defined, but types of this kind do not have such properties. -/
  | mismatch {name : String} {p : Property} {v : Bool} {t : Ty ρ}
    (hfind : env.find? name = some t) (hkind : t.kind ≠ p.kind) :
    Refuses env (.setProperty name p v) (.kindMismatch (.ofProperty p) t.text t.kind)

/-- Work that stores what it has found changes nothing where it finds an error instead. -/
theorem run_store {β : Type} (env : Environment ρ) (found : Except AssemblyError β)
    (next : β → Environment ρ) (answer : β → Answer ρ) :
    (do
      let b ← found
      set (next b)
      return answer b : InPlace ρ (Answer ρ)).run.run env =
      match found with
      | .ok b => (.ok (answer b), next b)
      | .error error => (.error error, env) := by
  cases found <;> rfl

theorem call_add (env : Environment ρ) (name : String) (t : Ty ρ) :
    env.call (.add name t) =
      match env.find? name with
      | some _ => (.error (.duplicateName name), env)
      | none => (.ok .added, ⟨env.table.insert name t⟩) := by
  have hcall : env.call (.add name t) = _ :=
    run_store env (env.add name t) (fun next => next) fun _ => .added
  rw [hcall, add, contains, NameTable.contains, find?]
  cases env.table.find? name <;> rfl

theorem call_setProperty (env : Environment ρ) (name : String) (p : Property) (v : Bool) :
    env.call (.setProperty name p v) =
      match env.find? name with
      | none => (.error (.unknownName name), env)
      | some t =>
        if t.kind = p.kind then
          (.ok (.recorded (t.value? p)), ⟨env.table.insert name (t.record p v)⟩)
        else (.error (.kindMismatch (.ofProperty p) t.text t.kind), env) := by
  have hcall : env.call (.setProperty name p v) = _ :=
    run_store env (env.setProperty name p v) Prod.snd fun found => .recorded found.1
  rw [hcall, setProperty, lookup]
  cases env.find? name with
  | none => rfl
  | some t =>
    by_cases hkind : t.kind = p.kind
    · simp only [bind, Except.bind, hkind, if_true]
      rfl
    · simp only [bind, Except.bind, hkind, if_false]
      rfl

/-- A call is refused and leaves the environment alone, or it changes the entry of its name. -/
theorem call_cases (env : Environment ρ) (next : Call ρ) :
    (∃ error, env.Refuses next error ∧ env.call next = (.error error, env)) ∨
    (∃ name t, next = .add name t ∧ env.find? name = none ∧
      env.call next = (.ok .added, ⟨env.table.insert name t⟩)) ∨
    (∃ name, next = .remove name ∧
      env.call next = (.ok (.removed (env.find? name)), ⟨env.table.erase name⟩)) ∨
    ∃ name p v t, next = .setProperty name p v ∧ env.find? name = some t ∧ t.kind = p.kind ∧
      env.call next =
        (.ok (.recorded (t.value? p)), ⟨env.table.insert name (t.record p v)⟩) := by
  cases next with
  | add name t =>
    rw [call_add]
    cases hfind : env.find? name with
    | some old => exact Or.inl ⟨_, .duplicate hfind, rfl⟩
    | none => exact Or.inr (Or.inl ⟨name, t, rfl, hfind, rfl⟩)
  | remove name => exact Or.inr (Or.inr (Or.inl ⟨name, rfl, rfl⟩))
  | setProperty name p v =>
    rw [call_setProperty]
    cases hfind : env.find? name with
    | none => exact Or.inl ⟨_, .unknown hfind, rfl⟩
    | some t =>
      by_cases hkind : t.kind = p.kind
      · simp only [if_pos hkind]
        exact Or.inr (Or.inr (Or.inr ⟨name, p, v, t, rfl, hfind, hkind, rfl⟩))
      · simp only [if_neg hkind]
        exact Or.inl ⟨_, .mismatch hfind hkind, rfl⟩

/-- An error is the reason for which the call is refused, and a refused call leaves no trace. -/
theorem refuses_of_call {env : Environment ρ} {next : Call ρ} {error : AssemblyError}
    (h : (env.call next).1 = .error error) :
    env.Refuses next error ∧ (env.call next).2 = env := by
  rcases call_cases env next with ⟨_, hrefuses, hcall⟩ | ⟨_, _, -, -, hcall⟩ | ⟨_, -, hcall⟩ |
    ⟨_, _, _, _, -, -, -, hcall⟩
  · rw [hcall] at h ⊢
    cases h
    exact ⟨hrefuses, rfl⟩
  all_goals simp [hcall] at h

theorem Refuses.call_eq {env : Environment ρ} {next : Call ρ} {error : AssemblyError}
    (h : env.Refuses next error) : (env.call next).1 = .error error := by
  cases h with
  | duplicate hfind => rw [call_add, hfind]
  | unknown hfind => rw [call_setProperty, hfind]
  | mismatch hfind hkind => simp only [call_setProperty, hfind, if_neg hkind]

/-- A call leaves the other names alone. -/
theorem find?_call_of_ne (env : Environment ρ) (next : Call ρ) {name : String}
    (hne : name ≠ next.name) : (env.call next).2.find? name = env.find? name := by
  rcases call_cases env next with ⟨_, -, hcall⟩ | ⟨_, _, rfl, -, hcall⟩ | ⟨_, rfl, hcall⟩ |
    ⟨_, _, _, _, rfl, -, -, hcall⟩
  · rw [hcall]
  · rw [hcall]
    exact NameTable.find?_insert_of_ne _ hne _
  · rw [hcall]
    exact NameTable.find?_erase_of_ne _ hne
  · rw [hcall]
    exact NameTable.find?_insert_of_ne _ hne _

/-! ## What calls tell about a name -/

/-- A call with what it gave back. -/
structure Event (ρ : Type) where
  /-- The call. -/
  call : Call ρ
  /-- What it gave back, or why it was refused. -/
  result : Except AssemblyError (Answer ρ)

/-- The name is removed, or it is added, after which nothing of before matters for it. -/
inductive Event.Renews (name : String) : Event ρ → Prop where
  | removed {result : Except AssemblyError (Answer ρ)} : Renews name ⟨.remove name, result⟩
  | added {t : Ty ρ} {answer : Answer ρ} : Renews name ⟨.add name t, .ok answer⟩

/-- The value that is written to the type of the name, if one is. -/
def Event.writes (name : String) : Event ρ → List (Property × Bool)
  | ⟨.setProperty other p v, .ok _⟩ => if other = name then [(p, v)] else []
  | _ => []

/-- Of the types that were added under the name, `start` is the last one. It was not removed since,
and `since` is what came after it. -/
structure LastAdded (events : List (Event ρ)) (name : String) (start : Ty ρ)
    (since : List (Event ρ)) : Prop where
  /-- The type was added before `since`. -/
  added : ∃ before, events = before ++ ⟨.add name start, .ok .added⟩ :: since
  /-- Neither was the name removed in `since`, nor was another type added under it. -/
  last : ∀ e ∈ since, ¬e.Renews name

/-- The type is the last one that was added under the name and not removed, with the values that
were written to it since. -/
def Stands (events : List (Event ρ)) (name : String) (t : Ty ρ) : Prop :=
  ∃ start since, LastAdded events name start since ∧
    start.Written (since.flatMap (Event.writes name)) t

/-- What an event tells about the type of the name: it is added, or it comes from one that stood
before by writing to it. -/
def Event.Leaves (e : Event ρ) (name : String) (stood : Ty ρ → Prop) (t : Ty ρ) : Prop :=
  e = ⟨.add name t, .ok .added⟩ ∨
    ¬e.Renews name ∧ ∃ t', stood t' ∧ t'.Written (e.writes name) t

theorem stands_snoc_iff {events : List (Event ρ)} {e : Event ρ} {name : String} {t : Ty ρ} :
    Stands (events ++ [e]) name t ↔ e.Leaves name (Stands events name) t := by
  constructor
  · rintro ⟨start, since, ⟨⟨before, heq⟩, hlast⟩, hwritten⟩
    rcases split_of_snoc_eq heq with ⟨-, rfl, rfl⟩ | ⟨later, rfl, rfl⟩
    · obtain rfl := Ty.written_nil_iff.1 hwritten
      exact Or.inl rfl
    · rw [List.flatMap_append, List.flatMap_singleton, Ty.written_append_iff] at hwritten
      obtain ⟨t', hfirst, hlater⟩ := hwritten
      rw [List.forall_mem_append, List.forall_mem_singleton] at hlast
      exact Or.inr ⟨hlast.2, t', ⟨start, later, ⟨⟨before, rfl⟩, hlast.1⟩, hfirst⟩, hlater⟩
  · rintro (rfl | ⟨hnot, t', ⟨start, since, ⟨⟨before, rfl⟩, hlast⟩, hfirst⟩, hlater⟩)
    · exact ⟨t, [], ⟨⟨events, rfl⟩, by simp⟩, Ty.written_nil_iff.2 rfl⟩
    · refine ⟨start, since ++ [e], ⟨⟨before, by simp⟩, ?_⟩, ?_⟩
      · rw [List.forall_mem_append, List.forall_mem_singleton]
        exact ⟨hlast, hnot⟩
      · rw [List.flatMap_append, List.flatMap_singleton, Ty.written_append_iff]
        exact ⟨t', hfirst, hlater⟩

/-- An event that neither adds, removes nor writes leaves what stood. -/
theorem Event.leaves_iff_of_idle {e : Event ρ} {name : String} (hrenews : ¬e.Renews name)
    (hwrites : e.writes name = []) {stood : Ty ρ → Prop} {t : Ty ρ} :
    e.Leaves name stood t ↔ stood t := by
  unfold Leaves
  rw [hwrites]
  constructor
  · rintro (rfl | ⟨-, t', hstood, hwritten⟩)
    · exact absurd .added hrenews
    · rwa [Ty.written_nil_iff.1 hwritten]
  · intro hstood
    exact Or.inr ⟨hrenews, t, hstood, Ty.written_nil_iff.2 rfl⟩

theorem Event.Renews.name_eq {e : Event ρ} {name : String} (h : e.Renews name) :
    e.call.name = name := by
  cases h <;> rfl

theorem Event.writes_of_ne {e : Event ρ} {name : String} (h : e.call.name ≠ name) :
    e.writes name = [] := by
  unfold writes
  split
  · exact if_neg h
  · rfl

section

variable {name : String} {stood : Ty ρ → Prop} {t t' : Ty ρ} {p : Property} {v : Bool}

theorem Event.leaves_add_iff :
    Leaves ⟨.add name t', .ok .added⟩ name stood t ↔ t' = t := by
  constructor
  · rintro (heq | ⟨hnot, -⟩)
    · cases heq
      rfl
    · exact absurd .added hnot
  · rintro rfl
    exact Or.inl rfl

theorem Event.not_leaves_remove {result : Except AssemblyError (Answer ρ)} :
    ¬Leaves ⟨.remove name, result⟩ name stood t := by
  rintro (heq | ⟨hnot, -⟩)
  · cases heq
  · exact hnot .removed

theorem Event.leaves_setProperty_iff {answer : Answer ρ} :
    Leaves ⟨.setProperty name p v, .ok answer⟩ name stood t ↔
      ∃ t', stood t' ∧ t'.kind = p.kind ∧ t = t'.record p v := by
  have hwrites : writes name (⟨.setProperty name p v, .ok answer⟩ : Event ρ) = [(p, v)] :=
    if_pos rfl
  unfold Leaves
  simp only [hwrites, Ty.written_singleton_iff]
  constructor
  · rintro (heq | ⟨-, hleft⟩)
    · cases heq
    · exact hleft
  · intro hleft
    refine Or.inr ⟨?_, hleft⟩
    intro hrenews
    cases hrenews

end

/-- What a call does to the type of a name is what the call and its answer tell. -/
theorem find?_call_iff {env : Environment ρ} (next : Call ρ) {name : String} {t : Ty ρ} :
    (env.call next).2.find? name = some t ↔
      Event.Leaves ⟨next, (env.call next).1⟩ name (env.find? name = some ·) t := by
  by_cases hname : next.name = name
  · rcases call_cases env next with ⟨error, hrefuses, hcall⟩ | ⟨added, t', rfl, -, hcall⟩ |
      ⟨removed, rfl, hcall⟩ | ⟨set, p, v, t', rfl, hfind, hkind, hcall⟩
    · rw [hcall, Event.leaves_iff_of_idle]
      · intro hrenews
        cases hrefuses <;> cases hrenews
      · cases hrefuses <;> rfl
    · change added = name at hname
      subst hname
      rw [hcall, Event.leaves_add_iff, find?, NameTable.find?_insert_self, Option.some_inj]
    · change removed = name at hname
      subst hname
      rw [hcall, find?, NameTable.find?_erase_self]
      simp [Event.not_leaves_remove]
    · change set = name at hname
      subst hname
      rw [hcall, Event.leaves_setProperty_iff, find?, NameTable.find?_insert_self,
        Option.some_inj]
      simp [hfind, hkind, eq_comm]
  · rw [find?_call_of_ne env next (Ne.symm hname), Event.leaves_iff_of_idle]
    · exact fun hrenews => hname hrenews.name_eq
    · exact Event.writes_of_ne hname

/-! ## Runs -/

/-- An empty environment after calls, refused or not. -/
def after (calls : List (Call ρ)) : Environment ρ :=
  calls.foldl (fun env next => (env.call next).2) empty

/-- The calls on an environment with what they give back, one after another. -/
def answered (env : Environment ρ) : List (Call ρ) → List (Event ρ)
  | [] => []
  | next :: rest => ⟨next, (env.call next).1⟩ :: answered (env.call next).2 rest

/-- The calls on an empty environment with what they give back. -/
def history (calls : List (Call ρ)) : List (Event ρ) := answered empty calls

theorem after_snoc (calls : List (Call ρ)) (next : Call ρ) :
    after (calls ++ [next]) = ((after calls).call next).2 := by
  rw [after, List.foldl_append]
  rfl

theorem history_snoc (calls : List (Call ρ)) (next : Call ρ) :
    history (calls ++ [next]) = history calls ++ [⟨next, ((after calls).call next).1⟩] := by
  have hanswered : ∀ env : Environment ρ, answered env (calls ++ [next]) = answered env calls ++
      [⟨next, ((calls.foldl (fun env next => (env.call next).2) env).call next).1⟩] := by
    induction calls with
    | nil => exact fun env => rfl
    | cons first rest ih =>
      intro env
      rw [List.cons_append, answered, ih]
      rfl
  exact hanswered empty

/-- A name has the type that stands according to the calls and their answers. -/
theorem find?_after_iff {calls : List (Call ρ)} {name : String} {t : Ty ρ} :
    (after calls).find? name = some t ↔ Stands (history calls) name t := by
  induction calls using List.reverseRecOn generalizing t with
  | nil =>
    constructor
    · intro hfind
      cases hfind
    · rintro ⟨start, since, ⟨⟨before, heq⟩, -⟩, -⟩
      simp [history, answered] at heq
  | append_singleton calls next ih =>
    have hstood : (fun t' => (after calls).find? name = some t') = Stands (history calls) name :=
      funext fun t' => propext ih
    rw [after_snoc, history_snoc, find?_call_iff, stands_snoc_iff, hstood]

/-- What an environment is after calls, for all that can be asked or done next. -/
structure Reflects [Meaning ρ] (calls : List (Call ρ)) : Prop where
  /-- A name has the last type that was added under it, if it was not removed since, with the
  properties in its outermost registry that were set since. -/
  find?_iff : ∀ name t, (after calls).find? name = some t ↔ Stands (history calls) name t
  /-- A call is refused if its name is defined already, or not at all, or has a type of the wrong
  kind, and gives back which of these it is. -/
  refused_iff : ∀ next error, ((after calls).call next).1 = .error error ↔
    (after calls).Refuses next error
  /-- A refused call changes nothing. -/
  refused : ∀ next error, ((after calls).call next).1 = .error error →
    ((after calls).call next).2 = after calls
  /-- No call changes what is known about other names. -/
  others : ∀ next name, name ≠ next.name →
    ((after calls).call next).2.find? name = (after calls).find? name
  /-- The entries are the names with their types. -/
  mem_entries_iff : ∀ name t, (name, t) ∈ (after calls).entries ↔
    (after calls).find? name = some t
  /-- They are listed with the names strictly increasing. -/
  increasing : ((after calls).entries.map Prod.fst).Pairwise (· < ·)
  /-- The ill-formed names are those of the list that do not verify. -/
  illFormed_eq : (after calls).illFormed =
    ((after calls).entries.map Prod.fst).filter fun name => !(after calls).verify name

/-- The ill-formed names are listed as the entries are. -/
theorem illFormed_eq_filter [Meaning ρ] (env : Environment ρ) :
    env.illFormed = (env.entries.map Prod.fst).filter fun name => !env.verify name := by
  rw [illFormed, List.filter_map]
  congr 1
  refine List.filter_congr fun e he => ?_
  have hfind : env.find? e.1 = some e.2 := NameTable.mem_entries_iff.1 he
  simp [verify, hfind]

/-- An environment is a map from names to types that answers for all calls made on it, and that
refused calls leave as it is. -/
theorem after_reflects_calls [Meaning ρ] (calls : List (Call ρ)) : Reflects calls where
  find?_iff _ _ := find?_after_iff
  refused_iff _ _ := ⟨fun h => (refuses_of_call h).1, fun h => h.call_eq⟩
  refused _ _ h := (refuses_of_call h).2
  others next _ hne := find?_call_of_ne _ next hne
  mem_entries_iff _ _ := NameTable.mem_entries_iff
  increasing := (after calls).table.increasing
  illFormed_eq := illFormed_eq_filter (after calls)

/-- A name that is removed and added again has lost what was set before. Of the calls that come
after it, those on another kind of property and on the same name are refused. -/
example : (after [.add "state" (.quantum (.basic "int") .empty),
      .setProperty "state" (.quantum .normalized) true, .remove "state",
      .add "state" (.quantum (.basic "complex") .empty),
      .setProperty "state" (.quantum .entangled) true,
      .setProperty "state" (.topology .compact) true,
      .add "state" (.basic "int")] : Environment Refinement).entries =
    [("state", .quantum (.basic "complex") (.ofList [(.entangled, true)]))] := by
  decide

end Environment

end SpaceTypes
