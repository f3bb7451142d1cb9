import SpaceTypes.Proofs.Saturation

/-!
# Registries in use

A registry changes only by having values written to it, one after another: a property is set, or it
is derived when the registry is saturated. So whatever a registry says after any calls can be read
off the list of what was written (`Registry.Reflects`). The value of a property is the last one that
was written to it, and its place among the entries is that of the first.

A new property is put at the end and an old one is overwritten where it stands, so that there is
never a second entry for it. Registries that agree on all values have the same entries, and only
their order can tell them apart (`Registry.perm_of_get?_eq`, `Registry.eq_iff_keys_eq`).
-/

namespace SpaceTypes

/-- An element of a list is the last one, or there is a last one after it. -/
theorem split_of_snoc_eq {α : Type} {l before after : List α} {a b : α}
    (h : l ++ [a] = before ++ b :: after) :
    (l = before ∧ a = b ∧ after = []) ∨
      ∃ later, after = later ++ [a] ∧ l = before ++ b :: later := by
  rcases List.eq_nil_or_concat after with rfl | ⟨later, c, rfl⟩
  · obtain ⟨hbefore, hlast⟩ := List.append_inj' h rfl
    exact Or.inl ⟨hbefore, List.singleton_inj.1 hlast, rfl⟩
  · rw [List.concat_eq_append, ← List.cons_append, ← List.append_assoc] at h
    obtain ⟨hbefore, hlast⟩ := List.append_inj' h rfl
    obtain rfl := List.singleton_inj.1 hlast
    exact Or.inr ⟨later, List.concat_eq_append, hbefore⟩

namespace Registry

variable {α : Type} [DecidableEq α]

/-! ## Entries and their order -/

section

variable {r r' : Registry α}

/-- The entries are the properties with their values. -/
theorem entries_eq_map_keys (r : Registry α) :
    r.entries = r.keys.map fun p => (p, r.holds p) := by
  rw [keys, List.map_map]
  refine (List.map_id r.entries).symm.trans (List.map_congr_left fun e he => ?_)
  have hvalue : r.get? e.1 = some e.2 := mem_entries_iff.1 he
  simp [holds, hvalue]

/-- Registries that agree on all values have the same entries. -/
theorem perm_of_get?_eq (hsame : ∀ p, r.get? p = r'.get? p) : r.entries.Perm r'.entries := by
  rw [List.perm_ext_iff_of_nodup r.nodup.of_map r'.nodup.of_map]
  intro e
  rw [← Prod.mk.eta (p := e), mem_entries_iff, mem_entries_iff, hsame e.1]

/-- Registries that agree on all values are equal if their properties stand in the same order. -/
theorem eq_iff_keys_eq (hsame : ∀ p, r.get? p = r'.get? p) : r = r' ↔ r.keys = r'.keys := by
  refine ⟨congrArg keys, fun hkeys => Registry.ext ?_⟩
  have hholds : r.holds = r'.holds := by
    funext p
    rw [holds, holds, hsame p]
  rw [entries_eq_map_keys, entries_eq_map_keys, hkeys, hholds]

omit [DecidableEq α] in
/-- There are no more entries than properties. -/
theorem length_entries_le (r : Registry α) {all : List α} (hall : ∀ p, p ∈ all) :
    r.entries.length ≤ all.length := by
  rw [← List.length_map (f := Prod.fst)]
  exact (List.subperm_of_subset r.nodup fun p _ => hall p).length_le

end

/-! ## Values written one after another -/

/-- Records the values one after another. -/
def setAll (r : Registry α) (values : List (α × Bool)) : Registry α :=
  values.foldl (fun r e => r.set e.1 e.2) r

theorem setAll_append (r : Registry α) (values more : List (α × Bool)) :
    r.setAll (values ++ more) = (r.setAll values).setAll more :=
  List.foldl_append

theorem ofList_snoc (values : List (α × Bool)) (e : α × Bool) :
    ofList (values ++ [e]) = (ofList values).set e.1 e.2 :=
  setAll_append empty values [e]

/-- The value is the last one that the list has for the property. -/
def LastValue (values : List (α × Bool)) (p : α) (v : Bool) : Prop :=
  ∃ before after, values = before ++ (p, v) :: after ∧ p ∉ after.map Prod.fst

theorem lastValue_snoc_iff {values : List (α × Bool)} {e : α × Bool} {p : α} {v : Bool} :
    LastValue (values ++ [e]) p v ↔ if p = e.1 then v = e.2 else LastValue values p v := by
  constructor
  · rintro ⟨before, after, heq, hnot⟩
    rcases split_of_snoc_eq heq with ⟨-, rfl, -⟩ | ⟨later, rfl, rfl⟩
    · simp
    · simp only [List.map_append, List.mem_append, not_or, List.map_singleton,
        List.mem_singleton] at hnot
      rw [if_neg hnot.2]
      exact ⟨before, later, rfl, hnot.1⟩
  · intro h
    by_cases hp : p = e.1
    · rw [if_pos hp] at h
      exact ⟨values, [], by rw [hp, h], by simp⟩
    · rw [if_neg hp] at h
      obtain ⟨before, after, rfl, hnot⟩ := h
      exact ⟨before, after ++ [e], by simp, by simpa [hp] using hnot⟩

/-- A property has the last of the values that were written to it. -/
theorem get?_ofList_eq_some_iff {values : List (α × Bool)} {p : α} {v : Bool} :
    (ofList values).get? p = some v ↔ LastValue values p v := by
  induction values using List.reverseRecOn with
  | nil => simp [ofList, LastValue, get?, empty]
  | append_singleton values e ih =>
    rw [ofList_snoc, get?_set, lastValue_snoc_iff, ← ih]
    by_cases hp : p = e.1
    · simp [hp, eq_comm]
    · simp [hp]

theorem mem_keys_ofList {values : List (α × Bool)} {p : α} :
    p ∈ (ofList values).keys ↔ p ∈ values.map Prod.fst := by
  induction values using List.reverseRecOn generalizing p with
  | nil => simp [ofList, keys, empty]
  | append_singleton values e ih =>
    rw [ofList_snoc, keys_set, List.map_append, List.mem_append, List.map_singleton,
      List.mem_singleton]
    split
    case isTrue hold =>
      -- a property that is written again has been written before
      rw [ih, or_iff_left_of_imp]
      rintro rfl
      exact ih.1 hold
    case isFalse => rw [List.mem_append, ih, List.mem_singleton]

/-- The properties stand in the order in which they were first written to. -/
theorem pairwise_keys_ofList (values : List (α × Bool)) :
    (ofList values).keys.Pairwise fun p q =>
      (values.map Prod.fst).idxOf p < (values.map Prod.fst).idxOf q := by
  induction values using List.reverseRecOn with
  | nil => exact List.Pairwise.nil
  | append_singleton values e ih =>
    -- what has been written before has its first place before all that is written now
    have hplace : ∀ {p}, p ∈ (ofList values).keys →
        ((values ++ [e]).map Prod.fst).idxOf p = (values.map Prod.fst).idxOf p := by
      intro p hp
      rw [List.map_append, List.idxOf_append_of_mem (mem_keys_ofList.1 hp)]
    have hkept : (ofList values).keys.Pairwise fun p q =>
        ((values ++ [e]).map Prod.fst).idxOf p < ((values ++ [e]).map Prod.fst).idxOf q := by
      refine ih.imp_of_mem fun hp hq hlt => ?_
      rwa [hplace hp, hplace hq]
    rw [ofList_snoc, keys_set]
    split
    case isTrue => exact hkept
    case isFalse hnew =>
      refine List.pairwise_append.2 ⟨hkept, List.pairwise_singleton _ _, fun p hp q hq => ?_⟩
      rw [List.mem_singleton] at hq
      subst hq
      rw [hplace hp, List.map_append,
        List.idxOf_append_of_notMem fun hmem => hnew (mem_keys_ofList.2 hmem)]
      exact Nat.lt_add_right _ (List.idxOf_lt_length_of_mem (mem_keys_ofList.1 hp))

/-- What a registry says after values were written to it, one after another. -/
structure Reflects (r : Registry α) (written : List (α × Bool)) : Prop where
  /-- No property has two entries. -/
  nodup : r.keys.Nodup
  /-- A property has the last value that was written to it. -/
  get?_eq_some_iff : ∀ p v, r.get? p = some v ↔ LastValue written p v
  /-- It has none if it was never written to. -/
  get?_eq_none_iff : ∀ p, r.get? p = none ↔ p ∉ written.map Prod.fst
  /-- To set a property gives back the value that it had. -/
  exchange_fst : ∀ p v, (r.exchange p v).1 = r.get? p
  /-- It has the new value afterwards, and no other property changes. -/
  get?_exchange : ∀ p v q, (r.exchange p v).2.get? q = if q = p then some v else r.get? q
  /-- The entries are the properties that have a value, with it. -/
  mem_entries_iff : ∀ p v, (p, v) ∈ r.entries ↔ r.get? p = some v
  /-- The properties stand in the order in which they were first written to. -/
  in_order : r.keys.Pairwise fun p q =>
    (written.map Prod.fst).idxOf p < (written.map Prod.fst).idxOf q

theorem reflects_ofList (values : List (α × Bool)) : (ofList values).Reflects values where
  nodup := (ofList values).nodup
  get?_eq_some_iff _ _ := get?_ofList_eq_some_iff
  get?_eq_none_iff p := by rw [get?_eq_none_iff, mem_keys_ofList]
  exchange_fst p v := by rw [exchange_eq]
  get?_exchange p v q := by rw [exchange_eq, get?_set]
  mem_entries_iff _ _ := Registry.mem_entries_iff
  in_order := pairwise_keys_ofList values

/-! ## Calls -/

/-- A call that sets a property. -/
inductive Call (α : Type) where
  /-- Sets the property and gives back its earlier value. -/
  | exchange (p : α) (value : Bool)
  /-- Sets the property. -/
  | set (p : α) (value : Bool)

namespace Call

/-- The registry that the call leaves. -/
def perform (r : Registry α) : Call α → Registry α
  | exchange p value => (r.exchange p value).2
  | set p value => r.set p value

/-- What the call writes. -/
def write : Call α → α × Bool
  | exchange p value => (p, value)
  | set p value => (p, value)

/-- The registry after calls. -/
def run (calls : List (Call α)) : Registry α := calls.foldl perform empty

/-- What the calls write, in order. -/
def written (calls : List (Call α)) : List (α × Bool) := calls.map write

theorem perform_eq (r : Registry α) (call : Call α) :
    call.perform r = r.set call.write.1 call.write.2 := by
  cases call with
  | exchange p value => exact congrArg Prod.snd (exchange_eq r p value)
  | set p value => rfl

theorem run_eq_ofList (calls : List (Call α)) : run calls = ofList (written calls) := by
  rw [run, ofList, written, List.foldl_map]
  congr 1
  funext r call
  exact perform_eq r call

end Call

/-- A call on a registry of topological properties. -/
inductive TopologyCall where
  /-- Sets a property. -/
  | write (call : Call TopologyProperty)
  /-- Derives by the separation rules, and gives back what it has derived. -/
  | saturate

/-- Deriving is writing, in the order of the derivations. -/
theorem setAll_of_deriveUpTo {r closed : Registry TopologyProperty} {bound : Nat}
    {derived : List TopologyProperty} (h : r.deriveUpTo bound = (closed, derived)) :
    closed = r.setAll (derived.map fun p => (p, true)) := by
  refine deriveUpTo_induct (P := fun r derived =>
    closed = r.setAll (derived.map fun p => (p, true))) rfl ?_ h
  intro r rule later _ ih
  rw [ih]
  rfl

namespace TopologyCall

/-- The registry that the call leaves. -/
def perform (r : Registry TopologyProperty) : TopologyCall → Registry TopologyProperty
  | write call => call.perform r
  | saturate => r.saturate.1

/-- What the call writes, in order: what is derived comes to hold. -/
def writes (r : Registry TopologyProperty) : TopologyCall → List (TopologyProperty × Bool)
  | write call => [call.write]
  | saturate => r.saturate.2.map fun p => (p, true)

/-- What the calls write to a registry, in order. -/
def writtenTo (r : Registry TopologyProperty) :
    List TopologyCall → List (TopologyProperty × Bool)
  | [] => []
  | call :: rest => call.writes r ++ writtenTo (call.perform r) rest

/-- The registry after calls. -/
def run (calls : List TopologyCall) : Registry TopologyProperty := calls.foldl perform empty

/-- What the calls write, in order. -/
def written (calls : List TopologyCall) : List (TopologyProperty × Bool) := writtenTo empty calls

theorem perform_eq (r : Registry TopologyProperty) (call : TopologyCall) :
    call.perform r = r.setAll (call.writes r) := by
  cases call with
  | write call => exact call.perform_eq r
  | saturate => exact setAll_of_deriveUpTo rfl

theorem foldl_perform_eq (r : Registry TopologyProperty) (calls : List TopologyCall) :
    calls.foldl perform r = r.setAll (writtenTo r calls) := by
  induction calls generalizing r with
  | nil => rfl
  | cons call rest ih =>
    rw [List.foldl_cons, ih, writtenTo, setAll_append, ← perform_eq]

theorem run_eq_ofList (calls : List TopologyCall) : run calls = ofList (written calls) :=
  foldl_perform_eq empty calls

end TopologyCall

/-! ## Runs -/

/-- The registries that calls make of an empty one reflect what the calls write, and can be told
apart by their values and by the order of first writing. -/
structure Faithful {κ : Type} (run : List κ → Registry α) (written : List κ → List (α × Bool))
    (all : List α) : Prop where
  /-- Each registry reflects what was written to it. -/
  reflects : ∀ calls, (run calls).Reflects (written calls)
  /-- It has no more entries than there are properties. -/
  length_le : ∀ calls, (run calls).entries.length ≤ all.length
  /-- Registries with the same values have the same entries. -/
  perm : ∀ calls calls', (∀ p, (run calls).get? p = (run calls').get? p) →
    (run calls).entries.Perm (run calls').entries
  /-- They are equal exactly if their properties stand in the same order. -/
  beq_iff : ∀ calls calls', (∀ p, (run calls).get? p = (run calls').get? p) →
    ((run calls == run calls') = true ↔ (run calls).keys = (run calls').keys)

theorem faithful_of_eq_ofList {κ : Type} {run : List κ → Registry α}
    {written : List κ → List (α × Bool)} {all : List α}
    (hrun : ∀ calls, run calls = ofList (written calls)) (hall : ∀ p, p ∈ all) :
    Faithful run written all := by
  refine ⟨fun calls => ?_, fun calls => length_entries_le (run calls) hall,
    fun _ _ hsame => perm_of_get?_eq hsame, fun _ _ hsame => ?_⟩
  · rw [hrun]
    exact reflects_ofList _
  · rw [beq_iff_eq]
    exact eq_iff_keys_eq hsame

/-- However long it is in use, a registry of either family reflects what was written to it, whether
by setting properties or by saturation. -/
theorem registries_reflect_writes :
    Faithful TopologyCall.run TopologyCall.written TopologyProperty.all ∧
      Faithful (Call.run (α := QuantumProperty)) Call.written QuantumProperty.all :=
  ⟨faithful_of_eq_ofList TopologyCall.run_eq_ofList TopologyProperty.mem_all,
    faithful_of_eq_ofList Call.run_eq_ofList QuantumProperty.mem_all⟩

/-- An axiom that has another one derived before it is withdrawn. -/
def withdrawnAxiom : List TopologyCall :=
  [.write (.set .t1 true), .saturate, .write (.exchange .t1 false)]

/-- The same values, set one after the other. -/
def deniedAxiom : List TopologyCall := [.write (.set .t0 true), .write (.exchange .t1 false)]

theorem withdrawnAxiom_differs_in_order :
    (TopologyCall.run withdrawnAxiom).keys = [.t1, .t0] ∧
      (TopologyCall.run deniedAxiom).keys = [.t0, .t1] ∧
      (TopologyCall.run withdrawnAxiom).entries.Perm (TopologyCall.run deniedAxiom).entries ∧
      (TopologyCall.run withdrawnAxiom == TopologyCall.run deniedAxiom) = false := by
  have hsame : ∀ p, (TopologyCall.run withdrawnAxiom).get? p =
      (TopologyCall.run deniedAxiom).get? p := by
    intro p
    cases p <;> decide
  have hkeys : (TopologyCall.run withdrawnAxiom).keys = [.t1, .t0] := by decide
  have hkeys' : (TopologyCall.run deniedAxiom).keys = [.t0, .t1] := by decide
  refine ⟨hkeys, hkeys', registries_reflect_writes.1.perm _ _ hsame, ?_⟩
  rw [← Bool.not_eq_true, registries_reflect_writes.1.beq_iff _ _ hsame, hkeys, hkeys']
  decide

end Registry

end SpaceTypes
