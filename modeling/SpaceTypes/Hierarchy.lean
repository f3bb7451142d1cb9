import SpaceTypes.NameTable

/-!
# The hierarchy of basic names

Basic types are names, and a hierarchy declares for some of them what they are directly below. A
name is a subtype of another when it is the same name or a chain of declarations leads from one to
the other.

There are two searches along such chains, and both keep a stack of names to go on from. The one for
a given supertype (`reaches`) marks a name when it is taken off the stack and ends as soon as it
meets the name that it looks for; a name can stand on the stack several times. The one for all
supertypes (`collect`) marks a name when it is pushed, and never marks the one that it started from.
Each ends because what can still be pushed is bounded, by the declarations for names that have not
been visited (`unvisited`) or by those that lead to names that have not been found (`unfound`).
-/

namespace SpaceTypes

/-- Direct supertypes by basic name, each list in order of declaration. -/
structure Hierarchy where
  /-- The direct supertypes of the names that have some. -/
  table : NameTable (List String)
deriving DecidableEq, Repr

namespace Hierarchy

/-- The hierarchy without declarations. -/
def empty : Hierarchy := ⟨.empty⟩

instance : EmptyCollection Hierarchy := ⟨empty⟩

/-- The direct supertypes of a name, in order of declaration. -/
def direct (h : Hierarchy) (name : String) : List String := (h.table.find? name).getD []

/-- Declares `sub` to be directly below `sup`. Declaring it twice changes nothing. -/
def declare (h : Hierarchy) (sub sup : String) : Hierarchy :=
  let sups := h.direct sub
  ⟨h.table.insert sub (if sup ∈ sups then sups else sups ++ [sup])⟩

/-- Declares the pairs one after another. -/
def declareAll (h : Hierarchy) (edges : List (String × String)) : Hierarchy :=
  edges.foldl (fun h edge => h.declare edge.1 edge.2) h

/-- Integers and floating point numbers are numbers. -/
def standard : Hierarchy := (empty.declare "int" "number").declare "float" "number"

instance : Inhabited Hierarchy := ⟨standard⟩

/-! ## Searching for one supertype -/

/-- Pushes the names one after another, unless the one looked for is among them. -/
def pushUnless (sup : String) : (parents stack : List String) → Option (List String)
  | [], stack => some stack
  | parent :: parents, stack =>
    if parent = sup then none else pushUnless sup parents (parent :: stack)

theorem pushUnless_eq (sup : String) (parents stack : List String) :
    pushUnless sup parents stack =
      if sup ∈ parents then none else some (parents.reverse ++ stack) := by
  induction parents generalizing stack with
  | nil => rfl
  | cons parent parents ih => grind [pushUnless]

theorem pushUnless_eq_none_iff {sup : String} {parents stack : List String} :
    pushUnless sup parents stack = none ↔ sup ∈ parents := by
  simp [pushUnless_eq]

theorem pushUnless_eq_some_iff {sup : String} {parents stack pushed : List String} :
    pushUnless sup parents stack = some pushed ↔
      sup ∉ parents ∧ parents.reverse ++ stack = pushed := by
  simp [pushUnless_eq]

/-- The number of declarations for names that have not been visited. -/
def unvisited (h : Hierarchy) (visited : List String) : Nat :=
  ((h.table.entries.filter (·.1 ∉ visited)).flatMap (·.2)).length

/-- The declarations for a name no longer count once it is visited. -/
theorem unvisited_cons_add_le (h : Hierarchy) {visited : List String} {name : String}
    (hname : name ∉ visited) :
    h.unvisited (name :: visited) + (h.direct name).length ≤ h.unvisited visited := by
  rw [unvisited, unvisited, direct, NameTable.find?]
  induction h.table.entries with
  | nil => simp
  | cons e rest ih =>
    by_cases hkey : e.1 = name
    · -- this is what the name is looked up to, and it counts on the right only
      rw [List.filter_cons_of_neg (by simp [hkey]), List.filter_cons_of_pos (by simp [hkey, hname]),
        ← hkey, List.lookup_cons_self, Option.getD_some, List.flatMap_cons, List.length_append]
      rw [← hkey] at ih
      omega
    · have hlookup : (e :: rest).lookup name = rest.lookup name := by
        rw [List.lookup_cons, beq_false_of_ne (Ne.symm hkey)]
      rw [hlookup]
      by_cases hold : e.1 ∈ visited
      · rwa [List.filter_cons_of_neg (by simp [hold]), List.filter_cons_of_neg (by simp [hold])]
      · rw [List.filter_cons_of_pos (by simp [hkey, hold]),
          List.filter_cons_of_pos (by simp [hold]), List.flatMap_cons, List.length_append,
          List.flatMap_cons, List.length_append]
        omega

/-- A visit takes a name off the stack, and pushes no more names than it takes declarations out of
the count. -/
theorem unvisited_add_lt {h : Hierarchy} {sup name : String} {visited stack pushed : List String}
    (hname : name ∉ visited) (hpush : pushUnless sup (h.direct name) stack = some pushed) :
    h.unvisited (name :: visited) + pushed.length <
      h.unvisited visited + (name :: stack).length := by
  have hle := h.unvisited_cons_add_le hname
  obtain ⟨-, rfl⟩ := pushUnless_eq_some_iff.1 hpush
  rw [List.length_append, List.length_reverse, List.length_cons]
  omega

/-- Whether a chain of declarations leads from a name on the stack to `sup`, where names that were
visited before are passed over. The name that was pushed last is taken off and visited. Its direct
supertypes are pushed in turn, until `sup` is seen to be one of them. -/
def reaches (h : Hierarchy) (sup : String) (visited : List String) : (stack : List String) → Bool
  | [] => false
  | name :: stack =>
    if hname : name ∈ visited then h.reaches sup visited stack
    else
      match hpush : pushUnless sup (h.direct name) stack with
      | none => true
      | some pushed =>
        have := unvisited_add_lt hname hpush
        h.reaches sup (name :: visited) pushed
termination_by stack => h.unvisited visited + stack.length

/-- Whether `sub` is `sup` or below it by a chain of declarations. -/
def isSubtype (h : Hierarchy) (sub sup : String) : Bool :=
  if sub = sup then true else h.reaches sup [] [sub]

/-! ## Searching for all supertypes -/

/-- How far a search for all supertypes has come. -/
structure Frontier where
  /-- The names found so far. -/
  found : List String
  /-- The names whose direct supertypes are still to be looked at, the last pushed one first. -/
  stack : List String

/-- Finds and pushes a name, unless the search started from it or has found it before. -/
def Frontier.discover (start : String) (frontier : Frontier) (parent : String) : Frontier :=
  if parent ≠ start ∧ parent ∉ frontier.found then
    ⟨parent :: frontier.found, parent :: frontier.stack⟩
  else frontier

/-- The number of declarations that lead to names that have not been found. -/
def unfound (h : Hierarchy) (found : List String) : Nat :=
  ((h.table.entries.flatMap (·.2)).filter (· ∉ found)).length

theorem direct_subset_targets (h : Hierarchy) (name : String) :
    h.direct name ⊆ h.table.entries.flatMap (·.2) := by
  cases hfind : h.table.find? name with
  | none => simp [direct, hfind]
  | some sups =>
    intro parent hparent
    rw [direct, hfind] at hparent
    exact List.mem_flatMap.2 ⟨_, NameTable.mem_entries_iff.2 hfind, hparent⟩

theorem unfound_cons_lt {h : Hierarchy} {found : List String} {name : String}
    (htarget : name ∈ h.table.entries.flatMap (·.2)) (hnew : name ∉ found) :
    h.unfound (name :: found) < h.unfound found := by
  have hfilter : (h.table.entries.flatMap (·.2)).filter (· ∉ name :: found) =
      ((h.table.entries.flatMap (·.2)).filter (· ∉ found)).filter (· ≠ name) := by
    rw [List.filter_filter]
    congr 1
    funext other
    simp
  rw [unfound, unfound, hfilter, List.length_filter_lt_length_iff_exists]
  exact ⟨name, List.mem_filter.2 ⟨htarget, by simpa using hnew⟩, by simp⟩

/-- What is found is pushed, and no longer counts as not found. -/
theorem unfound_discover_le {h : Hierarchy} {parent : String}
    (hparent : parent ∈ h.table.entries.flatMap (·.2)) (start : String) (frontier : Frontier) :
    h.unfound (frontier.discover start parent).found +
        (frontier.discover start parent).stack.length ≤
      h.unfound frontier.found + frontier.stack.length := by
  by_cases hnew : parent ≠ start ∧ parent ∉ frontier.found
  · have hlt := unfound_cons_lt hparent hnew.2
    simp only [Frontier.discover, if_pos hnew, List.length_cons]
    omega
  · have hsame : frontier.discover start parent = frontier := if_neg hnew
    exact Nat.le_of_eq (by rw [hsame])

theorem unfound_foldl_discover_le {h : Hierarchy} {parents : List String}
    (hparents : parents ⊆ h.table.entries.flatMap (·.2)) (start : String) (frontier : Frontier) :
    h.unfound (parents.foldl (Frontier.discover start) frontier).found +
        (parents.foldl (Frontier.discover start) frontier).stack.length ≤
      h.unfound frontier.found + frontier.stack.length := by
  induction parents generalizing frontier with
  | nil => exact Nat.le_refl _
  | cons parent parents ih =>
    obtain ⟨hparent, hparents⟩ := List.cons_subset.1 hparents
    exact Nat.le_trans (ih hparents _) (unfound_discover_le hparent start frontier)

/-- The names that chains of declarations lead to, except for the start. The name that was pushed
last is taken off, and those of its direct supertypes that are new are found and pushed. -/
def collect (h : Hierarchy) (start : String) : Frontier → List String
  | ⟨found, []⟩ => found
  | ⟨found, name :: stack⟩ =>
    h.collect start ((h.direct name).foldl (Frontier.discover start) ⟨found, stack⟩)
termination_by frontier => h.unfound frontier.found + frontier.stack.length
decreasing_by
  exact Nat.lt_succ_of_le
    (unfound_foldl_discover_le (h.direct_subset_targets name) start ⟨found, stack⟩)

/-- Every other name that `name` is a subtype of, in order. -/
def supertypes (h : Hierarchy) (name : String) : List String :=
  NameTable.sortNames (h.collect name ⟨[], [name]⟩)

/-- Each name that has supertypes, in order, with the supertypes. -/
def text (h : Hierarchy) : String :=
  ", ".intercalate (h.table.entries.map fun entry => entry.1 ++ " <: " ++ " | ".intercalate entry.2)

end Hierarchy

end SpaceTypes
