import Mathlib
import SpaceTypes.Hierarchy

/-!
# The order of basic names

The declarations of a hierarchy are the edges of a graph on names, in which cycles, loops and
repeated edges are allowed. A name is a subtype of another exactly if a path of edges leads from one
to the other.

The two searches have an invariant each. What the search for one name has visited leads on to names
that it has visited or will visit, and never directly to the name it looks for
(`Hierarchy.Explored`); so if it ends without having met that name, it has visited a set of names
that no path to it leaves. What the search for all names has found are ends of paths from the start,
and each of them, like the start, waits on the stack or has had its direct supertypes found
(`Hierarchy.Collecting`).
-/

namespace SpaceTypes

namespace Hierarchy

/-! ## Declared edges -/

/-- The hierarchy declares `sub` to be directly below `sup`. -/
def Declares (h : Hierarchy) (sub sup : String) : Prop :=
  ∃ sups, (sub, sups) ∈ h.table.entries ∧ sup ∈ sups

theorem declares_iff_mem_direct {h : Hierarchy} {sub sup : String} :
    h.Declares sub sup ↔ sup ∈ h.direct sub := by
  simp only [Declares, NameTable.mem_entries_iff, direct]
  cases h.table.find? sub <;> simp

theorem mem_direct_declare_iff {h : Hierarchy} {a b sub sup : String} :
    sup ∈ (h.declare a b).direct sub ↔ sup ∈ h.direct sub ∨ (sub, sup) = (a, b) := by
  by_cases hsub : sub = a
  · subst hsub
    rw [direct, declare, NameTable.find?_insert_self, Option.getD_some]
    split
    case isTrue hb => exact ⟨Or.inl, fun h => h.elim id fun heq => (Prod.mk.inj heq).2 ▸ hb⟩
    case isFalse => simp
  · rw [direct, declare, NameTable.find?_insert_of_ne _ hsub, ← direct]
    simp [hsub]

theorem declares_declareAll_iff {h : Hierarchy} {edges : List (String × String)}
    {sub sup : String} :
    (h.declareAll edges).Declares sub sup ↔ h.Declares sub sup ∨ (sub, sup) ∈ edges := by
  rw [declares_iff_mem_direct, declares_iff_mem_direct]
  induction edges generalizing h with
  | nil => simp [declareAll]
  | cons edge rest ih =>
    rw [declareAll, List.foldl_cons, ← declareAll, ih, mem_direct_declare_iff, List.mem_cons,
      or_assoc]

variable {h : Hierarchy} {sup start name : String} {visited stack pushed : List String}

/-! ## The search for one name -/

/-- A search that meets the name has followed a path to it, from a name on the stack. -/
theorem exists_path_of_reaches (hreaches : h.reaches sup visited stack = true) :
    ∃ name ∈ stack, Relation.TransGen h.Declares name sup := by
  fun_induction reaches h sup visited stack with
  | case1 => cases hreaches
  | case2 visited name stack hname ih =>
    obtain ⟨other, hother, hpath⟩ := ih hreaches
    exact ⟨other, List.mem_cons_of_mem _ hother, hpath⟩
  | case3 visited name stack hname hpush =>
    have hdirect : sup ∈ h.direct name := pushUnless_eq_none_iff.1 hpush
    exact ⟨name, List.mem_cons_self, .single (declares_iff_mem_direct.2 hdirect)⟩
  | case4 visited name stack hname pushed hpush _ ih =>
    obtain ⟨-, rfl⟩ := pushUnless_eq_some_iff.1 hpush
    obtain ⟨other, hother, hpath⟩ := ih hreaches
    rcases List.mem_append.1 hother with hother | hother
    · have hdirect : h.Declares name other :=
        declares_iff_mem_direct.2 (List.mem_reverse.1 hother)
      exact ⟨name, List.mem_cons_self, .head hdirect hpath⟩
    · exact ⟨other, List.mem_cons_of_mem _ hother, hpath⟩

/-- What has been visited leads to what has been visited or waits on the stack, and not directly to
the name that is looked for. -/
structure Explored (h : Hierarchy) (sup : String) (visited stack : List String) : Prop where
  /-- The name is not directly above a visited one. -/
  notMem_direct : ∀ name ∈ visited, sup ∉ h.direct name
  /-- No edge leads from a visited name to one that the search has not seen. -/
  mem_of_direct : ∀ name ∈ visited, ∀ parent ∈ h.direct name, parent ∈ visited ∨ parent ∈ stack

/-- A name that was visited before can be taken off the stack. -/
theorem Explored.skip (hexplored : h.Explored sup visited (name :: stack))
    (hname : name ∈ visited) : h.Explored sup visited stack where
  notMem_direct := hexplored.notMem_direct
  mem_of_direct other hother parent hparent := by
    rcases hexplored.mem_of_direct other hother parent hparent with hvisited | hstack
    · exact Or.inl hvisited
    · rcases List.mem_cons.1 hstack with rfl | hstack
      · exact Or.inl hname
      · exact Or.inr hstack

/-- A name can be visited if all of its direct supertypes are pushed. -/
theorem Explored.visit (hexplored : h.Explored sup visited (name :: stack))
    (hpush : pushUnless sup (h.direct name) stack = some pushed) :
    h.Explored sup (name :: visited) pushed := by
  obtain ⟨hsup, rfl⟩ := pushUnless_eq_some_iff.1 hpush
  refine ⟨fun other hother => ?_, fun other hother parent hparent => ?_⟩
  · rcases List.mem_cons.1 hother with rfl | hother
    · exact hsup
    · exact hexplored.notMem_direct other hother
  · rcases List.mem_cons.1 hother with rfl | hother
    · exact Or.inr (List.mem_append_left _ (List.mem_reverse.2 hparent))
    · rcases hexplored.mem_of_direct other hother parent hparent with hvisited | hstack
      · exact Or.inl (List.mem_cons_of_mem _ hvisited)
      · rcases List.mem_cons.1 hstack with rfl | hstack
        · exact Or.inl List.mem_cons_self
        · exact Or.inr (List.mem_append_right _ hstack)

/-- A search that ends without meeting the name has visited all that was on its stack, and nothing
is left to go on to from there. -/
theorem exists_explored_of_not_reaches (hexplored : h.Explored sup visited stack)
    (hreaches : h.reaches sup visited stack = false) :
    ∃ final, visited ⊆ final ∧ stack ⊆ final ∧ h.Explored sup final [] := by
  fun_induction reaches h sup visited stack with
  | case1 visited => exact ⟨visited, List.Subset.refl _, List.nil_subset _, hexplored⟩
  | case2 visited name stack hname ih =>
    obtain ⟨final, hvisited, hstack, hfinal⟩ := ih (hexplored.skip hname) hreaches
    exact ⟨final, hvisited, List.cons_subset.2 ⟨hvisited hname, hstack⟩, hfinal⟩
  | case3 => cases hreaches
  | case4 visited name stack hname pushed hpush _ ih =>
    obtain ⟨final, hvisited, hstack, hfinal⟩ := ih (hexplored.visit hpush) hreaches
    obtain ⟨hname, hvisited⟩ := List.cons_subset.1 hvisited
    obtain ⟨-, rfl⟩ := pushUnless_eq_some_iff.1 hpush
    exact ⟨final, hvisited, List.cons_subset.2 ⟨hname, (List.append_subset.1 hstack).2⟩, hfinal⟩

/-- No path leads to the name from where nothing is left to go on to. -/
theorem Explored.not_path (hexplored : h.Explored sup visited []) (hname : name ∈ visited) :
    ¬Relation.TransGen h.Declares name sup := by
  intro hpath
  induction hpath using Relation.TransGen.head_induction_on with
  | single hedge =>
    exact hexplored.notMem_direct _ hname (declares_iff_mem_direct.1 hedge)
  | head hedge _ ih =>
    rcases hexplored.mem_of_direct _ hname _ (declares_iff_mem_direct.1 hedge) with
      hvisited | hstack
    · exact ih hvisited
    · cases hstack

theorem reaches_iff_path :
    h.reaches sup [] [name] = true ↔ Relation.TransGen h.Declares name sup := by
  refine ⟨fun hreaches => ?_, fun hpath => ?_⟩
  · obtain ⟨other, hother, hpath⟩ := exists_path_of_reaches hreaches
    rwa [List.mem_singleton.1 hother] at hpath
  · by_contra hnot
    have hstart : h.Explored sup [] [name] := ⟨by simp, by simp⟩
    obtain ⟨final, -, hstack, hfinal⟩ :=
      exists_explored_of_not_reaches hstart (Bool.eq_false_iff.2 hnot)
    exact hfinal.not_path (hstack List.mem_cons_self) hpath

theorem isSubtype_iff {h : Hierarchy} {sub sup : String} :
    h.isSubtype sub sup = true ↔ Relation.ReflTransGen h.Declares sub sup := by
  rw [isSubtype, Relation.reflTransGen_iff_eq_or_transGen]
  split
  case isTrue heq => simp [heq]
  case isFalse hne => rw [reaches_iff_path, or_iff_right (Ne.symm hne)]

theorem isSubtype_refl (h : Hierarchy) (name : String) : h.isSubtype name name = true :=
  isSubtype_iff.2 .refl

theorem isSubtype_trans {h : Hierarchy} {a b c : String} (hab : h.isSubtype a b = true)
    (hbc : h.isSubtype b c = true) : h.isSubtype a c = true :=
  isSubtype_iff.2 ((isSubtype_iff.1 hab).trans (isSubtype_iff.1 hbc))

/-! ## The search for all names -/

theorem Frontier.mem_found_foldl_discover {start name : String} {parents : List String}
    {frontier : Frontier} :
    name ∈ (parents.foldl (discover start) frontier).found ↔
      name ∈ frontier.found ∨ name ∈ parents ∧ name ≠ start := by
  induction parents generalizing frontier with
  | nil => simp
  | cons parent parents ih =>
    rw [List.foldl_cons, ih]
    grind [discover]

/-- What is found is pushed, and what is on the stack stays there. -/
theorem Frontier.mem_stack_foldl_discover {start name : String} {parents : List String}
    {frontier : Frontier} :
    name ∈ (parents.foldl (discover start) frontier).stack ↔
      name ∈ frontier.stack ∨ name ∈ parents ∧ name ≠ start ∧ name ∉ frontier.found := by
  induction parents generalizing frontier with
  | nil => simp
  | cons parent parents ih =>
    rw [List.foldl_cons, ih]
    grind [discover]

/-- The invariant of the search for all names. -/
structure Collecting (h : Hierarchy) (start : String) (frontier : Frontier) : Prop where
  /-- The start is never found. -/
  start_notMem : start ∉ frontier.found
  /-- What is found can be reached. -/
  path_of_found : ∀ name ∈ frontier.found, Relation.ReflTransGen h.Declares start name
  /-- What is on the stack was found, except for the start. -/
  found_of_stack : ∀ name ∈ frontier.stack, name = start ∨ name ∈ frontier.found
  /-- The start and all that was found wait on the stack, or lead to such names only. -/
  closed : ∀ name, name = start ∨ name ∈ frontier.found →
    name ∈ frontier.stack ∨ ∀ parent ∈ h.direct name, parent = start ∨ parent ∈ frontier.found

theorem collecting_start (h : Hierarchy) (start : String) : h.Collecting start ⟨[], [start]⟩ where
  start_notMem := by simp
  path_of_found := by simp
  found_of_stack := by simp
  closed := by simp

/-- A name can be taken off the stack if its direct supertypes are found. -/
theorem Collecting.step {found : List String}
    (hcollecting : h.Collecting start ⟨found, name :: stack⟩) :
    h.Collecting start ((h.direct name).foldl (Frontier.discover start) ⟨found, stack⟩) := by
  have hname : Relation.ReflTransGen h.Declares start name := by
    rcases hcollecting.found_of_stack name List.mem_cons_self with rfl | hfound
    · exact .refl
    · exact hcollecting.path_of_found name hfound
  refine ⟨fun hmem => ?_, fun other hother => ?_, fun other hother => ?_, fun other hother => ?_⟩
  · rcases Frontier.mem_found_foldl_discover.1 hmem with hmem | ⟨-, hne⟩
    · exact hcollecting.start_notMem hmem
    · exact hne rfl
  · rcases Frontier.mem_found_foldl_discover.1 hother with hother | ⟨hother, -⟩
    · exact hcollecting.path_of_found other hother
    · exact hname.tail (declares_iff_mem_direct.2 hother)
  · rw [Frontier.mem_found_foldl_discover]
    rcases Frontier.mem_stack_foldl_discover.1 hother with hother | ⟨hother, hne, -⟩
    · exact (hcollecting.found_of_stack other (List.mem_cons_of_mem _ hother)).imp_right Or.inl
    · exact Or.inr (Or.inr ⟨hother, hne⟩)
  · rw [Frontier.mem_found_foldl_discover] at hother
    simp only [Frontier.mem_stack_foldl_discover, Frontier.mem_found_foldl_discover]
    by_cases hsame : other = name
    · -- the name itself leaves the stack, and its direct supertypes have been found just now
      subst hsame
      refine Or.inr fun parent hparent => ?_
      by_cases hstart : parent = start
      · exact Or.inl hstart
      · exact Or.inr (Or.inr ⟨hparent, hstart⟩)
    · by_cases hold : other = start ∨ other ∈ found
      · rcases hcollecting.closed other hold with hstack | hclosed
        · exact Or.inl (Or.inl ((List.mem_cons.1 hstack).resolve_left hsame))
        · exact Or.inr fun parent hparent => (hclosed parent hparent).imp_right Or.inl
      · -- what is new has been pushed
        rw [not_or] at hold
        obtain ⟨hparent, hne⟩ := (hother.resolve_left hold.1).resolve_left hold.2
        exact Or.inl (Or.inr ⟨hparent, hne, hold.2⟩)

/-- With nothing left on the stack, no path leads out of what has been found. -/
theorem Collecting.found_of_path {found : List String}
    (hcollecting : h.Collecting start ⟨found, []⟩)
    (hpath : Relation.ReflTransGen h.Declares start name) : name = start ∨ name ∈ found := by
  induction hpath with
  | refl => exact Or.inl rfl
  | tail _ hedge ih =>
    rcases hcollecting.closed _ ih with hstack | hclosed
    · cases hstack
    · exact hclosed _ (declares_iff_mem_direct.1 hedge)

/-- The search ends with the names at the ends of paths from the start, which is not one of them. -/
theorem mem_collect_iff {frontier : Frontier} (hcollecting : h.Collecting start frontier) :
    name ∈ h.collect start frontier ↔
      name ≠ start ∧ Relation.ReflTransGen h.Declares start name := by
  fun_induction collect h start frontier with
  | case1 found =>
    refine ⟨fun hname => ⟨?_, hcollecting.path_of_found name hname⟩, fun hpath => ?_⟩
    · rintro rfl
      exact hcollecting.start_notMem hname
    · exact (hcollecting.found_of_path hpath.2).resolve_left hpath.1
  | case2 found other stack ih => exact ih hcollecting.step

theorem mem_supertypes_iff {h : Hierarchy} {name sup : String} :
    sup ∈ h.supertypes name ↔ sup ≠ name ∧ h.isSubtype name sup = true := by
  rw [supertypes, NameTable.mem_sortNames, mem_collect_iff (collecting_start h name), isSubtype_iff]

/-- After any declarations, a name is a subtype of another exactly if they are the same or a path
leads from one to the other, over edges that were declared now or before. The supertypes of a
name are listed in strictly increasing order and are exactly the other names it is a subtype of. -/
theorem isSubtype_declareAll_iff_path (start : Hierarchy) (edges : List (String × String))
    (a b : String) :
    ((start.declareAll edges).isSubtype a b = true ↔
      a = b ∨ Relation.TransGen (fun x y => start.Declares x y ∨ (x, y) ∈ edges) a b) ∧
    ((start.declareAll edges).supertypes a).Pairwise (· < ·) ∧
    (b ∈ (start.declareAll edges).supertypes a ↔
      b ≠ a ∧ (start.declareAll edges).isSubtype a b = true) := by
  refine ⟨?_, NameTable.pairwise_sortNames _, mem_supertypes_iff⟩
  have hdeclares : (start.declareAll edges).Declares =
      fun x y => start.Declares x y ∨ (x, y) ∈ edges := by
    funext x y
    exact propext declares_declareAll_iff
  rw [isSubtype_iff, hdeclares, Relation.reflTransGen_iff_eq_or_transGen, eq_comm]

-- a cycle with a loop on it
example : (empty.declareAll [("b", "a"), ("a", "b"), ("b", "b")]).supertypes "a" = ["b"] := by
  decide +kernel

end Hierarchy

end SpaceTypes
