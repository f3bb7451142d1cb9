/-!
# Sets of characters given by ranges of code points

A character property of the Unicode standard is published as a table of closed ranges of code
points. `inRanges` tests a character against such a table. If the ranges of two tables do not meet,
no character is in both (`inRanges_eq_false_of_disjoint`).
-/

namespace SpaceTypes.Text

/-- Whether the code point of `c` lies in one of the closed ranges. -/
def inRanges (ranges : List (Nat × Nat)) (c : Char) : Bool :=
  ranges.any fun r => r.1 ≤ c.toNat && c.toNat ≤ r.2

theorem inRanges_iff {ranges : List (Nat × Nat)} {c : Char} :
    inRanges ranges c = true ↔ ∃ r ∈ ranges, r.1 ≤ c.toNat ∧ c.toNat ≤ r.2 := by
  simp [inRanges]

/-- Whether no range of the first table meets a range of the second. -/
def disjointRanges (first second : List (Nat × Nat)) : Bool :=
  first.all fun r => second.all fun s => r.2 < s.1 || s.2 < r.1

theorem inRanges_eq_false_of_disjoint {first second : List (Nat × Nat)} {c : Char}
    (h : disjointRanges first second = true) (hc : inRanges first c = true) :
    inRanges second c = false := by
  obtain ⟨r, hr, hlow, hhigh⟩ := inRanges_iff.1 hc
  refine Bool.eq_false_iff.2 fun hs => ?_
  obtain ⟨s, hs, slow, shigh⟩ := inRanges_iff.1 hs
  have apart := List.all_eq_true.1 (List.all_eq_true.1 h r hr) s hs
  simp only [Bool.or_eq_true, decide_eq_true_eq] at apart
  omega

/-- The number of bytes that the characters take in UTF-8. -/
def byteLength : List Char → Nat
  | [] => 0
  | c :: rest => c.utf8Size + byteLength rest

@[simp]
theorem byteLength_append (a b : List Char) :
    byteLength (a ++ b) = byteLength a + byteLength b := by
  induction a with
  | nil => simp [byteLength]
  | cons c rest ih => simp only [List.cons_append, byteLength, ih]; omega

end SpaceTypes.Text
