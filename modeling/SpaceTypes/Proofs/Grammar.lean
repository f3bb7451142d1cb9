import Mathlib
import SpaceTypes.TypeExpr.Parser

/-!
# The grammar of written types

A written type is a name or a layer word with a written type in angle brackets, and blanks may stand
around every part. `TypeExpr.Derives` says so as a grammar, without a reader. The texts that are
read as a written type are exactly those that the grammar derives with at most `maxDepth` layers.

The reader takes each run of blanks or name characters as long as it can. No derivation is lost by
this, because what follows such a run in the grammar never continues it
(`Cursor.word_eq_and_rest_afterWord`). Conversely, what the reader passes over is a text of the
grammar (`derives_of_read`).
-/

namespace SpaceTypes.TypeExpr

open Text

/-! ## The grammar -/

/-- A run of blanks, possibly empty. -/
def Blanks (chars : List Char) : Prop := ∀ c ∈ chars, isBlank c = true

/-- A nonempty run of characters of names. -/
structure IsWord (chars : List Char) : Prop where
  /-- There is at least one character. -/
  ne_nil : chars ≠ []
  /-- All of them may stand in names. -/
  all_isNameChar : ∀ c ∈ chars, isNameChar c = true

/-- A word that is no layer word. -/
structure IsName (chars : List Char) : Prop extends IsWord chars where
  /-- Layer words are not names. -/
  ne_modifier : ∀ modifier : Modifier, String.ofList chars ≠ modifier.name

/-- The characters are a way to write the type. -/
inductive Derives : List Char → TypeExpr → Prop where
  /-- A name between blanks. -/
  | name {before name after : List Char} (hbefore : Blanks before) (hname : IsName name)
      (hafter : Blanks after) : Derives (before ++ name ++ after) (basic (String.ofList name))
  /-- A layer word between blanks, then a written type in brackets, then blanks. -/
  | layer {before between inner after : List Char} {modifier : Modifier} {base : TypeExpr}
      (hbefore : Blanks before) (hbetween : Blanks between) (hinner : Derives inner base)
      (hafter : Blanks after) :
      Derives (before ++ modifier.name.toList ++ between ++ ['<'] ++ inner ++ ['>'] ++ after)
        (layer modifier base)

/-- The number of layers. -/
def depth : TypeExpr → Nat
  | basic _ => 0
  | layer _ base => base.depth + 1

theorem Blanks.nil : Blanks [] := fun _ hc => nomatch hc

theorem Blanks.append {first second : List Char} (hfirst : Blanks first) (hsecond : Blanks second) :
    Blanks (first ++ second) := fun c hc =>
  (List.mem_append.1 hc).elim (hfirst c) (hsecond c)

/-- Blanks after a written type belong to it. -/
theorem Derives.append_blanks {chars blanks : List Char} {e : TypeExpr} (h : Derives chars e)
    (hblanks : Blanks blanks) : Derives (chars ++ blanks) e := by
  cases h with
  | name hbefore hname hafter =>
    rw [List.append_assoc]
    exact .name hbefore hname (hafter.append hblanks)
  | layer hbefore hbetween hinner hafter =>
    rw [List.append_assoc]
    exact .layer hbefore hbetween hinner (hafter.append hblanks)

theorem isWord_modifier (modifier : Modifier) : IsWord modifier.name.toList := by
  have hall : modifier.name.toList.all isNameChar = true := by cases modifier <;> rfl
  exact ⟨by cases modifier <;> decide, List.all_eq_true.1 hall⟩

/-! ## Where runs end -/

/-- The characters do not start with one that satisfies `p`. -/
def Stops (p : Char → Bool) (chars : List Char) : Prop := ∀ c ∈ chars.head?, p c = false

namespace Stops

variable {p : Char → Bool} {chars rest : List Char}

theorem cons {c : Char} (hc : p c = false) : Stops p (c :: rest) := by
  simp [Stops, hc]

theorem takeWhile_append (hchars : ∀ c ∈ chars, p c = true) (hrest : Stops p rest) :
    (chars ++ rest).takeWhile p = chars := by
  rw [List.takeWhile_append_of_pos hchars]
  cases rest with
  | nil => simp
  | cons c rest => simp [hrest c rfl]

theorem dropWhile_append (hchars : ∀ c ∈ chars, p c = true) (hrest : Stops p rest) :
    (chars ++ rest).dropWhile p = rest := by
  rw [List.dropWhile_append_of_pos hchars]
  cases rest with
  | nil => simp
  | cons c rest => simp [hrest c rfl]

end Stops

theorem IsWord.stops_isBlank {word : List Char} (hword : IsWord word) (rest : List Char) :
    Stops isBlank (word ++ rest) := by
  cases word with
  | nil => exact absurd rfl hword.ne_nil
  | cons c word =>
    have hc : isNameChar c = true := hword.all_isNameChar c List.mem_cons_self
    refine .cons (Bool.eq_false_iff.2 fun hblank => ?_)
    rw [isNameChar_eq_false_of_isBlank hblank] at hc
    cases hc

theorem Blanks.stops_isNameChar {blanks rest : List Char} (hblanks : Blanks blanks)
    (hrest : Stops isNameChar rest) : Stops isNameChar (blanks ++ rest) := by
  cases blanks with
  | nil => exact hrest
  | cons c blanks =>
    exact .cons (isNameChar_eq_false_of_isBlank (hblanks c List.mem_cons_self))

/-! ## Places in a text -/

namespace Cursor

variable {c c' : Cursor} {p : Char → Bool} {expected : Char}

/-- The next word, after blanks. -/
def word (c : Cursor) : List Char := (c.skip isBlank).run isNameChar

/-- The place after the next word and the blanks around it. -/
def afterWord (c : Cursor) : Cursor := ((c.skip isBlank).skip isNameChar).skip isBlank

theorem rest_eq_run_append (p : Char → Bool) (c : Cursor) :
    c.rest = c.run p ++ (c.skip p).rest :=
  List.takeWhile_append_dropWhile.symm

theorem forall_mem_run {ch : Char} (hmem : ch ∈ c.run p) : p ch = true :=
  List.mem_takeWhile_imp hmem

theorem blanks_run (c : Cursor) : Blanks (c.run isBlank) := fun _ => forall_mem_run

theorem rest_skip_of_append {chars rest : List Char} (hrest : c.rest = chars ++ rest)
    (hchars : ∀ ch ∈ chars, p ch = true) (hstops : Stops p rest) : (c.skip p).rest = rest := by
  rw [skip, hrest]
  exact hstops.dropWhile_append hchars

theorem rest_skip_of_stops (hstops : Stops p c.rest) : (c.skip p).rest = c.rest :=
  rest_skip_of_append (List.nil_append _).symm (fun _ hch => nomatch hch) hstops

theorem run_of_append {chars rest : List Char} (hrest : c.rest = chars ++ rest)
    (hchars : ∀ ch ∈ chars, p ch = true) (hstops : Stops p rest) : c.run p = chars := by
  rw [run, hrest]
  exact hstops.takeWhile_append hchars

theorem eat?_eq_some (heat : c.eat? expected = some c') : c.rest = expected :: c'.rest := by
  unfold eat? at heat
  split at heat
  case h_1 => cases heat
  case h_2 d rest hrest =>
    split at heat
    case isTrue hd =>
      cases heat
      rw [hrest, hd]
    case isFalse => cases heat

theorem exists_eat?_of_cons {rest : List Char} (hrest : c.rest = expected :: rest) :
    ∃ c', c.eat? expected = some c' ∧ c'.rest = rest := by
  refine ⟨⟨c.offset + expected.utf8Size, rest⟩, ?_, rfl⟩
  simp [eat?, hrest]

theorem eat?_eq_none (hstops : Stops (· == expected) c.rest) : c.eat? expected = none := by
  unfold eat?
  split
  case h_1 => rfl
  case h_2 d rest hrest =>
    rw [hrest] at hstops
    rw [if_neg (by simpa using hstops d rfl)]

/-- The word that is read is the whole word that stands there, with the blanks around it. -/
theorem word_eq_and_rest_afterWord {before word between rest : List Char}
    (hrest : c.rest = before ++ word ++ between ++ rest) (hbefore : Blanks before)
    (hword : IsWord word) (hbetween : Blanks between) (hblank : Stops isBlank rest)
    (hname : Stops isNameChar rest) : c.word = word ∧ c.afterWord.rest = rest := by
  have hstart : (c.skip isBlank).rest = word ++ (between ++ rest) :=
    rest_skip_of_append (by rw [hrest, List.append_assoc, List.append_assoc]) hbefore
      (hword.stops_isBlank _)
  have hstops : Stops isNameChar (between ++ rest) := hbetween.stops_isNameChar hname
  refine ⟨run_of_append hstart hword.all_isNameChar hstops, ?_⟩
  exact rest_skip_of_append (rest_skip_of_append hstart hword.all_isNameChar hstops) hbetween hblank

/-- What is passed over on the way to the place after the next word. -/
theorem rest_eq_word_append (c : Cursor) :
    ∃ before between, Blanks before ∧ Blanks between ∧
      c.rest = before ++ c.word ++ between ++ c.afterWord.rest := by
  refine ⟨c.run isBlank, ((c.skip isBlank).skip isNameChar).run isBlank, blanks_run _,
    blanks_run _, ?_⟩
  rw [List.append_assoc, List.append_assoc, afterWord, ← rest_eq_run_append, word,
    ← rest_eq_run_append, ← rest_eq_run_append]

end Cursor

/-! ## The rules of reading -/

variable {room : Nat} {c c' : Cursor} {e : TypeExpr}

theorem read_name (hname : IsName c.word) (hopen : c.afterWord.eat? '<' = none) :
    read room c = .ok (basic (String.ofList c.word), c.afterWord) := by
  have hmodifier : Modifier.ofName? (String.ofList c.word) = none :=
    Modifier.ofName?_eq_none_iff.2 hname.ne_modifier
  have hne : c.word.isEmpty = false := List.isEmpty_eq_false_iff.2 hname.ne_nil
  unfold Cursor.word Cursor.afterWord at *
  unfold read
  simp only [hne, hmodifier, hopen, Bool.false_eq_true, if_false]

theorem read_layer {modifier : Modifier} {base : TypeExpr} {inside afterBase : Cursor}
    (hword : c.word = modifier.name.toList) (hopen : c.afterWord.eat? '<' = some inside)
    (hbase : read room inside = .ok (base, afterBase))
    (hclose : (afterBase.skip isBlank).eat? '>' = some c') :
    read (room + 1) c = .ok (layer modifier base, c') := by
  have hmodifier : Modifier.ofName? (String.ofList c.word) = some modifier := by
    rw [Modifier.ofName?_eq_some_iff, hword, String.ofList_toList]
  have hne : c.word.isEmpty = false := by
    rw [hword]
    exact List.isEmpty_eq_false_iff.2 (isWord_modifier modifier).ne_nil
  unfold Cursor.word Cursor.afterWord at *
  unfold read
  simp only [hne, hmodifier, hopen, hbase, hclose, Bool.false_eq_true, if_false]

/-- A reading that succeeds has read a name, or a layer word with a base in brackets. -/
theorem read_cases (hread : read room c = .ok (e, c')) :
    (IsName c.word ∧ e = basic (String.ofList c.word) ∧ c' = c.afterWord) ∨
    ∃ room' modifier base inside afterBase, room = room' + 1 ∧ e = layer modifier base ∧
      c.word = modifier.name.toList ∧ c.afterWord.eat? '<' = some inside ∧
      read room' inside = .ok (base, afterBase) ∧
      (afterBase.skip isBlank).eat? '>' = some c' := by
  revert hread
  fun_cases read room c with
  | case1 | case3 | case4 | case5 | case6 | case7 => intro hread; cases hread
  | case2 room start name after hne hopen hmodifier =>
    intro hread
    obtain ⟨he, hc'⟩ := Prod.mk.inj (Except.ok.inj hread)
    refine Or.inl ⟨⟨⟨?_, fun ch hch => Cursor.forall_mem_run hch⟩, ?_⟩, he.symm, hc'.symm⟩
    · exact fun hnil => hne (List.isEmpty_iff.2 hnil)
    · exact Modifier.ofName?_eq_none_iff.1 hmodifier
  | case8 start name after hne modifier inside hopen hmodifier room base afterBase hbase close
      afterClose hclose =>
    intro hread
    cases hread
    have hword : name = modifier.name := Modifier.ofName?_eq_some_iff.1 hmodifier
    refine Or.inr ⟨room, modifier, base, inside, afterBase, rfl, rfl, ?_, hopen, hbase, hclose⟩
    rw [← hword]
    exact String.toList_ofList.symm

/-! ## Reading what the grammar derives -/

/-- Whatever the reader passes over is a way to write the type that it gives. -/
theorem derives_of_read (hread : read room c = .ok (e, c')) :
    ∃ chars, c.rest = chars ++ c'.rest ∧ Derives chars e ∧ e.depth ≤ room := by
  induction room using Nat.strongRecOn generalizing c e c' with
  | ind room ih =>
  obtain ⟨before, between, hbefore, hbetween, hrest⟩ := c.rest_eq_word_append
  rcases read_cases hread with ⟨hname, rfl, rfl⟩ |
    ⟨room, modifier, base, inside, afterBase, rfl, rfl, hword, hopen, hbase, hclose⟩
  · exact ⟨_, hrest, .name hbefore hname hbetween, Nat.zero_le _⟩
  · obtain ⟨inner, hinside, hinner, hdepth⟩ := ih room (Nat.lt_succ_self room) hbase
    -- the blanks before the closing bracket are part of the base
    have hafterBase := afterBase.rest_eq_run_append isBlank
    rw [Cursor.eat?_eq_some hclose] at hafterBase
    refine ⟨_, ?_, .layer hbefore hbetween (hinner.append_blanks afterBase.blanks_run) .nil,
      Nat.succ_le_succ hdepth⟩
    rw [hrest, Cursor.eat?_eq_some hopen, hinside, hafterBase, hword]
    simp

/-- A written type is read, up to blanks after it, where nothing or a closing bracket follows. -/
theorem read_of_derives {chars rest : List Char} (h : Derives chars e) (hdepth : e.depth ≤ room)
    (hrest : c.rest = chars ++ rest) (hend : ∀ ch ∈ rest.head?, ch = '>') :
    ∃ c', read room c = .ok (e, c') ∧ (c'.skip isBlank).rest = rest := by
  induction h generalizing room c rest with
  | name hbefore hname hafter =>
    have hstops : ∀ {p : Char → Bool}, p '>' = false → Stops p rest := fun hp ch hch => by
      rw [hend ch hch, hp]
    obtain ⟨hword, hafterWord⟩ := Cursor.word_eq_and_rest_afterWord hrest hbefore
      hname.toIsWord hafter (hstops (by decide)) (hstops (by decide))
    rw [← hword] at hname ⊢
    refine ⟨c.afterWord, read_name hname (Cursor.eat?_eq_none ?_), ?_⟩
    · rw [hafterWord]
      exact hstops (by decide)
    · rw [Cursor.rest_skip_of_stops (by rw [hafterWord]; exact hstops (by decide)), hafterWord]
  | @layer before between inner after modifier base hbefore hbetween hinner hafter ih =>
    obtain ⟨room, rfl⟩ : ∃ room', room = room' + 1 := Nat.exists_eq_succ_of_ne_zero (by
      rintro rfl
      exact absurd hdepth (Nat.not_succ_le_zero _))
    -- the word up to the opening bracket
    have hsplit : c.rest = before ++ modifier.name.toList ++ between ++
        '<' :: (inner ++ '>' :: (after ++ rest)) := by
      rw [hrest]
      simp
    obtain ⟨hword, hafterWord⟩ := Cursor.word_eq_and_rest_afterWord hsplit hbefore
      (isWord_modifier modifier) hbetween (.cons (by decide)) (.cons (by decide))
    obtain ⟨inside, hopen, hinside⟩ := Cursor.exists_eat?_of_cons hafterWord
    -- the base up to the closing bracket
    obtain ⟨afterBase, hbase, hafterBase⟩ :=
      ih (Nat.le_of_succ_le_succ hdepth) hinside (by simp)
    obtain ⟨c', hclose, hc'⟩ := Cursor.exists_eat?_of_cons hafterBase
    refine ⟨c', read_layer hword hopen hbase hclose, ?_⟩
    refine Cursor.rest_skip_of_append hc' hafter fun ch hch => ?_
    rw [hend ch hch]
    decide

theorem parse_eq_ok_iff {text : String} :
    parse text = .ok e ↔
      ∃ last, read maxDepth ⟨0, text.toList⟩ = .ok (e, last) ∧ (last.skip isBlank).rest = [] := by
  unfold parse
  split
  case h_1 malformed hread => simp [hread]
  case h_2 expr after hread =>
    by_cases hlast : (after.skip isBlank).rest = [] <;> simp [hread, hlast]

/-- A text is read as a written type exactly if the grammar derives it with at most 64 layers. -/
theorem parse_eq_ok_iff_derives (text : String) (e : TypeExpr) :
    parse text = .ok e ↔ Derives text.toList e ∧ e.depth ≤ 64 := by
  rw [parse_eq_ok_iff]
  constructor
  · rintro ⟨last, hread, hlast⟩
    obtain ⟨chars, hrest, hderives, hdepth⟩ := derives_of_read hread
    refine ⟨?_, hdepth⟩
    have htext : text.toList = chars ++ last.run isBlank := by
      rw [last.rest_eq_run_append isBlank, hlast, List.append_nil] at hrest
      exact hrest
    rw [htext]
    exact hderives.append_blanks last.blanks_run
  · rintro ⟨hderives, hdepth⟩
    exact read_of_derives hderives hdepth (List.append_nil _).symm (fun _ hch => nomatch hch)

example : parse " Topology < Quantum<int >>" =
    .ok (layer .topology (layer .quantum (basic "int"))) := by
  decide +kernel

end SpaceTypes.TypeExpr
