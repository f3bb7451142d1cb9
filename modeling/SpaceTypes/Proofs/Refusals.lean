import SpaceTypes.Proofs.Grammar

/-!
# Texts that are refused

A text that is not a written type is refused at an offset in bytes. Places carry the number of bytes
before them along with the characters after them, and every step of the reader keeps the two in
agreement (`Cursor.Reaches`). The offset of a refusal is that of a place in the text, so it never
lies inside a character or after the end. Where something follows the type, the text up to there is
a written type (`parse_prefix_of_trailing`).

`readNested` is the reader with its calls counted. It is limited by the layers around it and not by
a number that runs down, and its recursion follows the text, so that nothing but the limit on layers
keeps a long text from deep recursion.
-/

namespace SpaceTypes.TypeExpr

open Text

theorem byteLength_eq_utf8ByteSize (chars : List Char) :
    byteLength chars = (String.ofList chars).utf8ByteSize := by
  induction chars with
  | nil => rfl
  | cons c rest ih =>
    rw [byteLength, ih, String.ofList_cons, String.utf8ByteSize_append]
    simp

/-! ## Offsets -/

namespace Cursor

variable {c c' c'' : Cursor}

/-- The second place comes after the first in one text. -/
def Reaches (c c' : Cursor) : Prop :=
  ∃ chars, c.rest = chars ++ c'.rest ∧ c'.offset = c.offset + byteLength chars

theorem Reaches.trans (h : c.Reaches c') (h' : c'.Reaches c'') : c.Reaches c'' := by
  obtain ⟨first, hrest, hoffset⟩ := h
  obtain ⟨second, hrest', hoffset'⟩ := h'
  refine ⟨first ++ second, by rw [hrest, hrest', List.append_assoc], ?_⟩
  rw [hoffset', hoffset, byteLength_append, Nat.add_assoc]

theorem reaches_skip (p : Char → Bool) (c : Cursor) : c.Reaches (c.skip p) :=
  ⟨c.run p, c.rest_eq_run_append p, rfl⟩

theorem reaches_afterWord (c : Cursor) : c.Reaches c.afterWord :=
  ((reaches_skip _ _).trans (reaches_skip _ _)).trans (reaches_skip _ _)

theorem reaches_of_eat? {expected : Char} (heat : c.eat? expected = some c') : c.Reaches c' := by
  unfold eat? at heat
  split at heat
  case h_1 => cases heat
  case h_2 d rest hrest =>
    split at heat
    case isTrue =>
      cases heat
      exact ⟨[d], hrest, rfl⟩
    case isFalse => cases heat

theorem stops_skip (p : Char → Bool) (c : Cursor) : Stops p (c.skip p).rest := by
  intro ch hch
  have hstops := List.head?_dropWhile_not p c.rest
  change (c.rest.dropWhile p).head? = some ch at hch
  rwa [hch] at hstops

end Cursor

variable {room : Nat} {c c' : Cursor} {e : TypeExpr} {m : Malformed}

/-- What is read ends at a place further on. -/
theorem reaches_of_read (hread : read room c = .ok (e, c')) : c.Reaches c' := by
  induction room using Nat.strongRecOn generalizing c e c' with
  | ind room ih =>
  rcases read_cases hread with ⟨-, -, rfl⟩ |
    ⟨room, modifier, base, inside, afterBase, rfl, -, -, hopen, hbase, hclose⟩
  · exact c.reaches_afterWord
  · exact ((c.reaches_afterWord.trans (Cursor.reaches_of_eat? hopen)).trans
      (ih room (Nat.lt_succ_self room) hbase)).trans
      ((Cursor.reaches_skip _ _).trans (Cursor.reaches_of_eat? hclose))

/-- A reading that is refused is refused at the word it starts with, or in the base, or after the
base where the closing bracket should stand. -/
theorem read_error_cases (hread : read room c = .error m) :
    (m.offset = (c.skip isBlank).offset ∧ m.reason ≠ .trailing) ∨
    ∃ room' inside, room = room' + 1 ∧ c.afterWord.eat? '<' = some inside ∧
      (read room' inside = .error m ∨ ∃ base afterBase,
        read room' inside = .ok (base, afterBase) ∧
        m = ⟨(afterBase.skip isBlank).offset, .noClosing⟩) := by
  revert hread
  fun_cases read room c with
  | case1 | case3 | case4 | case5 =>
    intro hread
    cases hread
    exact Or.inl ⟨rfl, fun hreason => by cases hreason⟩
  | case2 | case8 =>
    intro hread
    cases hread
  | case6 start name after hne modifier inside hopen hmodifier room malformed hbase =>
    intro hread
    cases hread
    exact Or.inr ⟨room, inside, rfl, hopen, Or.inl hbase⟩
  | case7 start name after hne modifier inside hopen hmodifier room base afterBase hbase close
      hclose =>
    intro hread
    cases hread
    exact Or.inr ⟨room, inside, rfl, hopen, Or.inr ⟨base, afterBase, hbase, rfl⟩⟩

/-- A refusal is at a place further on, and not for what follows the type. -/
theorem exists_place_of_read (hread : read room c = .error m) :
    (∃ place, c.Reaches place ∧ m.offset = place.offset) ∧ m.reason ≠ .trailing := by
  induction room using Nat.strongRecOn generalizing c with
  | ind room ih =>
  rcases read_error_cases hread with ⟨hoffset, hreason⟩ | ⟨room, inside, rfl, hopen, hinside⟩
  · exact ⟨⟨_, c.reaches_skip isBlank, hoffset⟩, hreason⟩
  · have hreaches := c.reaches_afterWord.trans (Cursor.reaches_of_eat? hopen)
    rcases hinside with hbase | ⟨base, afterBase, hbase, rfl⟩
    · obtain ⟨⟨place, hplace, hoffset⟩, hreason⟩ := ih room (Nat.lt_succ_self room) hbase
      exact ⟨⟨place, hreaches.trans hplace, hoffset⟩, hreason⟩
    · have hclose := (reaches_of_read hbase).trans (afterBase.reaches_skip isBlank)
      exact ⟨⟨_, hreaches.trans hclose, rfl⟩, fun hreason => by cases hreason⟩

/-! ## Calls -/

/-- The base of a layer is shorter than the layer. -/
theorem length_inside_lt {inside : Cursor} (hopen : c.afterWord.eat? '<' = some inside) :
    inside.rest.length < c.rest.length := by
  obtain ⟨before, between, -, -, hrest⟩ := c.rest_eq_word_append
  rw [hrest, Cursor.eat?_eq_some hopen]
  simp only [List.length_append, List.length_cons]
  omega

/-- Closes a layer after its base has been read. -/
def closeLayer (modifier : Modifier) :
    Except Malformed (TypeExpr × Cursor) → Except Malformed (TypeExpr × Cursor)
  | .error malformed => .error malformed
  | .ok (base, afterBase) =>
    let close := afterBase.skip isBlank
    match close.eat? '>' with
    | none => .error ⟨close.offset, .noClosing⟩
    | some afterClose => .ok (.layer modifier base, afterClose)

theorem exists_base_of_closeLayer {modifier : Modifier}
    {inner : Except Malformed (TypeExpr × Cursor)}
    (hclose : closeLayer modifier inner = .ok (e, c')) :
    ∃ base afterBase, inner = .ok (base, afterBase) ∧ e = .layer modifier base := by
  unfold closeLayer at hclose
  split at hclose
  case h_1 => cases hclose
  case h_2 base afterBase =>
    dsimp only at hclose
    split at hclose
    case h_1 => cases hclose
    case h_2 =>
      cases hclose
      exact ⟨base, afterBase, rfl, rfl⟩

/-- Closing a layer fails where its base does, or for want of the bracket. -/
theorem error_of_closeLayer {modifier : Modifier} {inner : Except Malformed (TypeExpr × Cursor)}
    (hclose : closeLayer modifier inner = .error m) :
    inner = .error m ∨ m.reason = .noClosing := by
  unfold closeLayer at hclose
  split at hclose
  case h_1 =>
    cases hclose
    exact Or.inl rfl
  case h_2 =>
    dsimp only at hclose
    split at hclose
    case h_1 =>
      cases hclose
      exact Or.inr rfl
    case h_2 => cases hclose

/-- Reads a written type inside of `depth` layers, and counts how many readings are under way at
once at most. -/
def readNested (depth : Nat) (c : Cursor) : Except Malformed (TypeExpr × Cursor) × Nat :=
  let start := (c.skip isBlank).offset
  let name := String.ofList c.word
  if c.word.isEmpty then (.error ⟨start, .noName⟩, 1)
  else
    match Modifier.ofName? name, hopen : c.afterWord.eat? '<' with
    | none, none => (.ok (.basic name, c.afterWord), 1)
    | none, some _ => (.error ⟨start, .takesNoBase name⟩, 1)
    | some _, none => (.error ⟨start, .needsBase name⟩, 1)
    | some modifier, some inside =>
      if depth = maxDepth then (.error ⟨start, .tooDeep⟩, 1)
      else
        have := length_inside_lt hopen
        let inner := readNested (depth + 1) inside
        (closeLayer modifier inner.1, inner.2 + 1)
termination_by c.rest.length

/-- A written type is read by its first word and the bracket after it. -/
theorem read_eq (room : Nat) (c : Cursor) : read room c =
    if c.word.isEmpty then .error ⟨(c.skip isBlank).offset, .noName⟩
    else
      match Modifier.ofName? (String.ofList c.word), c.afterWord.eat? '<' with
      | none, none => .ok (.basic (String.ofList c.word), c.afterWord)
      | none, some _ => .error ⟨(c.skip isBlank).offset, .takesNoBase (String.ofList c.word)⟩
      | some _, none => .error ⟨(c.skip isBlank).offset, .needsBase (String.ofList c.word)⟩
      | some modifier, some inside =>
        match room with
        | 0 => .error ⟨(c.skip isBlank).offset, .tooDeep⟩
        | room + 1 => closeLayer modifier (read room inside) := by
  rw [read]
  rfl

/-- Counting does not change what is read: inside of `depth` layers there is room for the rest. -/
theorem readNested_fst {depth : Nat} (hdepth : depth ≤ maxDepth) :
    (readNested depth c).1 = read (maxDepth - depth) c := by
  fun_induction readNested depth c with
  | case1 depth c start hword => rw [read_eq, if_pos hword]
  | case2 depth c name hword hopen hmodifier => rw [read_eq, if_neg hword, hopen, hmodifier]
  | case3 depth c start name hword inside hopen hmodifier =>
    rw [read_eq, if_neg hword, hopen, hmodifier]
  | case4 depth c start name hword modifier hopen hmodifier =>
    rw [read_eq, if_neg hword, hopen, hmodifier]
  | case5 c start name hword modifier inside hopen hmodifier =>
    rw [read_eq, if_neg hword, hopen, hmodifier, Nat.sub_self]
  | case6 depth c name hword modifier inside hopen hmodifier hroom hshorter inner ih =>
    have hdepth : depth + 1 ≤ maxDepth := by omega
    have hsucc : maxDepth - depth = maxDepth - (depth + 1) + 1 := by omega
    rw [read_eq, if_neg hword, hopen, hmodifier, hsucc]
    exact congrArg (closeLayer modifier) (ih hdepth)

/-- As many readings are under way at once as there are layers left, and one more. -/
theorem readNested_snd_le {depth : Nat} (hdepth : depth ≤ maxDepth) :
    (readNested depth c).2 ≤ maxDepth - depth + 1 := by
  fun_induction readNested depth c with
  | case6 depth c name hword modifier inside hopen hmodifier hroom hshorter inner ih =>
    have hinner : inner.2 ≤ maxDepth - (depth + 1) + 1 := ih (by omega)
    change inner.2 + 1 ≤ maxDepth - depth + 1
    omega
  | _ => exact Nat.le_add_left 1 _

/-- Where a type is read, every layer of it took a reading, and its name one more. -/
theorem readNested_snd_of_ok {depth : Nat} (hread : (readNested depth c).1 = .ok (e, c')) :
    (readNested depth c).2 = e.depth + 1 := by
  fun_induction readNested depth c generalizing e c'
  case case2 =>
    cases hread
    rfl
  case case6 ih =>
    obtain ⟨base, afterBase, hbase, rfl⟩ := exists_base_of_closeLayer hread
    exact congrArg (· + 1) (ih hbase)
  all_goals cases hread

/-- Where a text is refused for its depth, all readings that there can be are under way. -/
theorem readNested_snd_of_tooDeep {depth : Nat} (hdepth : depth ≤ maxDepth)
    (hread : (readNested depth c).1 = .error m) (hreason : m.reason = .tooDeep) :
    (readNested depth c).2 = maxDepth - depth + 1 := by
  fun_induction readNested depth c
  case case2 => cases hread
  case case5 => rw [Nat.sub_self]
  case case6 depth c name hword modifier inside hopen hmodifier hroom hshorter inner ih =>
    rcases error_of_closeLayer hread with hinner | hclosing
    · have hcount : inner.2 = maxDepth - (depth + 1) + 1 := ih (by omega) hinner
      change inner.2 + 1 = maxDepth - depth + 1
      omega
    · rw [hclosing] at hreason
      cases hreason
  all_goals
    cases hread
    cases hreason

/-! ## Refused texts -/

variable {text : String}

/-- A place that is reached from the beginning of a text is between two of its characters. -/
theorem isValid_of_reaches {place : Cursor} (h : Cursor.Reaches ⟨0, text.toList⟩ place) :
    String.Pos.Raw.IsValid text ⟨place.offset⟩ := by
  obtain ⟨chars, hrest, hoffset⟩ := h
  refine String.Pos.Raw.isValid_iff_exists_append.2
    ⟨String.ofList chars, String.ofList place.rest, ?_, ?_⟩
  · rw [← String.ofList_append, ← hrest, String.ofList_toList]
  · rw [hoffset, Nat.zero_add, byteLength_eq_utf8ByteSize]
    rfl

theorem parse_error_cases (hparse : parse text = .error m) :
    read maxDepth ⟨0, text.toList⟩ = .error m ∨
    ∃ e last, read maxDepth ⟨0, text.toList⟩ = .ok (e, last) ∧ (last.skip isBlank).rest ≠ [] ∧
      m = ⟨(last.skip isBlank).offset, .trailing⟩ := by
  unfold parse at hparse
  split at hparse
  case h_1 malformed hread =>
    cases hparse
    exact Or.inl hread
  case h_2 e last hread =>
    by_cases hlast : (last.skip isBlank).rest.isEmpty
    · rw [if_pos hlast] at hparse
      cases hparse
    · rw [if_neg hlast] at hparse
      cases hparse
      exact Or.inr ⟨e, last, hread, fun hnil => hlast (List.isEmpty_iff.2 hnil), rfl⟩

/-- Where something follows a written type, what is before it is that written type. -/
theorem parse_prefix_of_trailing {last : Cursor}
    (hread : read maxDepth ⟨0, text.toList⟩ = .ok (e, last))
    (hlast : (last.skip isBlank).rest ≠ []) :
    ∃ (before : String) (next : Char) (after : List Char),
      text.toList = before.toList ++ next :: after ∧
      before.utf8ByteSize = (last.skip isBlank).offset ∧ isBlank next = false ∧
      parse before = .ok e := by
  obtain ⟨next, after, hnext⟩ := List.exists_cons_of_ne_nil hlast
  obtain ⟨before, hbefore, hoffset⟩ := (reaches_of_read hread).trans (last.reaches_skip isBlank)
  obtain ⟨chars, hchars, hderives, hdepth⟩ := derives_of_read hread
  -- the blanks that are skipped after the type belong to it
  have heq : before = chars ++ last.run isBlank := by
    rw [last.rest_eq_run_append isBlank, ← List.append_assoc] at hchars
    exact List.append_cancel_right (hbefore.symm.trans hchars)
  refine ⟨String.ofList before, next, after, ?_, ?_, ?_, ?_⟩
  · rw [String.toList_ofList, ← hnext]
    exact hbefore
  · rw [hoffset, Nat.zero_add, byteLength_eq_utf8ByteSize]
  · exact last.stops_skip isBlank next (by rw [hnext]; rfl)
  · rw [parse_eq_ok_iff, String.toList_ofList, heq]
    exact read_of_derives (hderives.append_blanks last.blanks_run) hdepth
      (List.append_nil _).symm fun _ hch => nomatch hch

/-- No other reason has the words of this one. -/
theorem eq_trailing_of_text {reason : Reason} (h : reason.text = "unexpected input after type") :
    reason = .trailing := by
  cases reason with
  | trailing => rfl
  | needsBase name =>
    have hhead := congrArg (fun words => words.toList.head?) h
    simp [Reason.text, String.toList_append] at hhead
  | takesNoBase name =>
    have hhead := congrArg (fun words => words.toList.head?) h
    simp [Reason.text, String.toList_append] at hhead
  | _ => exact absurd h (by decide)

/-- The refusal stands between two characters of the text, and where it is for what follows the
type, at something that is not blank and comes after a written type. -/
structure Malformed.PlacedIn (text : String) (m : Malformed) : Prop where
  /-- It is not after the end. -/
  le_size : m.offset ≤ text.utf8ByteSize
  /-- It is not inside of a character. -/
  isValid : String.Pos.Raw.IsValid text ⟨m.offset⟩
  /-- What is before something that follows is a written type. -/
  trailing : m.reason.text = "unexpected input after type" →
    ∃ (before : String) (next : Char) (after : List Char),
      text.toList = before.toList ++ next :: after ∧ before.utf8ByteSize = m.offset ∧
      isBlank next = false ∧ ∃ e, parse before = .ok e

/-- Texts are refused at places of theirs. The readings that nest in each other are as many as the
layers that are read and one more, and no text makes more than 65 of them nest; a text that is
refused for its depth makes as many. -/
theorem refusals_placed_and_calls_bounded (text : String) :
    (∀ m, parse text = .error m → m.PlacedIn text) ∧
    (readNested 0 ⟨0, text.toList⟩).1 = read maxDepth ⟨0, text.toList⟩ ∧
    (∀ e last, read maxDepth ⟨0, text.toList⟩ = .ok (e, last) →
      (readNested 0 ⟨0, text.toList⟩).2 = e.depth + 1) ∧
    (∀ m, read maxDepth ⟨0, text.toList⟩ = .error m → m.reason = .tooDeep →
      (readNested 0 ⟨0, text.toList⟩).2 = 65) ∧
    (readNested 0 ⟨0, text.toList⟩).2 ≤ 65 := by
  have hsame : (readNested 0 ⟨0, text.toList⟩).1 = read maxDepth ⟨0, text.toList⟩ :=
    readNested_fst (Nat.zero_le maxDepth)
  refine ⟨fun m hparse => ?_, hsame,
    fun e last hread => readNested_snd_of_ok (hsame.trans hread),
    fun m hread hreason =>
      readNested_snd_of_tooDeep (Nat.zero_le maxDepth) (hsame.trans hread) hreason,
    readNested_snd_le (Nat.zero_le maxDepth)⟩
  rcases parse_error_cases hparse with hread | ⟨e, last, hread, hlast, rfl⟩
  · obtain ⟨⟨place, hplace, hoffset⟩, hreason⟩ := exists_place_of_read hread
    have hvalid : String.Pos.Raw.IsValid text ⟨m.offset⟩ := hoffset ▸ isValid_of_reaches hplace
    exact ⟨hvalid.le_utf8ByteSize, hvalid, fun htext => absurd (eq_trailing_of_text htext) hreason⟩
  · have hvalid := isValid_of_reaches ((reaches_of_read hread).trans (last.reaches_skip isBlank))
    obtain ⟨before, next, after, htext, hsize, hblank, hbefore⟩ :=
      parse_prefix_of_trailing hread hlast
    exact ⟨hvalid.le_utf8ByteSize, hvalid,
      fun _ => ⟨before, next, after, htext, hsize, hblank, e, hbefore⟩⟩

/-- A written type with letters of two bytes, and something after it. -/
theorem trailingLetter_placed :
    parse "Topology<größe> ü" = .error ⟨18, .trailing⟩ ∧
    Malformed.PlacedIn "Topology<größe> ü" ⟨18, .trailing⟩ := by
  have hparse : parse "Topology<größe> ü" = .error ⟨18, .trailing⟩ := by decide +kernel
  exact ⟨hparse, (refusals_placed_and_calls_bounded "Topology<größe> ü").1 _ hparse⟩

end SpaceTypes.TypeExpr
