import SpaceTypes.Text.Alphanumeric
import SpaceTypes.Text.Blank
import SpaceTypes.TypeExpr

/-!
# Reading written types

A written type is a name, or a layer word followed by `<`, a written type and `>`. Names are runs of
alphanumeric characters and underscores, as long as possible. Blanks may stand before and after
every part. Layers nest up to `maxDepth` deep.

A text that is not a written type is refused with the reason and the offset in bytes at which it
shows: a missing name or bracket where it was expected, and anything about a layer word at the
beginning of the word.
-/

namespace SpaceTypes.TypeExpr

open Text

/-- Why a text is not a written type. -/
inductive Reason where
  /-- There is no name where a type should start. -/
  | noName
  /-- There is no closing bracket where one should stand. -/
  | noClosing
  /-- Something follows the type. -/
  | trailing
  /-- The layers nest too deeply. -/
  | tooDeep
  /-- A layer word stands without a base. -/
  | needsBase (name : String)
  /-- A name that is no layer word stands with a base. -/
  | takesNoBase (name : String)
deriving DecidableEq, Repr

/-- The reason in words. -/
def Reason.text : Reason → String
  | noName => "expected a type name"
  | noClosing => "expected `>`"
  | trailing => "unexpected input after type"
  | tooDeep => "type nested too deeply"
  | needsBase name => "`" ++ name ++ "` needs a base type, as in `" ++ name ++ "<int>`"
  | takesNoBase name => "`" ++ name ++ "` does not take a base type"

/-- Where and why a text is not a written type. -/
structure Malformed where
  /-- The offset in bytes. -/
  offset : Nat
  /-- The reason. -/
  reason : Reason
deriving DecidableEq, Repr

/-- A place in a text: how many bytes were read and which characters remain. -/
structure Cursor where
  /-- The number of bytes before the place. -/
  offset : Nat
  /-- The characters after the place. -/
  rest : List Char
deriving DecidableEq, Repr

namespace Cursor

/-- The characters from here on that satisfy `p`, up to the first that does not. -/
def run (p : Char → Bool) (c : Cursor) : List Char := c.rest.takeWhile p

/-- The place after those characters. -/
def skip (p : Char → Bool) (c : Cursor) : Cursor :=
  ⟨c.offset + byteLength (c.run p), c.rest.dropWhile p⟩

/-- The place after the given character, if it stands here. -/
def eat? (expected : Char) (c : Cursor) : Option Cursor :=
  match c.rest with
  | [] => none
  | d :: rest => if d = expected then some ⟨c.offset + d.utf8Size, rest⟩ else none

end Cursor

/-- The greatest number of layers that a written type may have. -/
def maxDepth : Nat := 64

/-- Reads a written type of at most `room` layers, and gives it with the place after it. -/
def read (room : Nat) (c : Cursor) : Except Malformed (TypeExpr × Cursor) :=
  let start := c.skip isBlank
  let name := String.ofList (start.run isNameChar)
  let after := (start.skip isNameChar).skip isBlank
  if (start.run isNameChar).isEmpty then .error ⟨start.offset, .noName⟩
  else
    match Modifier.ofName? name, after.eat? '<' with
    | none, none => .ok (.basic name, after)
    | none, some _ => .error ⟨start.offset, .takesNoBase name⟩
    | some _, none => .error ⟨start.offset, .needsBase name⟩
    | some modifier, some inside =>
      match room with
      | 0 => .error ⟨start.offset, .tooDeep⟩
      | room + 1 =>
        match read room inside with
        | .error malformed => .error malformed
        | .ok (base, afterBase) =>
          let close := afterBase.skip isBlank
          match close.eat? '>' with
          | none => .error ⟨close.offset, .noClosing⟩
          | some afterClose => .ok (.layer modifier base, afterClose)

/-- Reads a text as a written type. -/
def parse (text : String) : Except Malformed TypeExpr :=
  match read maxDepth ⟨0, text.toList⟩ with
  | .error malformed => .error malformed
  | .ok (expr, after) =>
    let last := after.skip isBlank
    if last.rest.isEmpty then .ok expr else .error ⟨last.offset, .trailing⟩

end SpaceTypes.TypeExpr
