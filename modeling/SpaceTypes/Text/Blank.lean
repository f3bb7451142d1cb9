import SpaceTypes.Text.CodePoints

/-!
# Blank characters

The characters that may stand between the parts of a written type: those with the Unicode
property `White_Space`. Beside the ASCII blanks these are the next line control, the no-break
space, the spaces of general punctuation, the line and paragraph separators and the ideographic
space. The zero-width space and the byte order mark are not blank.
-/

namespace SpaceTypes.Text

/-- The blank characters as ranges of code points. -/
def blankRanges : List (Nat × Nat) :=
  [(0x9, 0xD), (0x20, 0x20), (0x85, 0x85), (0xA0, 0xA0), (0x1680, 0x1680), (0x2000, 0x200A),
   (0x2028, 0x2029), (0x202F, 0x202F), (0x205F, 0x205F), (0x3000, 0x3000)]

/-- Whether the character is blank. -/
def isBlank (c : Char) : Bool := inRanges blankRanges c

end SpaceTypes.Text
