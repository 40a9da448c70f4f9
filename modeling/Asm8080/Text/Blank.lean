import Asm8080.Text.Basic

/-!
Contract: white space as Unicode's `White_Space` property.

Owns: the property's ranges and the trimming of text at either end.

Does not own: the narrower set of blanks that a line's layout folds together.
-/

namespace Asm8080

/-- Closed code-point ranges of the `White_Space` property, in order. -/
def whiteSpaceRanges : List (Nat × Nat) :=
  [(0x09, 0x0D), (0x20, 0x20), (0x85, 0x85), (0xA0, 0xA0), (0x1680, 0x1680),
    (0x2000, 0x200A), (0x2028, 0x2029), (0x202F, 0x202F), (0x205F, 0x205F),
    (0x3000, 0x3000)]

/-- Whether the character has the `White_Space` property. -/
def isWhiteSpace (character : Char) : Bool :=
  inRanges whiteSpaceRanges character

namespace Text

def trimStart (text : Text) : Text :=
  text.dropWhile isWhiteSpace

def trimEnd (text : Text) : Text :=
  (text.reverse.dropWhile isWhiteSpace).reverse

def trim (text : Text) : Text :=
  trimEnd (trimStart text)

end Text

end Asm8080
