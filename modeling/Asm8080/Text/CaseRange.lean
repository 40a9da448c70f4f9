import Asm8080.Text.Basic

/-!
Contract: simple letter-case mappings as ranges of code points.

Owns: the range type, the test whether a range covers a code point, and the
shift that it applies. Neighbouring letters of one script share a shift, and
alternating pairs share one with stride two, so a mapping is a short table.

Does not own: the tables themselves.
-/

namespace Asm8080

/-- Every `stride`-th code point from `first` to `last` maps to the code point
`shift` places away. -/
structure CaseRange where
  first : Nat
  last : Nat
  stride : Nat
  shift : Int
deriving DecidableEq, Repr

namespace CaseRange

def covers (range : CaseRange) (code : Nat) : Bool :=
  decide (range.first ≤ code) && decide (code ≤ range.last) &&
    decide ((code - range.first) % range.stride = 0)

/-- The character that the range maps a covered code point to. -/
def image (range : CaseRange) (code : Nat) : Char :=
  Char.ofNat (Int.toNat (code + range.shift))

/-- The image under the first range that covers the character, or the character
itself if none does. -/
def apply (ranges : List CaseRange) (character : Char) : Char :=
  match ranges.find? fun range => range.covers character.toNat with
  | some range => range.image character.toNat
  | none => character

end CaseRange

end Asm8080
