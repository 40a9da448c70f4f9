/-!
Contract: source text as a list of Unicode scalar values.

Owns:
- the type `Text` shared by every stage of the assembler;
- membership of a character in a table of code-point ranges;
- search for a fixed pattern, and its left-to-right replacement.

Does not own: character classes, letter case, and numerals, which have modules
of their own.
-/

namespace Asm8080

/-- Text is the list of its characters, so that every stage is a function by
recursion on that list. -/
abbrev Text := List Char

/-- Whether one of the closed code-point ranges holds the character. -/
def inRanges (ranges : List (Nat × Nat)) (character : Char) : Bool :=
  ranges.any fun range =>
    decide (range.1 ≤ character.toNat) && decide (character.toNat ≤ range.2)

namespace Text

/-- Whether `pattern` occurs somewhere in the text. -/
def holds (pattern : Text) : Text → Bool
  | [] => pattern.isEmpty
  | head :: tail => pattern.isPrefixOf (head :: tail) || holds pattern tail

/-- Replacement in progress: `skip` characters of the last occurrence are still
to be passed over. -/
def replaceFrom (pattern replacement : Text) : Nat → Text → Text
  | _, [] => []
  | skip + 1, _ :: tail => replaceFrom pattern replacement skip tail
  | 0, head :: tail =>
      if pattern.isPrefixOf (head :: tail) then
        replacement ++ replaceFrom pattern replacement (pattern.length - 1) tail
      else
        head :: replaceFrom pattern replacement 0 tail

/-- Replaces the occurrences of a nonempty pattern, read from the left and
without overlap. -/
def replaceAll (pattern replacement text : Text) : Text :=
  replaceFrom pattern replacement 0 text

end Text

end Asm8080
