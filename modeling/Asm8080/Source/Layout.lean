import Asm8080.Text.Quoted
import Asm8080.Text.UpperCase

/-!
Contract: one spelling for each layout of a line.

Owns: upper case for every character, one space for each run of blanks outside
quotes, and no space after a comma.

Does not own: line ends, which stay, and closed quotations, which are set aside
before this stage so that only an unclosed quote can reach it.
-/

namespace Asm8080.Layout

def isBlank (character : Char) : Bool :=
  character == ' ' || character == '\t' || character == '\r'

def space (pending : Bool) : Text :=
  if pending then [' '] else []

/-- Folding in progress: `quoted` inside quotes, `pending` after a run of blanks
whose space is not yet written. -/
def foldFrom (quoted pending : Bool) : Text → Text
  | [] => space pending
  | head :: tail =>
      if head = quoteMark then space pending ++ head :: foldFrom (!quoted) false tail
      else if !quoted && isBlank head then foldFrom quoted true tail
      else space pending ++ upperCase head ++ foldFrom quoted false tail

/-- Upper case, with blank runs outside quotes folded to one space. -/
def fold (text : Text) : Text :=
  foldFrom false false text

/-- Drops one space after each comma. -/
def tightenCommas : Text → Text
  | ',' :: ' ' :: tail => ',' :: tightenCommas tail
  | head :: tail => head :: tightenCommas tail
  | [] => []

end Asm8080.Layout
