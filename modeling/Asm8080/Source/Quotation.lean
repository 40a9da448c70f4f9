import Asm8080.Text.Numeral
import Asm8080.Text.Quoted

/-!
Contract: quotations set aside while the text around them is folded.

Owns:
- the placeholder, an opening mark, the decimal index of a quotation and a
  closing mark, all from the private-use area;
- `protect`, which puts a placeholder for each closed quotation and keeps the
  quotations in order;
- `restore`, which puts the quotations back.

Does not own: an unclosed quotation, which stays in the text as it is.
-/

namespace Asm8080.Quotation

def openMark : Char :=
  '\uE001'

def closeMark : Char :=
  '\uE002'

/-- A text with placeholders, and the quotations that they stand for. -/
structure Masked where
  text : Text
  quotations : List Text
deriving DecidableEq, Repr

def placeholder (content : Text) : Text :=
  openMark :: content ++ [closeMark]

/-- The text of the spans with the closed quotations numbered from `index`. -/
def maskFrom (index : Nat) : List Quoted.Span → Text
  | [] => []
  | .plain character :: tail => character :: maskFrom index tail
  | .closed _ :: tail => placeholder (Numeral.decimal index) ++ maskFrom (index + 1) tail
  | .unclosed body :: tail => quoteMark :: body ++ maskFrom index tail

/-- Sets the closed quotations aside. -/
def protect (text : Text) : Masked where
  text := maskFrom 0 (Quoted.spans text)
  quotations := Quoted.quotations text

/-- The quotation that a placeholder's content names; a content that names none
stays as it was, with both marks. -/
def resolve (quotations : List Text) (content : Text) : Text :=
  match (Numeral.unsigned64? content).bind fun index => quotations[index]? with
  | some quotation => quotation
  | none => placeholder content

/-- Restoration in progress; after an opening mark the state holds the content so
far, latest first. -/
def restoreFrom (quotations : List Text) : Option Text → Text → Text
  | none, [] => []
  | some content, [] => resolve quotations content.reverse
  | none, head :: tail =>
      if head = openMark then restoreFrom quotations (some []) tail
      else head :: restoreFrom quotations none tail
  | some content, head :: tail =>
      if head = closeMark then
        resolve quotations content.reverse ++ restoreFrom quotations none tail
      else restoreFrom quotations (some (head :: content)) tail

/-- Puts quotations back in place of their placeholders. A placeholder that the
text does not close ends with the text. -/
def restore (quotations : List Text) (text : Text) : Text :=
  restoreFrom quotations none text

end Asm8080.Quotation
