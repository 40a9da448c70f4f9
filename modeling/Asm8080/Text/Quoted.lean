import Asm8080.Text.Basic

/-!
Contract: scans that know whether they are inside single quotes.

Owns:
- the quote character, which both opens and closes a quotation;
- the text up to the first stop character outside quotes;
- the cutting of a text at break characters outside quotes;
- the division of a text into plain characters, closed quotations and an open
  one.

Does not own: what the stops, breaks and quotations mean to a caller.
-/

namespace Asm8080

/-- The character that opens and closes a quotation. -/
def quoteMark : Char :=
  '\''

namespace Quoted

/-- The text before the first stop character outside quotes; `quoted` tells
whether the scan starts inside. -/
def untilStop (isStop : Char → Bool) (quoted : Bool) : Text → Text
  | [] => []
  | head :: tail =>
      if head = quoteMark then head :: untilStop isStop (!quoted) tail
      else if !quoted && isStop head then []
      else head :: untilStop isStop quoted tail

/-- Cutting in progress; `piece` holds the characters since the last break, latest
first. -/
def splitFrom (isBreak : Char → Bool) (quoted : Bool) (piece : Text) : Text → List Text
  | [] => [piece.reverse]
  | head :: tail =>
      if head = quoteMark then splitFrom isBreak (!quoted) (head :: piece) tail
      else if !quoted && isBreak head then
        piece.reverse :: splitFrom isBreak quoted [] tail
      else splitFrom isBreak quoted (head :: piece) tail

/-- The pieces between break characters outside quotes, empty ones included. -/
def split (isBreak : Char → Bool) (text : Text) : List Text :=
  splitFrom isBreak false [] text

/-- A part of a text whose quotes are paired from the left. -/
inductive Span where
  /-- One character outside quotes. -/
  | plain (character : Char)
  /-- A quotation with both its quotes. -/
  | closed (body : Text)
  /-- A quotation that runs to the end of the text. -/
  | unclosed (body : Text)
deriving DecidableEq, Repr

/-- The text of a span, quotes included. -/
def Span.text : Span → Text
  | .plain character => [character]
  | .closed body => quoteMark :: body ++ [quoteMark]
  | .unclosed body => quoteMark :: body

/-- The quotation that a span closes, quotes included. -/
def Span.quotation? : Span → Option Text
  | .closed body => some (quoteMark :: body ++ [quoteMark])
  | _ => none

/-- Division in progress; inside a quotation the state holds its characters so
far, latest first. -/
def spansFrom : Option Text → Text → List Span
  | none, [] => []
  | some body, [] => [.unclosed body.reverse]
  | none, head :: tail =>
      if head = quoteMark then spansFrom (some []) tail
      else .plain head :: spansFrom none tail
  | some body, head :: tail =>
      if head = quoteMark then .closed body.reverse :: spansFrom none tail
      else spansFrom (some (head :: body)) tail

/-- The spans of a text, in order. -/
def spans (text : Text) : List Span :=
  spansFrom none text

private theorem flatMap_text_spansFrom (text : Text) :
    (spansFrom none text).flatMap Span.text = text ∧
      ∀ body, (spansFrom (some body) text).flatMap Span.text =
        quoteMark :: body.reverse ++ text := by
  induction text with
  | nil => simp [spansFrom, Span.text]
  | cons head tail inductionHypothesis =>
      obtain ⟨outside, inside⟩ := inductionHypothesis
      by_cases atQuote : head = quoteMark
      · simp [spansFrom, atQuote, Span.text, outside, inside]
      · simp [spansFrom, atQuote, Span.text, outside, inside]

/-- Nothing is lost: the spans put together are the text. -/
theorem flatMap_text_spans (text : Text) : (spans text).flatMap Span.text = text :=
  (flatMap_text_spansFrom text).1

/-- The closed quotations of a text, quotes included, in order. -/
def quotations (text : Text) : List Text :=
  (spans text).filterMap Span.quotation?

/-- The characters between a quote at either end. The two quotes are different
characters of the text. -/
def body? : Text → Option Text
  | [] => none
  | head :: tail =>
      if head = quoteMark ∧ tail.getLast? = some quoteMark then some tail.dropLast else none

end Quoted

end Asm8080
