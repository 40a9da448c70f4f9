import Asm8080.Directive
import Asm8080.Opcode
import Asm8080.Text.Blank
import Asm8080.Text.Numeral

/-!
Contract: opcode bytes in place of mnemonics.

Owns:
- the word boundaries between which a mnemonic stands;
- the match of the longest mnemonic at a position;
- the substitution of every mnemonic by the hexadecimal text of its byte.

Does not own: letter case and blanks, which are folded before this stage.
-/

namespace Asm8080.Mnemonic

/-- The mnemonics that source text can spell, longest first. A directive keyword
is never a mnemonic. -/
def candidates : List (UInt8 × Opcode) :=
  Opcode.longestFirst.filter fun candidate =>
    (Directive.ofToken? candidate.2.mnemonic).isNone

/-- Whether a mnemonic may end where the text `rest` follows: it ends in a comma,
or white space or the end of the text follows. -/
def endsBefore (mnemonic rest : Text) : Bool :=
  mnemonic.getLast? == some ',' || rest.head?.all isWhiteSpace

/-- Whether the mnemonic stands at the start of the text as a whole word. -/
def standsAt (mnemonic text : Text) : Bool :=
  match mnemonic.isPrefixOf? text with
  | some rest => endsBefore mnemonic rest
  | none => false

/-- The first mnemonic of a table that stands at the start of the text, with its
byte. -/
def matchIn? (table : List (UInt8 × Opcode)) (text : Text) : Option (UInt8 × Opcode) :=
  table.find? fun candidate => standsAt candidate.2.mnemonic text

/-- The longest mnemonic at the start of the text, with its byte. -/
def match? (text : Text) : Option (UInt8 × Opcode) :=
  matchIn? candidates text

/-- Whether a mnemonic may start after the character. -/
def isBoundary (character : Char) : Bool :=
  isWhiteSpace character || character == ':'

/-- The text of an opcode byte. A byte whose digits spell a directive keyword gets
a leading zero. -/
def byteText (byte : UInt8) : Text :=
  let hex := Numeral.hexByte byte
  if (Directive.ofToken? hex).isSome then '0' :: hex else hex

/-- Substitution in progress, with the mnemonics of a table: `skip` characters of
the last mnemonic are still to be passed over, and `atBoundary` tells whether a
mnemonic may start here. After a mnemonic the next one may follow at once. -/
def substituteFrom (table : List (UInt8 × Opcode)) (atBoundary : Bool) : Nat → Text → Text
  | _, [] => []
  | skip + 1, _ :: tail => substituteFrom table atBoundary skip tail
  | 0, head :: tail =>
      match if atBoundary then matchIn? table (head :: tail) else none with
      | some (byte, opcode) =>
          byteText byte ++
            ' ' :: substituteFrom table atBoundary (opcode.mnemonic.length - 1) tail
      | none => head :: substituteFrom table (isBoundary head) 0 tail

/-- Replaces every mnemonic that starts at a word boundary by the text of its byte
and a space. -/
def substitute (text : Text) : Text :=
  substituteFrom candidates true 0 text

end Asm8080.Mnemonic
