import Asm8080.Label
import Asm8080.Literal

/-!
Contract: the values of operands.

Owns:
- the order in which an operand is read: as a label first, then as a literal;
- the text by which the listing shows a resolved operand;
- the values that decide addresses, which see only labels defined earlier.

Does not own: the fault that an instruction or directive reports for an operand
without a value.
-/

namespace Asm8080

/-- A value and the text by which the listing shows it. -/
structure Resolved (α : Type) where
  value : α
  shown : Text
deriving DecidableEq, Repr

namespace Operand

def showByte (byte : UInt8) : Text :=
  Numeral.hexByte byte ++ ['h']

def showWord (word : UInt16) : Text :=
  Numeral.hexWord word ++ ['h']

/-- A label reference as the listing shows it: lower case, without the colons at
its end. -/
def showReference (reference : Text) : Text :=
  Text.lowerCase (reference.reverse.dropWhile fun character => character == ':').reverse

def word (labels : LabelTable) (operand : Text) : Except Literal.Fault (Resolved UInt16) :=
  match labels.resolve? operand with
  | some value => .ok ⟨value, showReference operand⟩
  | none => (Literal.word operand).map fun value => ⟨value, showWord value⟩

def byte (labels : LabelTable) (operand : Text) : Except Literal.Fault (Resolved UInt8) :=
  match labels.resolve? operand with
  | some value => (Literal.narrow value).map fun narrowed => ⟨narrowed, showReference operand⟩
  | none => (Literal.byte operand).map fun value => ⟨value, showByte value⟩

/-- The value of an operand that decides addresses, read at token `index`. Only
labels defined before that token count. -/
def valueBefore? (labels : LabelTable) (index : Nat) (operand : Text) : Option UInt16 :=
  match labels.resolveBefore? operand index with
  | some value => some value
  | none => (Literal.word operand).toOption

end Operand

end Asm8080
