import Asm8080.Operand
import Asm8080.Statement
import Asm8080.ValueList

/-!
Contract: how a statement moves the program counter.

Owns: the size of every statement and the counter behind it, for a given label
table. The first pass uses the table as it stands, the second the finished one;
the two agree because only labels defined before the statement are asked.

Does not own: the bytes that fill the space.
-/

namespace Asm8080.Counter

def ceiling : Nat :=
  0xFFFFFFFF

/-- The counter moved forward by a number of bytes. It stays at its ceiling. -/
def advance (pc size : Nat) : Nat :=
  min (pc + size) ceiling

/-- The number of bytes of an operand's list, none if the operand is missing. -/
def listSize (size : Text → Nat) : Option Token → Nat
  | some list => size list
  | none => 0

/-- The value of an operand that decides addresses, if there is an operand and it
has a value. -/
def operandValue? (labels : LabelTable) (index : Nat) (operand : Option Token) :
    Option UInt16 :=
  operand.bind (Operand.valueBefore? labels index)

/-- The program counter behind a statement that starts at `pc`. -/
def after (labels : LabelTable) (pc : Nat) (located : Located) : Nat :=
  match located.statement with
  | .origin operand =>
      match operandValue? labels located.index operand with
      | some value => value.toNat
      | none => pc
  | .reserve operand =>
      match operandValue? labels located.index operand with
      | some count => advance pc count.toNat
      | none => pc
  | .bytes operand => advance pc (listSize ValueList.bytesSize operand)
  | .words operand => advance pc (listSize ValueList.wordsSize operand)
  | .instruction _ opcode _ => advance pc opcode.length
  | _ => pc

end Asm8080.Counter
