import Asm8080.Listing
import Asm8080.Object.Code
import Asm8080.Pass.Survey

/-!
Contract: the second pass, which emits bytes, listing and diagnostics.

Owns:
- what each statement emits, given the symbols of the first pass: its line, its
  bytes and at most one fault. A faulty statement fills its space with zeros, so
  that everything behind it keeps its address;
- the record of each statement with its place and its address check;
- the sequence of records of a program.

Does not own: the symbols, which this pass only reads.
-/

namespace Asm8080

/-- What a statement emits. `entry` is the text behind the address column. -/
structure Emission where
  entry : Text
  bytes : List UInt8
  fault : Option Fault
deriving DecidableEq, Repr

namespace Emission

def line (entry : Text) : Emission :=
  ⟨entry, [], none⟩

/-- Emits a line that shows a fault, and zeros for the space of the statement. -/
def failure (entry : Text) (size : Nat) (fault : Fault) : Emission :=
  ⟨entry, List.replicate size 0, some fault⟩

/-- A word as two bytes, low byte first. -/
def wordBytes (word : UInt16) : List UInt8 :=
  [UInt8.ofNat (word.toNat % 256), UInt8.ofNat (word.toNat / 256)]

/-- The emission of a definition whose name has a value already. -/
def ofRepetition (name : Text) : Emission :=
  let fault := Fault.duplicateLabel name
  failure (Listing.duplicate fault) 0 fault

def ofEquate (name : Text) : Option UInt16 → Emission
  | some value => line (Listing.equate name value)
  | none => failure (Listing.badEquate name .missingEquValue) 0 .missingEquValue

def ofOrigin : Option UInt16 → Emission
  | some value => line (Listing.origin value)
  | none => failure (Listing.badDirective "org".toList .missingOrigin) 0 .missingOrigin

def ofReserve : Option UInt16 → Emission
  | some count =>
      ⟨Listing.directive "ds".toList (Numeral.decimal count.toNat),
        List.replicate count.toNat 0, none⟩
  | none => failure (Listing.badDirective "ds".toList .missingCount) 0 .missingCount

def ofBytes (labels : LabelTable) (operand : Option Token) : Emission :=
  match operand.bind (ValueList.bytes? labels) with
  | some data => ⟨Listing.directive "db".toList data.shown, data.value, none⟩
  | none =>
      failure (Listing.badDirective "db".toList .invalidData)
        (Counter.listSize ValueList.bytesSize operand) .invalidData

def ofWords (labels : LabelTable) (operand : Option Token) : Emission :=
  match operand.bind (ValueList.words? labels) with
  | some data => ⟨Listing.directive "dw".toList data.shown, data.value.flatMap wordBytes, none⟩
  | none =>
      failure (Listing.badDirective "dw".toList .invalidData)
        (Counter.listSize ValueList.wordsSize operand) .invalidData

def byteFault : Literal.Fault → Fault
  | .outOfRange _ => .outOfRange
  | _ => .invalidOperand

def wordFault : Literal.Fault → Fault
  | .outOfRange _ => .outOfRange
  | _ => .labelNotFound

def byteOperand (labels : LabelTable) : Option Token → Except Fault (Resolved UInt8)
  | some operand => (Operand.byte labels operand).mapError byteFault
  | none => .error .invalidOperand

def wordOperand (labels : LabelTable) : Option Token → Except Fault (Resolved UInt16)
  | some operand => (Operand.word labels operand).mapError wordFault
  | none => .error .labelNotFound

/-- The emission of an instruction. A bad operand leaves zeros behind the opcode
byte. -/
def ofInstruction (labels : LabelTable) (byte : UInt8) (opcode : Opcode)
    (operand : Option Token) : Emission :=
  match opcode.operand with
  | .none => ⟨Listing.instruction [byte] opcode.mnemonic none, [byte], none⟩
  | .byte =>
      match byteOperand labels operand with
      | .ok resolved =>
          ⟨Listing.instruction [byte, resolved.value] opcode.mnemonic (some resolved.shown),
            [byte, resolved.value], none⟩
      | .error fault => ⟨Listing.badByte byte opcode.mnemonic fault, [byte, 0], some fault⟩
  | .word =>
      match wordOperand labels operand with
      | .ok resolved =>
          ⟨Listing.instruction (byte :: wordBytes resolved.value) opcode.mnemonic
              (some resolved.shown),
            byte :: wordBytes resolved.value, none⟩
      | .error fault => ⟨Listing.badWord byte opcode.mnemonic fault, [byte, 0, 0], some fault⟩

/-- The emission of a token that is no instruction: a label's name stands for
nothing, anything else is a fault. -/
def ofMention (labels : LabelTable) (token : Token) : Emission :=
  if (labels.resolve? token).isSome then line (Listing.label token)
  else failure (Listing.badToken (.unknownOpcode token)) 0 (.unknownOpcode token)

def ofStatement (symbols : Symbols) (located : Located) : Emission :=
  match located.statement with
  | .label name =>
      if symbols.isRepetition located.index then ofRepetition name
      else line (Listing.label name)
  | .equate name operand =>
      if symbols.isRepetition located.index then ofRepetition name
      else ofEquate name (Counter.operandValue? symbols.labels located.index operand)
  | .origin operand => ofOrigin (Counter.operandValue? symbols.labels located.index operand)
  | .bytes operand => ofBytes symbols.labels operand
  | .reserve operand => ofReserve (Counter.operandValue? symbols.labels located.index operand)
  | .words operand => ofWords symbols.labels operand
  | .strayEquate _ =>
      failure (Listing.badDirective "equ".toList .missingEquLabel) 0 .missingEquLabel
  | .finish => line Listing.finish
  | .instruction byte opcode operand => ofInstruction symbols.labels byte opcode operand
  | .undefined token =>
      failure (Listing.badToken (.unknownInstruction token)) 0 (.unknownInstruction token)
  | .mention token => ofMention symbols.labels token

end Emission

/-- A statement as the second pass met it: where it starts, where the next one
starts, what it emits, and whether it is the one that reports an overflow of the
address space. -/
structure Record where
  located : Located
  start : Nat
  next : Nat
  emission : Emission
  overflows : Bool
deriving DecidableEq, Repr

namespace Record

/-- One past the highest address. -/
def addressLimit : Nat :=
  0x10000

def text (entry : Record) : Text :=
  Listing.address entry.start ++ entry.emission.entry ++
    if entry.overflows then Listing.badToken .addressOverflow else []

/-- The bytes that a record emits, at their addresses. -/
def cells (entry : Record) : List Cell :=
  Cell.place entry.start entry.emission.bytes

/-- The diagnostics of a record: its own fault where it starts, then the overflow
where it ends. -/
def diagnostics (entry : Record) : List Diagnostic :=
  (match entry.emission.fault with
    | some fault => [⟨entry.start, fault⟩]
    | none => []) ++
    if entry.overflows then [⟨entry.next, .addressOverflow⟩] else []

/-- The records of the statements from `pc` on; an overflow is reported once. -/
def list (symbols : Symbols) : Bool → Nat → List Located → List Record
  | _, _, [] => []
  | overflowed, pc, located :: tail =>
      let next := Counter.after symbols.labels pc located
      let overflows := !overflowed && decide (addressLimit < next)
      ⟨located, pc, next, Emission.ofStatement symbols located, overflows⟩ ::
        list symbols (overflowed || overflows) next tail

def finalCounter (records : List Record) : Nat :=
  match records.getLast? with
  | some record => record.next
  | none => 0

end Record

end Asm8080
