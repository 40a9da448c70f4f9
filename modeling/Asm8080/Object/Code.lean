import Asm8080.Text.Numeral

/-!
Contract: object code, the bytes that a program emits and their addresses.

Owns:
- the placed byte, and object code as the placed bytes in order of emission;
- the hexadecimal text, the byte list and the octal dump of object code. The dump
  starts a line with an address at each multiple of eight, and wherever a byte
  does not follow the one before it;
- notes between the groups of the dump.

Does not own: the reading back of hexadecimal text.
-/

namespace Asm8080

/-- A byte at its address. -/
structure Cell where
  address : Nat
  byte : UInt8
deriving DecidableEq, Repr

/-- Bytes placed one after the other from an address on. -/
def Cell.place (address : Nat) (bytes : List UInt8) : List Cell :=
  (bytes.zipIdx address).map fun placed => ⟨placed.2, placed.1⟩

/-- Emitted bytes, with the texts that their dump consists of; both latest
first. -/
structure ObjectCode where
  emitted : List Cell
  groups : List Text
deriving DecidableEq, Repr

namespace ObjectCode

def empty : ObjectCode :=
  ⟨[], []⟩

/-- The placed bytes in order of emission. -/
def cells (object : ObjectCode) : List Cell :=
  object.emitted.reverse

def next? (object : ObjectCode) : Option Nat :=
  object.emitted.head?.map fun cell => cell.address + 1

def lineStart (address : Nat) : Text :=
  '\n' :: Numeral.octalAddress address ++ ": ".toList

/-- The dump of one byte, where `next?` is the address behind the byte before. -/
def group (next? : Option Nat) (cell : Cell) : Text :=
  (if cell.address % 8 = 0 ∨ next? ≠ some cell.address then lineStart cell.address else []) ++
    Numeral.octalByte cell.byte ++ [' ']

def push (object : ObjectCode) (cell : Cell) : ObjectCode where
  emitted := cell :: object.emitted
  groups := group object.next? cell :: object.groups

def append (object : ObjectCode) (cells : List Cell) : ObjectCode :=
  cells.foldl push object

/-- Emission adds the cells behind those that are there. -/
theorem cells_append (object : ObjectCode) (cells : List Cell) :
    (object.append cells).cells = object.cells ++ cells := by
  induction cells generalizing object with
  | nil => simp [append]
  | cons head tail inductionHypothesis =>
      have pushed : (object.push head).cells = object.cells ++ [head] := by
        simp [push, ObjectCode.cells]
      calc
        (object.append (head :: tail)).cells = ((object.push head).append tail).cells := rfl
        _ = (object.push head).cells ++ tail := inductionHypothesis (object.push head)
        _ = object.cells ++ head :: tail := by simp [pushed]

def annotate (object : ObjectCode) (note : Text) : ObjectCode :=
  { object with groups := note :: object.groups }

def bytes (object : ObjectCode) : List UInt8 :=
  object.cells.map Cell.byte

def size (object : ObjectCode) : Nat :=
  object.emitted.length

def isEmpty (object : ObjectCode) : Bool :=
  object.emitted.isEmpty

/-- Two hexadecimal digits for each byte, without gaps. -/
def hex (object : ObjectCode) : Text :=
  object.bytes.flatMap Numeral.hexByte

def octal (object : ObjectCode) : Text :=
  object.groups.reverse.flatten

end ObjectCode

end Asm8080
