import Asm8080.Assembler
import Asm8080.Proofs.Words

/-!
Contract: programs of labelled instructions, their text and their meaning.

Owns:
- label names, hexadecimal numbers and instructions, each well formed by
  construction;
- the text of a program, one line for each instruction;
- the address of a line, the value of an operand and the code of a line, all of
  them read off the list of lines and not off the text;
- `SourceProgram`, a list of lines in which every operand has a value that fits.

Does not own: what the assembler makes of the text.
-/

namespace Asm8080

/-! ### Operands -/

/-- The name of a label: a letter, then letters, digits and underscores. In upper case
it is neither a mnemonic nor the keyword of equates. -/
structure LabelName where
  text : Text
  starts : text.head?.any Char.isAlpha = true
  characters : ∀ c ∈ text, isWordCharacter c = true
  notMnemonic : text.map Char.toUpper ∉ Mnemonic.all
  notEquate : text.map Char.toUpper ≠ Directive.equ.keyword

/-- The name in upper case. Names that fold to the same text are one name. -/
def LabelName.folded (name : LabelName) : Text :=
  name.text.map Char.toUpper

/-- A hexadecimal number as a program spells it. The digits may be of either case and
may start with zeros. -/
structure HexNumber where
  digits : Text
  hexadecimal : ∀ c ∈ digits, Numeral.isHexDigit c = true

namespace HexNumber

/-- The spelling: a zero, the digits and the letter that announces the radix. -/
def text (number : HexNumber) : Text :=
  '0' :: number.digits ++ ['H']

def value (number : HexNumber) : Nat :=
  Numeral.ofDigits 16 (number.digits.filterMap (Numeral.digitValue? 16))

end HexNumber

inductive Argument where
  | literal (number : HexNumber)
  | reference (name : LabelName)

def Argument.text : Argument → Text
  | .literal number => number.text
  | .reference name => name.text

/-! ### Lines -/

/-- A line: an instruction of the table, with or without a label and an operand. -/
structure SourceLine where
  label : Option LabelName
  byte : UInt8
  opcode : Opcode
  defined : Opcode.lookup? byte.toNat = some opcode
  argument : Option Argument

namespace SourceLine

def labelText (line : SourceLine) : Text :=
  match line.label with
  | some name => name.text ++ [':', ' ']
  | none => []

/-- The space between mnemonic and operand, which a comma at the mnemonic's end makes
needless. -/
def gap (line : SourceLine) : Text :=
  if line.argument.isNone || line.opcode.mnemonic.getLast? == some ',' then [] else [' ']

def argumentText (line : SourceLine) : Text :=
  match line.argument with
  | some argument => argument.text
  | none => []

def text (line : SourceLine) : Text :=
  line.labelText ++ line.opcode.mnemonic ++ line.gap ++ line.argumentText ++ ['\n']

/-- Whether the line has the label, whatever its letter case. -/
def isLabelled (name : LabelName) (line : SourceLine) : Bool :=
  line.label.any fun label => label.folded == name.folded

def totalLength (lines : List SourceLine) : Nat :=
  lines.foldr (fun line total => line.opcode.length + total) 0

theorem totalLength_cons (line : SourceLine) (lines : List SourceLine) :
    totalLength (line :: lines) = line.opcode.length + totalLength lines :=
  rfl

/-- The address of the line that has the label: the length of the lines before it. -/
def addressOf? (lines : List SourceLine) (name : LabelName) : Option Nat :=
  (lines.findIdx? (isLabelled name)).map fun index => totalLength (lines.take index)

/-- The value of an operand. Only the name of a label that no line has is without one. -/
def valueOf? (lines : List SourceLine) : Argument → Option Nat
  | .literal number => some number.value
  | .reference name => addressOf? lines name

def value? (lines : List SourceLine) (line : SourceLine) : Option Nat :=
  line.argument.bind (valueOf? lines)

/-- Whether the instruction takes an operand as the line has it: none at all, a byte, or
a word, which can be any label of the lines. -/
def fits (lines : List SourceLine) (line : SourceLine) : Bool :=
  match line.opcode.operand, line.argument with
  | .none, none => true
  | .byte, some argument => (valueOf? lines argument).any fun value => decide (value < 0x100)
  | .word, some (.literal number) => decide (number.value < 0x10000)
  | .word, some (.reference name) => (addressOf? lines name).isSome
  | _, _ => false

/-- The lowest bytes of a value, low byte first. -/
def littleEndian : Nat → Nat → List UInt8
  | 0, _ => []
  | size + 1, value => UInt8.ofNat (value % 256) :: littleEndian size (value / 256)

/-- The code of a line: the opcode byte and the bytes of the operand. -/
def code (lines : List SourceLine) (line : SourceLine) : List UInt8 :=
  line.byte :: littleEndian line.opcode.operand.size ((line.value? lines).getD 0)

end SourceLine

/-! ### Programs -/

/-- A program: no label twice, every operand in its range, and no byte behind the
highest address. -/
structure SourceProgram where
  lines : List SourceLine
  distinct : ((lines.filterMap SourceLine.label).map LabelName.folded).Nodup
  fitting : ∀ line ∈ lines, line.fits lines = true
  bounded : SourceLine.totalLength lines ≤ Record.addressLimit

namespace SourceProgram

def text (program : SourceProgram) : Text :=
  program.lines.flatMap SourceLine.text

def code (program : SourceProgram) : List UInt8 :=
  program.lines.flatMap (SourceLine.code program.lines)

end SourceProgram

end Asm8080
