import Asm8080.Fault
import Asm8080.Operand

/-!
Contract: the text of the annotated listing.

Owns: the address column and the line of each kind of statement, well formed or
not, and the closing remarks.

Does not own: which line a statement gets.
-/

namespace Asm8080.Listing

def address (pc : Nat) : Text :=
  Numeral.hexWord (UInt16.ofNat pc) ++ ": ".toList

def label (name : Text) : Text :=
  "\t\t\t".toList ++ Text.lowerCase name ++ ['\n']

def equate (name : Text) (value : UInt16) : Text :=
  "\t\t\t".toList ++ Text.lowerCase name ++ " equ ".toList ++ Operand.showWord value ++ ['\n']

def directive (keyword operand : Text) : Text :=
  "\t\t\t\t".toList ++ Text.lowerCase keyword ++ ' ' :: operand ++ ['\n']

/-- The line of an origin, one tab deeper than other directives. -/
def origin (value : UInt16) : Text :=
  "\t\t\t\t\torg ".toList ++ Operand.showWord value ++ ['\n']

/-- The line of the end directive, which the closing remark follows. -/
def finish : Text :=
  "\t\t\t\t\tend".toList

/-- The width of the byte column: that of a three-byte instruction. -/
def byteColumn : Nat :=
  6

/-- The line of an instruction: its bytes, filled up to the width of the column,
the mnemonic and the operand. -/
def instruction (bytes : List UInt8) (mnemonic : Text) (operand : Option Text) : Text :=
  bytes.flatMap Numeral.hexByte ++ List.replicate (byteColumn - 2 * bytes.length) ' ' ++
    "\t\t\t".toList ++ Text.lowerCase mnemonic ++
    (match operand with
      | some shown => ' ' :: shown
      | none => []) ++ ['\n']

def duplicate (fault : Fault) : Text :=
  "\t\t\t Error: ".toList ++ fault.message ++ ['\n']

def badEquate (name : Text) (fault : Fault) : Text :=
  "\t\t\t".toList ++ Text.lowerCase name ++ " equ ???? Error. ".toList ++ fault.message ++ ['\n']

def badDirective (keyword : Text) (fault : Fault) : Text :=
  "\t\t\t\t".toList ++ Text.lowerCase keyword ++ " ???? Error. ".toList ++ fault.message ++ ['\n']

def badToken (fault : Fault) : Text :=
  "Error. ".toList ++ fault.message ++ ['\n']

def badByte (byte : UInt8) (mnemonic : Text) (fault : Fault) : Text :=
  Numeral.hexByte byte ++ "??  \t\t\t Error: ".toList ++ fault.message ++
    ' ' :: Text.lowerCase mnemonic ++ ['\n']

def badWord (byte : UInt8) (mnemonic : Text) (fault : Fault) : Text :=
  Numeral.hexByte byte ++ "?? ?? \t\t\t".toList ++ Text.lowerCase mnemonic ++
    "????\n Error: ".toList ++ fault.message ++ ['\n']

def noCode : Text :=
  "\n\nNo code to assemble.".toList

def noErrors : Text :=
  "\n\n; No errors found.".toList

def warning : Text :=
  "\n\nWarning, contains error(s)".toList

end Asm8080.Listing
