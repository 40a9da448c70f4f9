import Asm8080.Text.LowerCase
import Asm8080.Text.Numeral

/-!
Contract: what can be wrong with a statement.

Owns: the faults, their wording, and the diagnostic that ties a fault to an
address.

Does not own: when a fault arises. None of them stops an assembly.
-/

namespace Asm8080

/-- A mistake in the source. -/
inductive Fault where
  | duplicateLabel (name : Text)
  | unknownOpcode (token : Text)
  | unknownInstruction (token : Text)
  | missingOrigin
  | missingCount
  | invalidData
  | missingEquValue
  | missingEquLabel
  | invalidOperand
  | outOfRange
  | labelNotFound
  | addressOverflow
deriving DecidableEq, Repr

namespace Fault

/-- The wording of a fault. A label is shown in lower case. -/
def message : Fault → Text
  | .duplicateLabel name => Text.lowerCase name ++ " is already defined.".toList
  | .unknownOpcode token => "Unknown opcode: ".toList ++ token
  | .unknownInstruction token => "Unknown instruction: ".toList ++ token
  | .missingOrigin => "No value for org.".toList
  | .missingCount => "No count.".toList
  | .invalidData => "Invalid data.".toList
  | .missingEquValue => "No value for equ.".toList
  | .missingEquLabel => "No label for equ.".toList
  | .invalidOperand => "Invalid operand".toList
  | .outOfRange => "Out of range".toList
  | .labelNotFound => "Label not found.".toList
  | .addressOverflow => "Address overflow.".toList

end Fault

/-- A fault and the program counter at which it was found. -/
structure Diagnostic where
  pc : Nat
  fault : Fault
deriving DecidableEq, Repr

namespace Diagnostic

/-- The address that a diagnostic shows: the low sixteen bits of the program
counter. -/
def address (diagnostic : Diagnostic) : UInt16 :=
  UInt16.ofNat diagnostic.pc

def message (diagnostic : Diagnostic) : Text :=
  Numeral.hexWord diagnostic.address ++ "h: ".toList ++ diagnostic.fault.message

end Diagnostic

end Asm8080
