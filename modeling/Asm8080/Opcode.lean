import Asm8080.Text.Basic

/-!
Contract: the Intel 8080 instruction set as the source spells it.

Owns:
- one slot for each opcode byte, with the mnemonic as it stands in source text
  (register operands included, and a trailing comma where an immediate operand
  follows) and the kind of operand that follows it;
- lookup by byte, and the defined opcodes ordered by mnemonic length.

Does not own: how a mnemonic is found in source text.
-/

namespace Asm8080

/-- What follows the opcode byte in the encoding. -/
inductive OperandKind where
  | none
  | byte
  | word
deriving DecidableEq, Repr

def OperandKind.size : OperandKind → Nat
  | .none => 0
  | .byte => 1
  | .word => 2

/-- A defined instruction. -/
structure Opcode where
  mnemonic : Text
  operand : OperandKind
deriving DecidableEq, Repr

namespace Opcode

def length (opcode : Opcode) : Nat :=
  1 + opcode.operand.size

def plainSlot (mnemonic : String) : Option Opcode :=
  some ⟨mnemonic.toList, .none⟩

def byteSlot (mnemonic : String) : Option Opcode :=
  some ⟨mnemonic.toList, .byte⟩

def wordSlot (mnemonic : String) : Option Opcode :=
  some ⟨mnemonic.toList, .word⟩

/-- A slot that the processor leaves undefined. -/
def undefinedSlot : Option Opcode :=
  none

/-- The 256 slots, indexed by the opcode byte. The processor leaves twelve of
them undefined. -/
def slots : List (Option Opcode) :=
  [
    -- 00
    plainSlot "NOP", wordSlot "LXI B,", plainSlot "STAX B", plainSlot "INX B",
    plainSlot "INR B", plainSlot "DCR B", byteSlot "MVI B,", plainSlot "RLC",
    undefinedSlot, plainSlot "DAD B", plainSlot "LDAX B", plainSlot "DCX B",
    plainSlot "INR C", plainSlot "DCR C", byteSlot "MVI C,", plainSlot "RRC",
    -- 10
    undefinedSlot, wordSlot "LXI D,", plainSlot "STAX D", plainSlot "INX D",
    plainSlot "INR D", plainSlot "DCR D", byteSlot "MVI D,", plainSlot "RAL",
    undefinedSlot, plainSlot "DAD D", plainSlot "LDAX D", plainSlot "DCX D",
    plainSlot "INR E", plainSlot "DCR E", byteSlot "MVI E,", plainSlot "RAR",
    -- 20
    undefinedSlot, wordSlot "LXI H,", wordSlot "SHLD", plainSlot "INX H",
    plainSlot "INR H", plainSlot "DCR H", byteSlot "MVI H,", plainSlot "DAA",
    undefinedSlot, plainSlot "DAD H", wordSlot "LHLD", plainSlot "DCX H",
    plainSlot "INR L", plainSlot "DCR L", byteSlot "MVI L,", plainSlot "CMA",
    -- 30
    undefinedSlot, wordSlot "LXI SP,", wordSlot "STA", plainSlot "INX SP",
    plainSlot "INR M", plainSlot "DCR M", byteSlot "MVI M,", plainSlot "STC",
    undefinedSlot, plainSlot "DAD SP", wordSlot "LDA", plainSlot "DCX SP",
    plainSlot "INR A", plainSlot "DCR A", byteSlot "MVI A,", plainSlot "CMC",
    -- 40
    plainSlot "MOV B,B", plainSlot "MOV B,C", plainSlot "MOV B,D", plainSlot "MOV B,E",
    plainSlot "MOV B,H", plainSlot "MOV B,L", plainSlot "MOV B,M", plainSlot "MOV B,A",
    plainSlot "MOV C,B", plainSlot "MOV C,C", plainSlot "MOV C,D", plainSlot "MOV C,E",
    plainSlot "MOV C,H", plainSlot "MOV C,L", plainSlot "MOV C,M", plainSlot "MOV C,A",
    -- 50
    plainSlot "MOV D,B", plainSlot "MOV D,C", plainSlot "MOV D,D", plainSlot "MOV D,E",
    plainSlot "MOV D,H", plainSlot "MOV D,L", plainSlot "MOV D,M", plainSlot "MOV D,A",
    plainSlot "MOV E,B", plainSlot "MOV E,C", plainSlot "MOV E,D", plainSlot "MOV E,E",
    plainSlot "MOV E,H", plainSlot "MOV E,L", plainSlot "MOV E,M", plainSlot "MOV E,A",
    -- 60
    plainSlot "MOV H,B", plainSlot "MOV H,C", plainSlot "MOV H,D", plainSlot "MOV H,E",
    plainSlot "MOV H,H", plainSlot "MOV H,L", plainSlot "MOV H,M", plainSlot "MOV H,A",
    plainSlot "MOV L,B", plainSlot "MOV L,C", plainSlot "MOV L,D", plainSlot "MOV L,E",
    plainSlot "MOV L,H", plainSlot "MOV L,L", plainSlot "MOV L,M", plainSlot "MOV L,A",
    -- 70
    plainSlot "MOV M,B", plainSlot "MOV M,C", plainSlot "MOV M,D", plainSlot "MOV M,E",
    plainSlot "MOV M,H", plainSlot "MOV M,L", plainSlot "HLT", plainSlot "MOV M,A",
    plainSlot "MOV A,B", plainSlot "MOV A,C", plainSlot "MOV A,D", plainSlot "MOV A,E",
    plainSlot "MOV A,H", plainSlot "MOV A,L", plainSlot "MOV A,M", plainSlot "MOV A,A",
    -- 80
    plainSlot "ADD B", plainSlot "ADD C", plainSlot "ADD D", plainSlot "ADD E",
    plainSlot "ADD H", plainSlot "ADD L", plainSlot "ADD M", plainSlot "ADD A",
    plainSlot "ADC B", plainSlot "ADC C", plainSlot "ADC D", plainSlot "ADC E",
    plainSlot "ADC H", plainSlot "ADC L", plainSlot "ADC M", plainSlot "ADC A",
    -- 90
    plainSlot "SUB B", plainSlot "SUB C", plainSlot "SUB D", plainSlot "SUB E",
    plainSlot "SUB H", plainSlot "SUB L", plainSlot "SUB M", plainSlot "SUB A",
    plainSlot "SBB B", plainSlot "SBB C", plainSlot "SBB D", plainSlot "SBB E",
    plainSlot "SBB H", plainSlot "SBB L", plainSlot "SBB M", plainSlot "SBB A",
    -- A0
    plainSlot "ANA B", plainSlot "ANA C", plainSlot "ANA D", plainSlot "ANA E",
    plainSlot "ANA H", plainSlot "ANA L", plainSlot "ANA M", plainSlot "ANA A",
    plainSlot "XRA B", plainSlot "XRA C", plainSlot "XRA D", plainSlot "XRA E",
    plainSlot "XRA H", plainSlot "XRA L", plainSlot "XRA M", plainSlot "XRA A",
    -- B0
    plainSlot "ORA B", plainSlot "ORA C", plainSlot "ORA D", plainSlot "ORA E",
    plainSlot "ORA H", plainSlot "ORA L", plainSlot "ORA M", plainSlot "ORA A",
    plainSlot "CMP B", plainSlot "CMP C", plainSlot "CMP D", plainSlot "CMP E",
    plainSlot "CMP H", plainSlot "CMP L", plainSlot "CMP M", plainSlot "CMP A",
    -- C0
    plainSlot "RNZ", plainSlot "POP B", wordSlot "JNZ", wordSlot "JMP",
    wordSlot "CNZ", plainSlot "PUSH B", byteSlot "ADI", plainSlot "RST 0",
    plainSlot "RZ", plainSlot "RET", wordSlot "JZ", undefinedSlot,
    wordSlot "CZ", wordSlot "CALL", byteSlot "ACI", plainSlot "RST 1",
    -- D0
    plainSlot "RNC", plainSlot "POP D", wordSlot "JNC", byteSlot "OUT",
    wordSlot "CNC", plainSlot "PUSH D", byteSlot "SUI", plainSlot "RST 2",
    plainSlot "RC", undefinedSlot, wordSlot "JC", byteSlot "IN",
    wordSlot "CC", undefinedSlot, byteSlot "SBI", plainSlot "RST 3",
    -- E0
    plainSlot "RPO", plainSlot "POP H", wordSlot "JPO", plainSlot "XTHL",
    wordSlot "CPO", plainSlot "PUSH H", byteSlot "ANI", plainSlot "RST 4",
    plainSlot "RPE", plainSlot "PCHL", wordSlot "JPE", plainSlot "XCHG",
    wordSlot "CPE", undefinedSlot, byteSlot "XRI", plainSlot "RST 5",
    -- F0
    plainSlot "RP", plainSlot "POP PSW", wordSlot "JP", plainSlot "DI",
    wordSlot "CP", plainSlot "PUSH PSW", byteSlot "ORI", plainSlot "RST 6",
    plainSlot "RM", plainSlot "SPHL", wordSlot "JM", plainSlot "EI",
    wordSlot "CM", undefinedSlot, byteSlot "CPI", plainSlot "RST 7"
  ]

/-- The instruction at an index: none past the table and in an undefined slot. -/
def lookup? (index : Nat) : Option Opcode :=
  slots[index]?.join

/-- The text shown in place of a mnemonic for an undefined slot. -/
def undefinedMnemonic : Text :=
  "-".toList

def mnemonicOf (byte : UInt8) : Text :=
  match lookup? byte.toNat with
  | some opcode => opcode.mnemonic
  | none => undefinedMnemonic

/-- The defined instructions with their bytes, in table order. -/
def defined : List (UInt8 × Opcode) :=
  slots.zipIdx.filterMap fun slot => slot.1.map fun opcode => (UInt8.ofNat slot.2, opcode)

/-- The defined instructions, longest mnemonic first; mnemonics of one length keep
their table order. -/
def longestFirst : List (UInt8 × Opcode) :=
  defined.mergeSort fun left right =>
    decide (right.2.mnemonic.length ≤ left.2.mnemonic.length)

end Opcode

end Asm8080
