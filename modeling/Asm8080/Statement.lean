import Asm8080.Directive
import Asm8080.Label
import Asm8080.Literal
import Asm8080.Opcode
import Asm8080.Token

/-!
Contract: tokens read as statements.

Owns:
- the kinds of statement, each with the operand token that it takes;
- the reading of the statement at a token, which looks at most two tokens ahead
  and never at a label's value;
- the walk over a token list, which stops behind an end directive.

Does not own: values, addresses and bytes.
-/

namespace Asm8080

/-- A statement of the program. -/
inductive Statement where
  /-- A label that takes the current address. -/
  | label (name : Text)
  /-- A label that takes the value of an operand. -/
  | equate (name : Text) (operand : Option Token)
  /-- Moves the program counter. -/
  | origin (operand : Option Token)
  /-- A list of bytes and strings. -/
  | bytes (operand : Option Token)
  /-- A number of zero bytes. -/
  | reserve (operand : Option Token)
  /-- A list of words. -/
  | words (operand : Option Token)
  /-- An equate without a label in front. -/
  | strayEquate (operand : Option Token)
  /-- The end of the program. -/
  | finish
  /-- A defined instruction. -/
  | instruction (byte : UInt8) (opcode : Opcode) (operand : Option Token)
  /-- A hexadecimal token that names no instruction. -/
  | undefined (token : Token)
  /-- Any other token: a label's name, or a mistake. -/
  | mention (token : Token)
deriving DecidableEq, Repr

namespace Statement

def operandWidth : Option Token → Nat
  | none => 0
  | some _ => 1

def width : Statement → Nat
  | .label _ => 1
  | .equate _ operand => 2 + operandWidth operand
  | .origin operand => 1 + operandWidth operand
  | .bytes operand => 1 + operandWidth operand
  | .reserve operand => 1 + operandWidth operand
  | .words operand => 1 + operandWidth operand
  | .strayEquate operand => 1 + operandWidth operand
  | .finish => 1
  | .instruction _ _ operand => 1 + operandWidth operand
  | .undefined _ => 1
  | .mention _ => 1

/-- A statement has one, two or three tokens. -/
theorem width_bounds (statement : Statement) :
    1 ≤ statement.width ∧ statement.width ≤ 3 := by
  have operandBound (operand : Option Token) : operandWidth operand ≤ 1 := by
    cases operand <;> simp [operandWidth]
  cases statement with
  | equate _ operand =>
      have bound := operandBound operand
      simp only [width]
      omega
  | origin operand | bytes operand | reserve operand | words operand | strayEquate operand =>
      have bound := operandBound operand
      simp only [width]
      omega
  | instruction _ _ operand =>
      have bound := operandBound operand
      simp only [width]
      omega
  | label _ | finish | undefined _ | mention _ => simp [width]

/-- Whether a token starts with a quote, so that it can define nothing. -/
def isQuoted (token : Token) : Bool :=
  token.head? == some quoteMark

/-- Whether the tokens behind the current one start with the equate directive. -/
def equateFollows (rest : List Token) : Bool :=
  rest.head?.any fun token => Directive.ofToken? token == some .equ

/-- Whether the token defines a label: it ends in a colon, or an equate follows. -/
def definesLabel (token : Token) (rest : List Token) : Bool :=
  (token.getLast? == some ':' || equateFollows rest) && !isQuoted token

/-- The value of a token of hexadecimal digits, up to the first index behind the
opcode table. -/
def hexValue (token : Token) : Nat :=
  Numeral.ofDigitsUpTo 0x100 16 (token.filterMap (Numeral.digitValue? 16))

/-- The instruction that a hexadecimal token names. Its operand is the next token,
whatever that is. -/
def ofHex (token : Token) (rest : List Token) : Statement :=
  match Opcode.lookup? (hexValue token) with
  | some opcode =>
      .instruction (UInt8.ofNat (hexValue token)) opcode
        (if opcode.operand = .none then none else rest.head?)
  | none => .undefined token

/-- The statement that starts at a token, where `rest` follows it. -/
def read (token : Token) (rest : List Token) : Statement :=
  if definesLabel token rest then
    if equateFollows rest then .equate (Label.fullName token) rest.tail.head?
    else .label (Label.fullName token)
  else
    match Directive.ofToken? token with
    | some .org => .origin rest.head?
    | some .end_ => .finish
    | some .db => .bytes rest.head?
    | some .ds => .reserve rest.head?
    | some .dw => .words rest.head?
    | some .equ => .strayEquate rest.head?
    | none => if Literal.isHex token then ofHex token rest else .mention token

end Statement

/-- A statement and the index of its first token. -/
structure Located where
  index : Nat
  statement : Statement
deriving DecidableEq, Repr

namespace Located

/-- The walk in progress: `index` is the index of the next token, and `skip` tokens
of the last statement are still to be passed over. -/
def listFrom (index : Nat) : Nat → List Token → List Located
  | _, [] => []
  | skip + 1, _ :: tail => listFrom (index + 1) skip tail
  | 0, head :: tail =>
      let statement := Statement.read head tail
      if statement = .finish then [⟨index, statement⟩]
      else ⟨index, statement⟩ :: listFrom (index + 1) (statement.width - 1) tail

/-- Passing over tokens is the same as starting behind them. -/
theorem listFrom_skip (index skip : Nat) (tokens : List Token) :
    listFrom index skip tokens = listFrom (index + skip) 0 (tokens.drop skip) := by
  induction skip generalizing index tokens with
  | zero => rfl
  | succ skip inductionHypothesis =>
      cases tokens with
      | nil => simp [listFrom]
      | cons head tail =>
          have shifted : index + 1 + skip = index + (skip + 1) := by omega
          simp [listFrom, inductionHypothesis (index + 1) tail, shifted]

/-- The statements of a token list, up to the first end directive. -/
def list (tokens : List Token) : List Located :=
  listFrom 0 0 tokens

def totalWidth (statements : List Located) : Nat :=
  statements.foldr (fun located total => located.statement.width + total) 0

def ended (statements : List Located) : Bool :=
  statements.getLast?.any fun located => located.statement == .finish

end Located

end Asm8080
