import Asm8080.Text.Basic

/-!
Contract: numbers written as digits and read back.

Owns:
- upper-case hexadecimal of bytes and words, octal of bytes and addresses, and
  plain decimal;
- the value of a digit in a base, and of a digit list, exact or up to a ceiling;
- the reading of an unsigned 64-bit decimal with an optional plus sign.

Does not own: the assembler's literal syntaxes with their radix letters.
-/

namespace Asm8080.Numeral

/-- The digit of a value below sixteen, upper case. -/
def digit (value : Nat) : Char :=
  (Nat.digitChar value).toUpper

def hexByte (byte : UInt8) : Text :=
  [digit (byte.toNat / 16), digit (byte.toNat % 16)]

def hexWord (word : UInt16) : Text :=
  [digit (word.toNat / 4096), digit (word.toNat / 256 % 16),
    digit (word.toNat / 16 % 16), digit (word.toNat % 16)]

def octalByte (byte : UInt8) : Text :=
  [digit (byte.toNat / 64), digit (byte.toNat / 8 % 8), digit (byte.toNat % 8)]

/-- Octal, filled up with zeros to at least three digits. -/
def octalAddress (address : Nat) : Text :=
  let digits := Nat.toDigits 8 address
  List.replicate (3 - digits.length) '0' ++ digits

def decimal (value : Nat) : Text :=
  Nat.toDigits 10 value

/-- The value of an ASCII digit or letter, up to thirty-five. -/
def digitWeight? (character : Char) : Option Nat :=
  if '0' ≤ character ∧ character ≤ '9' then
    some (character.toNat - '0'.toNat)
  else if 'A' ≤ character ∧ character ≤ 'Z' then
    some (character.toNat - 'A'.toNat + 10)
  else if 'a' ≤ character ∧ character ≤ 'z' then
    some (character.toNat - 'a'.toNat + 10)
  else
    none

def digitValue? (base : Nat) (character : Char) : Option Nat :=
  (digitWeight? character).filter fun value => decide (value < base)

def isHexDigit (character : Char) : Bool :=
  (digitValue? 16 character).isSome

/-- The number that a list of digit values stands for, most significant first. -/
def ofDigits (base : Nat) (digits : List Nat) : Nat :=
  digits.foldl (fun value digit => value * base + digit) 0

/-- The same number as long as it stays below a ceiling, and the ceiling
otherwise. No intermediate value passes the ceiling's size, however many digits
there are. -/
def ofDigitsUpTo (ceiling base : Nat) (digits : List Nat) : Nat :=
  digits.foldl (fun value digit => min (value * base + digit) ceiling) 0

private theorem min_step (ceiling base value digit : Nat) (positive : 0 < base) :
    min (min value ceiling * base + digit) ceiling = min (value * base + digit) ceiling := by
  rcases Nat.le_total value ceiling with below | above
  · rw [Nat.min_eq_left below]
  · have ceilingLe : ceiling ≤ ceiling * base := Nat.le_mul_of_pos_right ceiling positive
    have valueLe : ceiling * base ≤ value * base := Nat.mul_le_mul_right base above
    rw [Nat.min_eq_right above, Nat.min_eq_right (by omega), Nat.min_eq_right (by omega)]

private theorem foldl_min (ceiling base : Nat) (positive : 0 < base) (digits : List Nat)
    (value : Nat) :
    digits.foldl (fun value digit => min (value * base + digit) ceiling) (min value ceiling) =
      min (digits.foldl (fun value digit => value * base + digit) value) ceiling := by
  induction digits generalizing value with
  | nil => rfl
  | cons head tail inductionHypothesis =>
      simp only [List.foldl_cons]
      rw [min_step ceiling base value head positive, inductionHypothesis]

/-- The bounded value is the exact one cut at the ceiling. -/
theorem ofDigitsUpTo_eq_min (ceiling base : Nat) (positive : 0 < base) (digits : List Nat) :
    ofDigitsUpTo ceiling base digits = min (ofDigits base digits) ceiling := by
  have start : min 0 ceiling = 0 := Nat.zero_min ceiling
  have folded := foldl_min ceiling base positive digits 0
  rw [start] at folded
  exact folded

/-- The digit values of a text, or nothing if one of its characters is no digit
of the base. -/
def digits? (base : Nat) (text : Text) : Option (List Nat) :=
  text.mapM (digitValue? base)

/-- The text without its leading plus sign, if it has one. -/
def unsignedPart : Text → Text
  | '+' :: tail => tail
  | text => text

/-- The first number that does not fit in 64 bits. -/
def wordCeiling : Nat :=
  0x10000000000000000

/-- Reads a decimal below the ceiling: at least one digit, leading zeros and one
leading plus sign allowed. -/
def unsigned64? (text : Text) : Option Nat :=
  if (unsignedPart text).isEmpty then
    none
  else
    ((digits? 10 (unsignedPart text)).map (ofDigitsUpTo wordCeiling 10)).filter fun value =>
      decide (value < wordCeiling)

end Asm8080.Numeral
