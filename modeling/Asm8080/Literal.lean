import Asm8080.Text.Numeral

/-!
Contract: numeric and character literals of the source.

Owns:
- the choice of the radix by the letters that a token contains;
- the reading of a token as a 16-bit word or as a byte;
- the reasons why a token is neither.

Does not own: label references, which are tried before a literal is.
-/

namespace Asm8080

/-- The base of a number. -/
inductive Radix where
  | binary
  | octal
  | decimal
  | hexadecimal
deriving DecidableEq, Repr

namespace Radix

def base : Radix → Nat
  | .binary => 2
  | .octal => 8
  | .decimal => 10
  | .hexadecimal => 16

/-- The letters that announce the radix, wherever they stand in the token. -/
def letters : Radix → Text
  | .binary => ['B']
  | .octal => ['O']
  | .decimal => []
  | .hexadecimal => ['H', 'h']

/-- Whether the token contains a letter that announces the radix. -/
def announcedBy (radix : Radix) (token : Text) : Bool :=
  token.any radix.letters.contains

/-- The radix of a token. Hexadecimal letters win over octal ones, those over
binary ones, and a token without any is decimal. -/
def ofToken (token : Text) : Radix :=
  if hexadecimal.announcedBy token then .hexadecimal
  else if octal.announcedBy token then .octal
  else if binary.announcedBy token then .binary
  else .decimal

end Radix

namespace Literal

/-- Why a token is no literal of the wanted size. -/
inductive Fault where
  | label
  | malformed
  | outOfRange (value : Nat)
deriving DecidableEq, Repr

def Fault.message : Fault → Text
  | .label => "label, not a literal".toList
  | .malformed => "malformed number".toList
  | .outOfRange value => "value ".toList ++ Numeral.decimal value ++ " out of range".toList

/-- The ceiling of values: larger ones are not told apart. -/
def ceiling : Nat :=
  0x100000000

/-- The character between two quotes, if the token is exactly that. -/
def quotedCharacter? : Text → Option Char
  | [opening, character, closing] =>
      if opening = '\'' ∧ closing = '\'' then some character else none
  | _ => none

/-- The token less every letter that announces the radix. -/
def digitText (radix : Radix) (token : Text) : Text :=
  token.filter fun character => !radix.letters.contains character

/-- The value of a digit text in a radix, up to the ceiling. There must be a digit,
and nothing else. -/
def valueOfDigits? (radix : Radix) (digits : Text) : Option Nat :=
  if digits.isEmpty then none
  else (Numeral.digits? radix.base digits).map (Numeral.ofDigitsUpTo ceiling radix.base)

/-- The value of a number token, up to the ceiling. -/
def value? (token : Text) : Option Nat :=
  let radix := Radix.ofToken token
  valueOfDigits? radix (digitText radix token)

/-- A value as a word, if it fits. A value at the ceiling is shown as the largest
one below it. -/
def wordOfValue (value : Nat) : Except Fault UInt16 :=
  if value < 0x10000 then .ok (UInt16.ofNat value)
  else .error (.outOfRange (min value (ceiling - 1)))

def wordOfCharacter (character : Char) : Except Fault UInt16 :=
  if character.toNat < 0x80 then .ok (UInt16.ofNat character.toNat)
  else .error .malformed

def word (token : Text) : Except Fault UInt16 :=
  if token.contains ':' then
    .error .label
  else
    match quotedCharacter? token with
    | some character => wordOfCharacter character
    | none =>
        match value? token with
        | some value => wordOfValue value
        | none => .error .malformed

/-- A word as a byte, if it fits. -/
def narrow (word : UInt16) : Except Fault UInt8 :=
  if word.toNat < 0x100 then .ok (UInt8.ofNat word.toNat)
  else .error (.outOfRange word.toNat)

def byte (token : Text) : Except Fault UInt8 :=
  (word token).bind narrow

/-- Whether the token consists of hexadecimal digits, at least one. -/
def isHex (token : Text) : Bool :=
  !token.isEmpty && token.all Numeral.isHexDigit

end Literal

end Asm8080
