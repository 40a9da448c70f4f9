import Asm8080.Text.Numeral
import Asm8080.Text.Utf8

/-!
Contract: hexadecimal text read back as bytes.

Owns: the reading of digit pairs, and the reasons why a text is no image.
Lengths and offsets count UTF-8 bytes.

Does not own: the writing, which belongs to object code.
-/

namespace Asm8080.Hex

/-- Why a text is no image. -/
inductive Fault where
  | oddLength (length : Nat)
  | invalidDigit (offset : Nat)
deriving DecidableEq, Repr

def Fault.message : Fault → Text
  | .oddLength length => "hex image has odd length ".toList ++ Numeral.decimal length
  | .invalidDigit offset => "invalid hex digit at offset ".toList ++ Numeral.decimal offset

def digitOfByte? (byte : UInt8) : Option Nat :=
  if byte.toNat < 0x80 then Numeral.digitValue? 16 (Char.ofNat byte.toNat) else none

def pair? (high low : UInt8) : Option UInt8 :=
  match digitOfByte? high, digitOfByte? low with
  | some upper, some lower => some (UInt8.ofNat (16 * upper + lower))
  | _, _ => none

/-- Reading in progress: `offset` is the place of the next digit, and `decoded`
holds the bytes so far, latest first. -/
def decodeFrom (offset : Nat) (decoded : List UInt8) : List UInt8 → Except Fault (List UInt8)
  | high :: low :: tail =>
      match pair? high low with
      | some byte => decodeFrom (offset + 2) (byte :: decoded) tail
      | none => .error (.invalidDigit offset)
  | [_] => .error (.invalidDigit offset)
  | [] => .ok decoded.reverse

/-- The bytes of an image. An odd length is found before any bad digit. -/
def decode (text : Text) : Except Fault (List UInt8) :=
  let units := Utf8.encode text
  if units.length % 2 = 0 then decodeFrom 0 [] units else .error (.oddLength units.length)

end Asm8080.Hex
