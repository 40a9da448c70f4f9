import Asm8080.Listing

/-!
Contract: what a front panel shows of a running program.

Owns: the lamps of the address and data rows, and the mark at the listing lines
of the current address.

Does not own: where the shown values come from.
-/

namespace Asm8080

/-- The values that the lamps show. -/
structure Panel where
  address : UInt16
  data : UInt8
deriving DecidableEq, Repr

namespace Panel

/-- Whether the address lamp of a bit is lit. There are sixteen. -/
def addressLamp (panel : Panel) (bit : Nat) : Bool :=
  decide (bit < 16) && panel.address.toNat.testBit bit

/-- Whether the data lamp of a bit is lit. There are eight. -/
def dataLamp (panel : Panel) (bit : Nat) : Bool :=
  decide (bit < 8) && panel.data.toNat.testBit bit

end Panel

/-- Marks the address column of `pc`: the space behind its colon becomes an
arrow, wherever the text of the column stands. -/
def highlight (listing : Text) (pc : UInt16) : Text :=
  Text.replaceAll (Listing.address pc.toNat) (Numeral.hexWord pc ++ ":>".toList) listing

end Asm8080
