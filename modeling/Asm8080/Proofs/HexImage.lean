import Mathlib.Order.Bounds.Basic
import Asm8080.Assembler
import Asm8080.Object.Hex
import Asm8080.Proofs.PlainText

/-!
Contract: the hexadecimal image, written and read back.

Owns:
- the bytes of ASCII characters and of other characters in UTF-8;
- the digits of an image, and the pairs of bytes that are no byte of an image;
- what reading makes of the bytes of a text: all pairs are digits and are read, or the first
  other pair is named;
- `hex_image_read_back`: reading inverts writing, accepts what is written in either letter
  case, and says of any other text why it is none.

Does not own: the addresses of the bytes, which an image does not tell.
-/

namespace Asm8080

/-! ### UTF-8 -/

namespace Utf8

theorem length_encode (text : Text) :
    (encode text).length = (String.ofList text).utf8ByteSize := by
  have sameSize (bytes : List UInt8) : bytes.toByteArray.size = bytes.length :=
    List.size_toByteArray
  exact (sameSize (encode text)).symm

theorem toNat_code_of_ascii {character : Char} (ascii : character.toNat < 0x80) :
    (UInt8.ofNat character.toNat).toNat = character.toNat :=
  UInt8.toNat_ofNat_of_lt' (Nat.lt_trans ascii (by decide))

theorem encodeChar_of_ascii {character : Char} (ascii : character.toNat < 0x80) :
    String.utf8EncodeChar character = [UInt8.ofNat character.toNat] :=
  if_pos (Nat.le_of_lt_succ ascii)

/-- The bytes of other characters are all beyond ASCII. -/
theorem ascii_of_mem_encodeChar {character : Char} {unit : UInt8}
    (member : unit ∈ String.utf8EncodeChar character) (small : unit.toNat < 0x80) :
    character.toNat < 0x80 := by
  by_contra foreign
  have large : ¬character.val.toNat ≤ 127 := fun atMost => foreign (Nat.lt_succ_of_le atMost)
  simp only [String.utf8EncodeChar, large, ↓reduceIte] at member
  split at member
  · simp only [List.mem_cons, List.not_mem_nil, or_false] at member
    rcases member with rfl | rfl <;> rw [UInt8.toNat_ofNat'] at small <;> omega
  · split at member
    · simp only [List.mem_cons, List.not_mem_nil, or_false] at member
      rcases member with rfl | rfl | rfl <;> rw [UInt8.toNat_ofNat'] at small <;> omega
    · simp only [List.mem_cons, List.not_mem_nil, or_false] at member
      rcases member with rfl | rfl | rfl | rfl <;> rw [UInt8.toNat_ofNat'] at small <;> omega

end Utf8

namespace Hex

/-! ### Written images -/

/-- The two digits of a byte are read back as the byte. -/
theorem pair?_hexByte (byte : UInt8) :
    ∃ high low, Utf8.encode (Numeral.hexByte byte) = [high, low] ∧ pair? high low = some byte := by
  have each : ∀ value < 256,
      Utf8.encode (Numeral.hexByte (UInt8.ofNat value)) =
          [(Utf8.encode (Numeral.hexByte (UInt8.ofNat value))).headD 0,
            (Utf8.encode (Numeral.hexByte (UInt8.ofNat value))).tail.headD 0] ∧
        pair? ((Utf8.encode (Numeral.hexByte (UInt8.ofNat value))).headD 0)
            ((Utf8.encode (Numeral.hexByte (UInt8.ofNat value))).tail.headD 0) =
          some (UInt8.ofNat value) := by
    decide +kernel
  have atByte := each byte.toNat byte.toNat_lt
  rw [UInt8.ofNat_toNat] at atByte
  exact ⟨_, _, atByte⟩

/-- Written bytes are read back as they were. -/
theorem decode_hexBytes (bytes : List UInt8) :
    decode (bytes.flatMap Numeral.hexByte) = .ok bytes := by
  have units : (Utf8.encode (bytes.flatMap Numeral.hexByte)).length % 2 = 0 ∧
      ∀ offset decoded, decodeFrom offset decoded (Utf8.encode (bytes.flatMap Numeral.hexByte)) =
        .ok (decoded.reverse ++ bytes) := by
    induction bytes with
    | nil => simp [Utf8.encode, decodeFrom]
    | cons head tail inductionHypothesis =>
        obtain ⟨even, decodes⟩ := inductionHypothesis
        obtain ⟨high, low, isEncoded, isPair⟩ := pair?_hexByte head
        have encoded : Utf8.encode ((head :: tail).flatMap Numeral.hexByte) =
            high :: low :: Utf8.encode (tail.flatMap Numeral.hexByte) := by
          rw [List.flatMap_cons, Utf8.encode, List.flatMap_append]
          unfold Utf8.encode at isEncoded
          rw [isEncoded]
          rfl
        rw [encoded]
        refine ⟨by simp only [List.length_cons]; omega, ?_⟩
        intro offset decoded
        simp only [decodeFrom, isPair, decodes]
        simp
  unfold decode
  rw [if_pos units.1, units.2]
  rfl

/-! ### Digits -/

/-- The digits of an image, in both letter cases. -/
def digits : Text :=
  "0123456789ABCDEFabcdef".toList

/-- The byte is the code of a digit. -/
def IsDigit (unit : UInt8) : Prop :=
  ∃ digit ∈ digits, digit.toNat = unit.toNat

instance (unit : UInt8) : Decidable (IsDigit unit) :=
  List.decidableBEx (fun digit : Char => digit.toNat = unit.toNat) digits

/-- The character that an ASCII byte stands for, in capitals. -/
def capital (unit : UInt8) : Char :=
  (Char.ofNat unit.toNat).toUpper

/-- A pair of bytes stands at the offset, and they are not both digits. -/
def IsBadPair (units : List UInt8) (offset : Nat) : Prop :=
  offset % 2 = 0 ∧ ∃ high low, units[offset]? = some high ∧ units[offset + 1]? = some low ∧
    ¬(IsDigit high ∧ IsDigit low)

theorem digitOfByte?_cases (unit : UInt8) :
    (digitOfByte? unit = none ∧ ¬IsDigit unit) ∨
      ∃ value < 16, digitOfByte? unit = some value ∧ IsDigit unit ∧
        Numeral.digit value = capital unit := by
  have each : ∀ code < 256,
      (digitOfByte? (UInt8.ofNat code) = none ∧ ¬IsDigit (UInt8.ofNat code)) ∨
        ∃ value < 16, digitOfByte? (UInt8.ofNat code) = some value ∧ IsDigit (UInt8.ofNat code) ∧
          Numeral.digit value = capital (UInt8.ofNat code) := by
    decide +kernel
  have atUnit := each unit.toNat unit.toNat_lt
  rwa [UInt8.ofNat_toNat] at atUnit

/-- Two bytes are both digits, and are read as the byte that they write in capitals, or they are
not both digits, and are read as nothing. -/
theorem pair?_cases (high low : UInt8) :
    (pair? high low = none ∧ ¬(IsDigit high ∧ IsDigit low)) ∨
      ∃ byte, pair? high low = some byte ∧ (IsDigit high ∧ IsDigit low) ∧
        Numeral.hexByte byte = [capital high, capital low] := by
  rcases digitOfByte?_cases high with
    ⟨noHigh, notHigh⟩ | ⟨upper, upperSmall, isUpper, isHigh, upperText⟩
  · exact .inl ⟨by rw [pair?, noHigh], fun both => notHigh both.1⟩
  rcases digitOfByte?_cases low with
    ⟨noLow, notLow⟩ | ⟨lower, lowerSmall, isLower, isLow, lowerText⟩
  · exact .inl ⟨by rw [pair?, isUpper, noLow], fun both => notLow both.2⟩
  refine .inr ⟨UInt8.ofNat (16 * upper + lower), by rw [pair?, isUpper, isLower],
    ⟨isHigh, isLow⟩, ?_⟩
  have toNat : (UInt8.ofNat (16 * upper + lower)).toNat = 16 * upper + lower :=
    UInt8.toNat_ofNat_of_lt' (by show _ < 256; omega)
  have quotient : (16 * upper + lower) / 16 = upper := by omega
  have remainder : (16 * upper + lower) % 16 = lower := by omega
  rw [Numeral.hexByte, toNat, quotient, remainder, upperText, lowerText]

/-! ### Reading -/

section

variable {high low : UInt8} {tail : List UInt8}

theorem isBadPair_zero :
    IsBadPair (high :: low :: tail) 0 ↔ ¬(IsDigit high ∧ IsDigit low) := by
  simp [IsBadPair]

theorem isBadPair_add_two {offset : Nat} :
    IsBadPair (high :: low :: tail) (offset + 2) ↔ IsBadPair tail offset := by
  unfold IsBadPair
  rw [Nat.add_mod_right]
  rfl

end

/-- Reading that succeeds has met digits only, and its bytes write them in capitals. -/
theorem decodeFrom_ok {offset : Nat} {decoded units bytes : List UInt8}
    (reads : decodeFrom offset decoded units = .ok bytes) :
    (∀ unit ∈ units, IsDigit unit) ∧
      ∃ more, bytes = decoded.reverse ++ more ∧
        more.flatMap Numeral.hexByte = units.map capital := by
  fun_induction decodeFrom offset decoded units with
  | case1 offset decoded high low tail byte isByte inductionHypothesis =>
      rcases pair?_cases high low with ⟨unread, _⟩ | ⟨own, isOwn, ⟨isHigh, isLow⟩, text⟩
      · rw [unread] at isByte
        cases isByte
      · obtain rfl : own = byte := Option.some.inj (isOwn.symm.trans isByte)
        obtain ⟨digits, more, isBytes, written⟩ := inductionHypothesis reads
        refine ⟨?_, own :: more, ?_, ?_⟩
        · simpa [isHigh, isLow] using digits
        · simpa using isBytes
        · rw [List.flatMap_cons, text, written]
          rfl
  | case2 => cases reads
  | case3 => cases reads
  | case4 offset decoded =>
      exact ⟨by simp, [], by simpa using reads.symm, rfl⟩

/-- Reading that fails names the first pair that is not both digits. -/
theorem decodeFrom_error {offset : Nat} {decoded units : List UInt8} {fault : Fault}
    (fails : decodeFrom offset decoded units = .error fault) (even : units.length % 2 = 0) :
    ∃ place, fault = .invalidDigit (offset + place) ∧
      IsLeast {place | IsBadPair units place} place := by
  fun_induction decodeFrom offset decoded units with
  | case1 offset decoded high low tail byte isByte inductionHypothesis =>
      have tailEven : tail.length % 2 = 0 := by
        simp only [List.length_cons] at even
        omega
      obtain ⟨place, isFault, bad, least⟩ := inductionHypothesis fails tailEven
      refine ⟨place + 2, by rw [isFault, Nat.add_assoc, Nat.add_comm 2],
        isBadPair_add_two.mpr bad, ?_⟩
      intro other otherBad
      match other with
      | 0 =>
          rcases pair?_cases high low with ⟨unread, _⟩ | ⟨_, _, both, _⟩
          · rw [unread] at isByte
            cases isByte
          · exact absurd both (isBadPair_zero.mp otherBad)
      | 1 => exact absurd otherBad.1 (by decide)
      | other + 2 => exact Nat.add_le_add_right (least (isBadPair_add_two.mp otherBad)) 2
  | case2 offset decoded high low tail unread =>
      rcases pair?_cases high low with ⟨_, notBoth⟩ | ⟨_, isByte, _⟩
      · refine ⟨0, (Except.error.inj fails).symm, isBadPair_zero.mpr notBoth, ?_⟩
        exact fun _ _ => Nat.zero_le _
      · rw [unread] at isByte
        cases isByte
  | case3 => simp at even
  | case4 => cases fails

/-! ### Texts -/

theorem ascii_of_mem_digits {character : Char} (isDigit : character ∈ digits) :
    character.toNat < 0x80 := by
  have each : digits.all fun digit => digit.toNat < 0x80 := by decide
  simpa using List.all_eq_true.mp each character isDigit

theorem capital_of_ascii {character : Char} (ascii : character.toNat < 0x80) :
    capital (UInt8.ofNat character.toNat) = character.toUpper := by
  rw [capital, Utf8.toNat_code_of_ascii ascii, Char.ofNat_toNat]

theorem isDigit_of_mem_digits {character : Char} (isDigit : character ∈ digits) :
    IsDigit (UInt8.ofNat character.toNat) :=
  ⟨character, isDigit, (Utf8.toNat_code_of_ascii (ascii_of_mem_digits isDigit)).symm⟩

theorem mem_digits_of_unit {character : Char} {unit : UInt8}
    (member : unit ∈ String.utf8EncodeChar character) (isDigit : IsDigit unit) :
    character ∈ digits := by
  obtain ⟨digit, inDigits, sameCode⟩ := isDigit
  have small : unit.toNat < 0x80 := sameCode ▸ ascii_of_mem_digits inDigits
  have ascii := Utf8.ascii_of_mem_encodeChar member small
  rw [Utf8.encodeChar_of_ascii ascii, List.mem_singleton] at member
  rw [member, Utf8.toNat_code_of_ascii ascii] at sameCode
  rwa [← Char.toNat_inj.mp sameCode]

/-- The bytes of a text are digits just if its characters are. -/
theorem forall_isDigit_iff {text : Text} :
    (∀ unit ∈ Utf8.encode text, IsDigit unit) ↔ ∀ c ∈ text, c ∈ digits := by
  constructor
  · intro units character member
    have nonempty : String.utf8EncodeChar character ≠ [] := by
      rw [← List.length_pos_iff, String.length_utf8EncodeChar]
      exact character.utf8Size_pos
    obtain ⟨unit, isUnit⟩ := List.exists_mem_of_ne_nil _ nonempty
    exact mem_digits_of_unit isUnit (units unit (List.mem_flatMap.mpr ⟨character, member, isUnit⟩))
  · intro characters unit member
    obtain ⟨character, inText, isUnit⟩ := List.mem_flatMap.mp member
    have isDigit := characters character inText
    rw [Utf8.encodeChar_of_ascii (ascii_of_mem_digits isDigit), List.mem_singleton] at isUnit
    rw [isUnit]
    exact isDigit_of_mem_digits isDigit

theorem map_capital_encode {text : Text} (characters : ∀ c ∈ text, c ∈ digits) :
    (Utf8.encode text).map capital = text.map Char.toUpper := by
  induction text with
  | nil => rfl
  | cons head tail inductionHypothesis =>
      have ascii := ascii_of_mem_digits (characters head (by simp))
      have later := inductionHypothesis fun c member => characters c (by simp [member])
      rw [Utf8.encode, List.flatMap_cons, ← Utf8.encode, Utf8.encodeChar_of_ascii ascii,
        List.singleton_append, List.map_cons, List.map_cons, later, capital_of_ascii ascii]

/-- The three outcomes of reading a text. -/
theorem decode_cases (text : Text) :
    ((Utf8.encode text).length % 2 = 1 ∧
        decode text = .error (.oddLength (Utf8.encode text).length)) ∨
      (Utf8.encode text).length % 2 = 0 ∧
        ((∃ bytes, decode text = .ok bytes ∧ (∀ c ∈ text, c ∈ digits) ∧
            bytes.flatMap Numeral.hexByte = text.map Char.toUpper) ∨
          ∃ place, decode text = .error (.invalidDigit place) ∧
            IsLeast {place | IsBadPair (Utf8.encode text) place} place) := by
  unfold decode
  rcases Nat.mod_two_eq_zero_or_one (Utf8.encode text).length with even | odd
  · refine .inr ⟨even, ?_⟩
    rw [if_pos even]
    cases reads : decodeFrom 0 [] (Utf8.encode text) with
    | ok bytes =>
        obtain ⟨units, more, isBytes, written⟩ := decodeFrom_ok reads
        have characters := forall_isDigit_iff.mp units
        rw [map_capital_encode characters] at written
        exact .inl ⟨bytes, rfl, characters, by simpa [isBytes] using written⟩
    | error fault =>
        obtain ⟨place, isFault, least⟩ := decodeFrom_error reads even
        rw [Nat.zero_add] at isFault
        exact .inr ⟨place, by rw [isFault], least⟩
  · exact .inl ⟨odd, if_neg (by omega)⟩

theorem not_isBadPair {text : Text} (characters : ∀ c ∈ text, c ∈ digits) (offset : Nat) :
    ¬IsBadPair (Utf8.encode text) offset := by
  have all := forall_isDigit_iff.mpr characters
  rintro ⟨_, high, low, isHigh, isLow, notBoth⟩
  exact notBoth ⟨all high (List.mem_of_getElem? isHigh), all low (List.mem_of_getElem? isLow)⟩

theorem mem_digits_of_toUpper {character : Char} {byte : UInt8}
    (member : character.toUpper ∈ Numeral.hexByte byte) : character ∈ digits := by
  have inRow : ∀ value < 16, Numeral.digit value ∈ digits := by decide
  have bound := byte.toNat_lt
  have upper : character.toUpper ∈ digits := by
    simp only [Numeral.hexByte, List.mem_cons, List.not_mem_nil, or_false] at member
    rcases member with isHigh | isLow
    · rw [isHigh]
      exact inRow _ (by omega)
    · rw [isLow]
      exact inRow _ (by omega)
  by_cases ascii : character.toNat < 0x80
  · exact forall_ascii (fun c => c.toUpper ∈ digits → c ∈ digits) (by decide +kernel) ascii upper
  · rwa [toUpper_of_not_ascii ascii] at upper

/-- A text that is written in capitals as some bytes are has an even number of digits. -/
theorem digits_of_written {text : Text} {bytes : List UInt8}
    (written : bytes.flatMap Numeral.hexByte = text.map Char.toUpper) :
    (Utf8.encode text).length % 2 = 0 ∧ ∀ c ∈ text, c ∈ digits := by
  have characters : ∀ c ∈ text, c ∈ digits := by
    intro character member
    have inBytes : character.toUpper ∈ bytes.flatMap Numeral.hexByte := by
      rw [written]
      exact List.mem_map_of_mem member
    obtain ⟨byte, _, inByte⟩ := List.mem_flatMap.mp inBytes
    exact mem_digits_of_toUpper inByte
  have lengths := congrArg List.length (written.trans (map_capital_encode characters).symm)
  have pairs : (bytes.flatMap Numeral.hexByte).length = bytes.length * 2 := by
    simp [List.length_flatMap, Numeral.hexByte]
  rw [List.length_map, pairs] at lengths
  exact ⟨by omega, characters⟩

section

variable {text : Text}

theorem decode_eq_oddLength_iff {length : Nat} :
    decode text = .error (.oddLength length) ↔
      length = (Utf8.encode text).length ∧ length % 2 = 1 := by
  rcases decode_cases text with ⟨odd, isOdd⟩ | ⟨even, ⟨_, isOk, _⟩ | ⟨_, isBad, _⟩⟩
  · rw [isOdd, Except.error.injEq, Fault.oddLength.injEq, eq_comm]
    exact ⟨fun same => ⟨same, same ▸ odd⟩, And.left⟩
  · rw [isOk]
    exact iff_of_false (by simp) (by omega)
  · rw [isBad]
    exact iff_of_false (by simp) (by omega)

theorem exists_decode_eq_ok_iff :
    (∃ bytes, decode text = .ok bytes) ↔
      (Utf8.encode text).length % 2 = 0 ∧ ∀ c ∈ text, c ∈ digits := by
  rcases decode_cases text with
    ⟨odd, isOdd⟩ | ⟨even, ⟨bytes, isOk, characters, _⟩ | ⟨place, isBad, least⟩⟩
  · rw [isOdd]
    exact iff_of_false (by simp) (by omega)
  · exact iff_of_true ⟨bytes, isOk⟩ ⟨even, characters⟩
  · rw [isBad]
    exact iff_of_false (by simp) fun all => not_isBadPair all.2 place least.1

/-- A text is read as the bytes that write it in capitals. -/
theorem decode_eq_ok_iff {bytes : List UInt8} :
    decode text = .ok bytes ↔ bytes.flatMap Numeral.hexByte = text.map Char.toUpper := by
  have reencoded {own : List UInt8} (isOk : decode text = .ok own) :
      own.flatMap Numeral.hexByte = text.map Char.toUpper := by
    rcases decode_cases text with ⟨_, isOdd⟩ | ⟨_, ⟨_, isOther, _, written⟩ | ⟨_, isBad, _⟩⟩
    · rw [isOdd] at isOk
      cases isOk
    · rwa [Except.ok.inj (isOk.symm.trans isOther)]
    · rw [isBad] at isOk
      cases isOk
  constructor
  · exact reencoded
  · intro written
    obtain ⟨own, isOk⟩ := exists_decode_eq_ok_iff.mpr (digits_of_written written)
    -- Both byte lists write the same text, and that is read back in one way.
    have readBack := decode_hexBytes own
    rw [reencoded isOk, ← written, decode_hexBytes] at readBack
    rw [isOk, Except.ok.inj readBack]

theorem decode_eq_invalidDigit_iff {offset : Nat} :
    decode text = .error (.invalidDigit offset) ↔
      (Utf8.encode text).length % 2 = 0 ∧
        IsLeast {place | IsBadPair (Utf8.encode text) place} offset := by
  rcases decode_cases text with
    ⟨odd, isOdd⟩ | ⟨even, ⟨_, isOk, characters, _⟩ | ⟨place, isBad, least⟩⟩
  · rw [isOdd]
    exact iff_of_false (by simp) (by omega)
  · rw [isOk]
    exact iff_of_false (by simp) fun bad => not_isBadPair characters offset bad.2.1
  · rw [isBad, Except.error.injEq, Fault.invalidDigit.injEq]
    exact ⟨fun same => ⟨even, same ▸ least⟩, fun other => least.unique other.2⟩

end

end Hex

/-- The hexadecimal image and its reader. What was written byte by byte, at whatever addresses, is
read back, so that the image of every assembly has its bytes. Of any text, an odd number of UTF-8
bytes is reported with that number. A text is read just if the number is even and all characters
are hexadecimal digits, and then its bytes write the text in capitals. Else the first even offset
is reported at which the two bytes are not both digits. -/
theorem hex_image_read_back :
    (∀ cells : List Cell,
      Hex.decode (cells.foldl ObjectCode.push ObjectCode.empty).hex = .ok (cells.map Cell.byte)) ∧
    (∀ assembly : Assembly, Hex.decode assembly.hex = .ok assembly.bytes) ∧
    ∀ text : Text,
      (∀ length, Hex.decode text = .error (.oddLength length) ↔
        length = (String.ofList text).utf8ByteSize ∧ length % 2 = 1) ∧
      ((∃ bytes, Hex.decode text = .ok bytes) ↔
        (String.ofList text).utf8ByteSize % 2 = 0 ∧ ∀ c ∈ text, c ∈ Hex.digits) ∧
      (∀ bytes, Hex.decode text = .ok bytes ↔
        bytes.flatMap Numeral.hexByte = text.map Char.toUpper) ∧
      ∀ offset, Hex.decode text = .error (.invalidDigit offset) ↔
        (String.ofList text).utf8ByteSize % 2 = 0 ∧
          IsLeast {place | Hex.IsBadPair (Utf8.encode text) place} offset := by
  refine ⟨fun cells => ?_, fun assembly => Hex.decode_hexBytes assembly.bytes, fun text => ?_⟩
  · have written := ObjectCode.cells_append ObjectCode.empty cells
    have bytes : (ObjectCode.empty.append cells).bytes = cells.map Cell.byte := by
      rw [ObjectCode.bytes, written]
      rfl
    rw [← bytes]
    exact Hex.decode_hexBytes _
  · rw [← Utf8.length_encode]
    exact ⟨fun _ => Hex.decode_eq_oddLength_iff, Hex.exists_decode_eq_ok_iff,
      fun _ => Hex.decode_eq_ok_iff, fun _ => Hex.decode_eq_invalidDigit_iff⟩

/-- The bytes of one character may belong to two pairs. -/
example :
    Hex.decode "0aB2".toList = .ok [0x0A, 0xB2] ∧
      Hex.decode "0aB".toList = .error (.oddLength 3) ∧
      Hex.decode "0a9é2".toList = .error (.invalidDigit 2) := by
  decide +kernel

end Asm8080
