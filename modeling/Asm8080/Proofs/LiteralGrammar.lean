import Mathlib.Data.List.Forall2
import Mathlib.Data.Nat.Digits.Defs
import Asm8080.Literal
import Asm8080.Proofs.DataLayout
import Asm8080.Proofs.PlainText

/-!
Contract: the grammar of literals, and the reader of literals.

Owns:
- digits by their place in a row, and the exact number that a text of digits stands for;
- the grammar: the base in which a token is written, and what the token stands for, or why it
  stands for nothing;
- the bounded value that the reader keeps, in terms of the exact number;
- `literals_follow_grammar`: words and bytes are read by the grammar, whatever the token is.

Does not own: operands, which are labels before they are literals.
-/

namespace Asm8080

/-! ### Digits and numbers -/

namespace Numeral

/-- The sixteen digits, each at the place that is its value. -/
def digitRow : Text :=
  "0123456789ABCDEF".toList

/-- The character is the digit of that value in the base, in either letter case. -/
def IsDigit (base : Nat) (character : Char) (value : Nat) : Prop :=
  value < base ∧ digitRow[value]? = some character.toUpper

/-- The text is a row of digits of the base, at least one, and the number is its exact value. -/
def Denotes (base : Nat) (text : Text) (number : Nat) : Prop :=
  text ≠ [] ∧ ∃ values, List.Forall₂ (IsDigit base) text values ∧
    Nat.ofDigits base values.reverse = number

theorem digitWeight?_of_not_ascii {character : Char} (foreign : ¬character.toNat < 0x80) :
    digitWeight? character = none := by
  have above {limit : Char} (low : limit.toNat < 0x80) : ¬character ≤ limit := fun atMost =>
    foreign (Nat.lt_of_le_of_lt atMost low)
  unfold digitWeight?
  rw [if_neg fun within => above (by decide) within.2,
    if_neg fun within => above (by decide) within.2,
    if_neg fun within => above (by decide) within.2]

theorem digitWeight?_eq_some_iff {character : Char} {value : Nat} (small : value < 16) :
    digitWeight? character = some value ↔ digitRow[value]? = some character.toUpper := by
  by_cases ascii : character.toNat < 0x80
  · exact forall_ascii (fun c => ∀ value < 16,
      (digitWeight? c = some value ↔ digitRow[value]? = some c.toUpper)) (by decide +kernel) ascii
      value small
  · rw [digitWeight?_of_not_ascii ascii, toUpper_of_not_ascii ascii]
    refine iff_of_false (by simp) fun inRow => ascii ?_
    have asciiRow : digitRow.all fun digit => digit.toNat < 0x80 := by decide
    simpa using List.all_eq_true.mp asciiRow character (List.mem_of_getElem? inRow)

theorem digitValue?_eq_some_iff {base : Nat} (inRow : base ≤ 16) {character : Char}
    {value : Nat} : digitValue? base character = some value ↔ IsDigit base character value := by
  unfold digitValue? IsDigit
  rw [Option.filter_eq_some_iff, decide_eq_true_eq, and_comm]
  exact and_congr_right fun small => digitWeight?_eq_some_iff (Nat.lt_of_lt_of_le small inRow)

theorem digits?_eq_some_iff {base : Nat} (inRow : base ≤ 16) {text : Text} {values : List Nat} :
    digits? base text = some values ↔ List.Forall₂ (IsDigit base) text values := by
  unfold digits?
  induction text generalizing values with
  | nil => simp [eq_comm]
  | cons head tail inductionHypothesis =>
      rw [List.forall₂_cons_left_iff]
      constructor
      · intro isRead
        obtain ⟨first, rest, isFirst, isRest, isValues⟩ := ValueList.mapM_cons_eq_some isRead
        exact ⟨first, rest, (digitValue?_eq_some_iff inRow).mp isFirst,
          inductionHypothesis.mp isRest, isValues⟩
      · rintro ⟨first, rest, isFirst, isRest, rfl⟩
        simp [List.mapM_cons, (digitValue?_eq_some_iff inRow).mpr isFirst,
          inductionHypothesis.mpr isRest]

/-- A text is no row of digits because of one of its characters. -/
theorem digits?_eq_none_iff {base : Nat} (inRow : base ≤ 16) {text : Text} :
    digits? base text = none ↔ ∃ c ∈ text, ∀ value, ¬IsDigit base c value := by
  simp only [← digitValue?_eq_some_iff inRow, ← Option.eq_none_iff_forall_ne_some]
  unfold digits?
  induction text with
  | nil => simp
  | cons head tail inductionHypothesis =>
      rw [List.exists_mem_cons_iff, ← inductionHypothesis, List.mapM_cons]
      cases digitValue? base head with
      | none => simp
      | some value => cases tail.mapM (digitValue? base) <;> simp

theorem ofDigits_eq_reverse (base : Nat) (values : List Nat) :
    ofDigits base values = Nat.ofDigits base values.reverse := by
  rw [Nat.ofDigits_eq_foldr, List.foldr_reverse]
  unfold ofDigits
  simp only [Nat.cast_id, Nat.mul_comm, Nat.add_comm]

end Numeral

namespace Literal

/-! ### The grammar -/

/-- The token is written in a base, with these characters for its digits: the letters that
announce the base may stand anywhere in the token, and all of them are left out. -/
inductive Written (token : Text) : (base : Nat) → (digits : Text) → Prop
  | hexadecimal (announced : 'H' ∈ token ∨ 'h' ∈ token) :
      Written token 16 (token.filter fun c => c ≠ 'H' ∧ c ≠ 'h')
  | octal (notHexadecimal : 'H' ∉ token ∧ 'h' ∉ token) (announced : 'O' ∈ token) :
      Written token 8 (token.filter fun c => c ≠ 'O')
  | binary (notHexadecimal : 'H' ∉ token ∧ 'h' ∉ token) (notOctal : 'O' ∉ token)
      (announced : 'B' ∈ token) :
      Written token 2 (token.filter fun c => c ≠ 'B')
  | decimal (notHexadecimal : 'H' ∉ token ∧ 'h' ∉ token) (notOctal : 'O' ∉ token)
      (notBinary : 'B' ∉ token) :
      Written token 10 token

/-- The token is one character between two quotes. -/
def IsQuoted (token : Text) (character : Char) : Prop :=
  token = [quoteMark, character, quoteMark]

/-- What a token is read as. A colon comes before quotes, and quotes before digits. A number is
what its digits denote, however many there are: a word, or out of range, where the numbers from
2^32 on are not told apart. -/
inductive Reads (token : Text) : Except Fault UInt16 → Prop
  | label (colon : ':' ∈ token) : Reads token (.error .label)
  | character {c : Char} (noColon : ':' ∉ token) (quoted : IsQuoted token c)
      (ascii : c.toNat < 128) : Reads token (.ok (UInt16.ofNat c.toNat))
  | foreignCharacter {c : Char} (noColon : ':' ∉ token) (quoted : IsQuoted token c)
      (foreign : 128 ≤ c.toNat) : Reads token (.error .malformed)
  | malformed {base : Nat} {digits : Text} (noColon : ':' ∉ token)
      (unquoted : ∀ c, ¬IsQuoted token c) (written : Written token base digits)
      (undigital : digits = [] ∨ ∃ c ∈ digits, ∀ value, ¬Numeral.IsDigit base c value) :
      Reads token (.error .malformed)
  | word {base : Nat} {digits : Text} {number : Nat} (noColon : ':' ∉ token)
      (unquoted : ∀ c, ¬IsQuoted token c) (written : Written token base digits)
      (denotes : Numeral.Denotes base digits number) (fits : number < 65536) :
      Reads token (.ok (UInt16.ofNat number))
  | large {base : Nat} {digits : Text} {number : Nat} (noColon : ':' ∉ token)
      (unquoted : ∀ c, ¬IsQuoted token c) (written : Written token base digits)
      (denotes : Numeral.Denotes base digits number) (noWord : 65536 ≤ number)
      (below : number < 2 ^ 32) : Reads token (.error (.outOfRange number))
  | huge {base : Nat} {digits : Text} {number : Nat} (noColon : ':' ∉ token)
      (unquoted : ∀ c, ¬IsQuoted token c) (written : Written token base digits)
      (denotes : Numeral.Denotes base digits number) (above : 2 ^ 32 ≤ number) :
      Reads token (.error (.outOfRange (2 ^ 32 - 1)))

/-! ### The parts of the reader -/

theorem quotedCharacter?_eq_some_iff {token : Text} {character : Char} :
    quotedCharacter? token = some character ↔ IsQuoted token character := by
  unfold quotedCharacter? IsQuoted quoteMark
  split
  · rename_i opening middle closing
    simp only [List.cons.injEq, and_true]
    split
    · rename_i both
      simp [both]
    · rename_i notBoth
      refine iff_of_false (by simp) fun same => notBoth ⟨same.1, same.2.2⟩
  · rename_i otherShape
    refine iff_of_false (by simp) fun same => otherShape _ _ _ same

theorem announcedBy_iff {radix : Radix} {token : Text} :
    radix.announcedBy token = true ↔ ∃ letter ∈ radix.letters, letter ∈ token := by
  unfold Radix.announcedBy
  rw [List.any_eq_true]
  simp only [List.contains_iff_mem, and_comm]

theorem digitText_eq_filter (token : Text) :
    digitText .hexadecimal token = token.filter (fun c => c ≠ 'H' ∧ c ≠ 'h') ∧
      digitText .octal token = token.filter (fun c => c ≠ 'O') ∧
      digitText .binary token = token.filter (fun c => c ≠ 'B') ∧
      digitText .decimal token = token := by
  refine ⟨?_, ?_, ?_, ?_⟩ <;> simp [digitText, Radix.letters]

/-- The base and the digits that the reader takes are those of the grammar. -/
theorem written_iff {token : Text} {base : Nat} {digits : Text} :
    Written token base digits ↔
      base = (Radix.ofToken token).base ∧ digits = digitText (Radix.ofToken token) token := by
  have hexadecimal : Radix.hexadecimal.announcedBy token = true ↔ 'H' ∈ token ∨ 'h' ∈ token := by
    simp [announcedBy_iff, Radix.letters]
  have octal : Radix.octal.announcedBy token = true ↔ 'O' ∈ token := by
    simp [announcedBy_iff, Radix.letters]
  have binary : Radix.binary.announcedBy token = true ↔ 'B' ∈ token := by
    simp [announcedBy_iff, Radix.letters]
  obtain ⟨hexadecimalText, octalText, binaryText, decimalText⟩ := digitText_eq_filter token
  simp only [Radix.ofToken, hexadecimal, octal, binary]
  constructor
  · intro written
    cases written with
    | hexadecimal announced =>
        rw [if_pos announced, hexadecimalText]
        exact ⟨rfl, rfl⟩
    | octal notHexadecimal announced =>
        rw [if_neg (not_or.mpr notHexadecimal), if_pos announced, octalText]
        exact ⟨rfl, rfl⟩
    | binary notHexadecimal notOctal announced =>
        rw [if_neg (not_or.mpr notHexadecimal), if_neg notOctal, if_pos announced, binaryText]
        exact ⟨rfl, rfl⟩
    | decimal notHexadecimal notOctal notBinary =>
        rw [if_neg (not_or.mpr notHexadecimal), if_neg notOctal, if_neg notBinary, decimalText]
        exact ⟨rfl, rfl⟩
  · rintro ⟨rfl, rfl⟩
    split
    · rename_i announced
      rw [hexadecimalText]
      exact .hexadecimal announced
    · rename_i notHexadecimal
      split
      · rename_i announced
        rw [octalText]
        exact .octal (not_or.mp notHexadecimal) announced
      · rename_i notOctal
        split
        · rename_i announced
          rw [binaryText]
          exact .binary (not_or.mp notHexadecimal) notOctal announced
        · rename_i notBinary
          rw [decimalText]
          exact .decimal (not_or.mp notHexadecimal) notOctal notBinary

theorem Written.base_le {token : Text} {base : Nat} {digits : Text}
    (written : Written token base digits) : 0 < base ∧ base ≤ 16 := by
  cases written <;> decide

section Value

variable {token : Text} {base : Nat} {digits : Text} (written : Written token base digits)
include written

theorem value?_eq :
    value? token = if digits.isEmpty then none
      else (Numeral.digits? base digits).map (Numeral.ofDigitsUpTo ceiling base) := by
  obtain ⟨rfl, rfl⟩ := written_iff.mp written
  rfl

/-- A token has no value because it has no digit, or a character that is none. -/
theorem value?_eq_none_iff :
    value? token = none ↔
      digits = [] ∨ ∃ c ∈ digits, ∀ value, ¬Numeral.IsDigit base c value := by
  rw [value?_eq written, ← Numeral.digits?_eq_none_iff written.base_le.2]
  cases digits with
  | nil => simp
  | cons head tail => simp

/-- The value that is kept is the exact number, cut at the ceiling. -/
theorem value?_eq_some_iff {value : Nat} :
    value? token = some value ↔
      ∃ number, Numeral.Denotes base digits number ∧ min number ceiling = value := by
  obtain ⟨positive, inRow⟩ := written.base_le
  rw [value?_eq written]
  constructor
  · intro kept
    split at kept
    · cases kept
    · rename_i nonempty
      obtain ⟨values, isRead, isValue⟩ := Option.map_eq_some_iff.mp kept
      rw [Numeral.ofDigitsUpTo_eq_min _ _ positive, Numeral.ofDigits_eq_reverse] at isValue
      exact ⟨_, ⟨by simpa using nonempty, values, (Numeral.digits?_eq_some_iff inRow).mp isRead,
        rfl⟩, isValue⟩
  · rintro ⟨number, ⟨nonempty, values, areDigits, isNumber⟩, isValue⟩
    rw [if_neg (by simpa using nonempty), (Numeral.digits?_eq_some_iff inRow).mpr areDigits,
      Option.map_some, Numeral.ofDigitsUpTo_eq_min _ _ positive, Numeral.ofDigits_eq_reverse,
      isNumber, isValue]

end Value

/-- The word of a number that was cut at the ceiling. -/
theorem wordOfValue_min (number : Nat) :
    wordOfValue (min number ceiling) =
      if number < 65536 then .ok (UInt16.ofNat number)
      else if number < 2 ^ 32 then .error (.outOfRange number)
      else .error (.outOfRange (2 ^ 32 - 1)) := by
  unfold wordOfValue ceiling
  by_cases fits : number < 65536
  · rw [Nat.min_eq_left (by omega), if_pos fits, if_pos fits]
  · rw [if_neg (by omega), if_neg fits]
    by_cases below : number < 2 ^ 32
    · rw [if_pos below, Nat.min_eq_left (by omega), Nat.min_eq_left (by omega)]
    · rw [if_neg below, Nat.min_eq_right (by omega)]
      rfl

/-! ### The reader -/

/-- Where the grammar gives a result, the reader gives it. -/
theorem Reads.word_eq {token : Text} {result : Except Fault UInt16}
    (reads : Reads token result) : Literal.word token = result := by
  have quotedCase {c : Char} (noColon : ':' ∉ token) (quoted : IsQuoted token c) :
      Literal.word token = wordOfCharacter c := by
    rw [Literal.word, if_neg (by simpa using noColon), quotedCharacter?_eq_some_iff.mpr quoted]
  have numberCase (noColon : ':' ∉ token) (unquoted : ∀ c, ¬IsQuoted token c) :
      Literal.word token = (value? token).elim (.error .malformed) wordOfValue := by
    have noCharacter : quotedCharacter? token = none :=
      Option.eq_none_iff_forall_ne_some.mpr fun c isSome =>
        unquoted c (quotedCharacter?_eq_some_iff.mp isSome)
    rw [Literal.word, if_neg (by simpa using noColon), noCharacter]
    cases value? token with
    | none => rfl
    | some value => rfl
  have valued {base : Nat} {digits : Text} {number : Nat} (written : Written token base digits)
      (denotes : Numeral.Denotes base digits number) : value? token = some (min number ceiling) :=
    (value?_eq_some_iff written).mpr ⟨number, denotes, rfl⟩
  cases reads with
  | label colon => rw [Literal.word, if_pos (by simpa using colon)]
  | character noColon quoted ascii =>
      rw [quotedCase noColon quoted, wordOfCharacter, if_pos ascii]
  | foreignCharacter noColon quoted foreign =>
      rw [quotedCase noColon quoted, wordOfCharacter, if_neg (Nat.not_lt.mpr foreign)]
  | malformed noColon unquoted written undigital =>
      rw [numberCase noColon unquoted, (value?_eq_none_iff written).mpr undigital,
        Option.elim_none]
  | word noColon unquoted written denotes fits =>
      rw [numberCase noColon unquoted, valued written denotes, Option.elim_some]
      exact (wordOfValue_min _).trans (if_pos fits)
  | large noColon unquoted written denotes noWord below =>
      rw [numberCase noColon unquoted, valued written denotes, Option.elim_some]
      exact (wordOfValue_min _).trans ((if_neg (Nat.not_lt.mpr noWord)).trans (if_pos below))
  | huge noColon unquoted written denotes above =>
      rw [numberCase noColon unquoted, valued written denotes, Option.elim_some]
      exact (wordOfValue_min _).trans
        ((if_neg (by omega)).trans (if_neg (Nat.not_lt.mpr above)))

/-- The grammar gives every token a result. -/
theorem exists_reads (token : Text) : ∃ result, Reads token result := by
  by_cases colon : ':' ∈ token
  · exact ⟨_, .label colon⟩
  by_cases quoted : ∃ c, IsQuoted token c
  · obtain ⟨c, isCharacter⟩ := quoted
    rcases Nat.lt_or_ge c.toNat 128 with ascii | foreign
    · exact ⟨_, .character colon isCharacter ascii⟩
    · exact ⟨_, .foreignCharacter colon isCharacter foreign⟩
  have unquoted := not_exists.mp quoted
  have written : Written token _ _ := written_iff.mpr ⟨rfl, rfl⟩
  cases kept : value? token with
  | none => exact ⟨_, .malformed colon unquoted written ((value?_eq_none_iff written).mp kept)⟩
  | some value =>
      obtain ⟨number, denotes, _⟩ := (value?_eq_some_iff written).mp kept
      rcases Nat.lt_or_ge number 65536 with fits | noWord
      · exact ⟨_, .word colon unquoted written denotes fits⟩
      · rcases Nat.lt_or_ge number (2 ^ 32) with below | above
        · exact ⟨_, .large colon unquoted written denotes noWord below⟩
        · exact ⟨_, .huge colon unquoted written denotes above⟩

theorem word_eq_iff_reads {token : Text} {result : Except Fault UInt16} :
    word token = result ↔ Reads token result := by
  constructor
  · rintro rfl
    obtain ⟨result, reads⟩ := exists_reads token
    rwa [reads.word_eq]
  · exact Reads.word_eq

theorem narrow_eq_ok_iff {word : UInt16} {byte : UInt8} :
    narrow word = .ok byte ↔ word = byte.toUInt16 := by
  unfold narrow
  rw [← UInt16.toNat_inj, UInt8.toNat_toUInt16]
  have bound := byte.toNat_lt
  split
  · rename_i small
    rw [Except.ok.injEq, ← UInt8.toNat_inj, UInt8.toNat_ofNat_of_lt' small]
  · exact iff_of_false (by simp) (by omega)

end Literal

/-- Literals are read by their grammar, whatever the token is. A token is read as a word, or as
none with a reason, just if the grammar says so. It is read as a byte just if the grammar reads
it as a word of that value. It is no byte if the grammar reads it as a larger word, which is then
out of range, and for the reason of the grammar if that has no word either. -/
theorem literals_follow_grammar (token : Text) :
    (∀ result, Literal.word token = result ↔ Literal.Reads token result) ∧
      (∀ byte : UInt8, Literal.byte token = .ok byte ↔
        Literal.Reads token (.ok byte.toUInt16)) ∧
      ∀ fault, Literal.byte token = .error fault ↔
        Literal.Reads token (.error fault) ∨
          ∃ word : UInt16, 256 ≤ word.toNat ∧ Literal.Reads token (.ok word) ∧
            fault = .outOfRange word.toNat := by
  simp only [← Literal.word_eq_iff_reads, implies_true, true_and, Literal.byte]
  cases Literal.word token with
  | error reason => simp [Except.bind]
  | ok word =>
      refine ⟨fun byte => ?_, fun fault => ?_⟩
      · rw [Except.ok.injEq, ← Literal.narrow_eq_ok_iff]
        rfl
      · simp only [Except.bind, Literal.narrow]
        split
        · rename_i small
          simp [Nat.not_le.mpr small]
        · rename_i large
          simp [Nat.not_lt.mp large, eq_comm]

/-- A letter of another base may be a digit, and leading zeros do not make a number large. -/
example :
    Literal.word "B0H1".toList = .ok 0xB01 ∧ Literal.word "00000000000017O".toList = .ok 15 ∧
      Literal.word "99999999999".toList = .error (.outOfRange 4294967295) ∧
      Literal.word "99999999999X".toList = .error .malformed := by
  decide +kernel

end Asm8080
