import Asm8080.Proofs.MnemonicMatch

/-!
Contract: words, inside which no stage of tokenizing looks.

Owns:
- the characters of words, and what the stages find them not to be;
- the substitution of mnemonics at words, boundaries and mnemonics;
- the cutting of substituted text at its words.

Does not own: which words a program has.
-/

namespace Asm8080

/-! ### Words -/

def isWordCharacter (character : Char) : Bool :=
  character.isAlphanum || character == '_'

/-- What the stages of tokenizing ask of the characters of a word. -/
structure Unremarkable (character : Char) : Prop where
  plain : Layout.isPlain character = true
  inside : Mnemonic.isBoundary character = false
  unblank : isWhiteSpace character = false
  unbroken : character ≠ quoteMark ∧ Token.isBreak character = false
  unmarked : character ≠ '\t' ∧ character ≠ ':'
  notSeparator : character ≠ ' ' ∧ character ≠ ','

theorem toNat_of_isWordCharacter {character : Char} (word : isWordCharacter character = true) :
    character.toNat < 0x80 := by
  simp only [isWordCharacter, Bool.or_eq_true, beq_iff_eq] at word
  rcases word with alphanumeric | isUnderscore
  · exact toNat_of_isAlphanum alphanumeric
  · rw [isUnderscore]
    decide

theorem unremarkable_of_isWordCharacter {character : Char}
    (word : isWordCharacter character = true) : Unremarkable character := by
  have facts := forall_ascii
    (fun c => isWordCharacter c = true → Layout.isPlain c = true ∧
      Mnemonic.isBoundary c = false ∧ isWhiteSpace c = false ∧
        (c ≠ quoteMark ∧ Token.isBreak c = false) ∧ (c ≠ '\t' ∧ c ≠ ':') ∧ (c ≠ ' ' ∧ c ≠ ','))
    (by decide) (toNat_of_isWordCharacter word) word
  obtain ⟨plain, inside, unblank, unbroken, unmarked, notSeparator⟩ := facts
  exact ⟨plain, inside, unblank, unbroken, unmarked, notSeparator⟩

theorem isWordCharacter_toUpper {character : Char} (word : isWordCharacter character = true) :
    isWordCharacter character.toUpper = true :=
  forall_ascii (fun c => isWordCharacter c = true → isWordCharacter c.toUpper = true) (by decide)
    (toNat_of_isWordCharacter word) word

theorem isWordCharacter_of_isHexDigit {character : Char}
    (hexadecimal : Numeral.isHexDigit character = true) : isWordCharacter character = true := by
  by_cases ascii : character.toNat < 0x80
  · exact forall_ascii (fun c => Numeral.isHexDigit c = true → isWordCharacter c = true)
      (by decide) ascii hexadecimal
  · have beyond (limit : Char) (low : limit.toNat < 0x80) : ¬character ≤ limit := by
      intro atMost
      have small : character.toNat ≤ limit.toNat := atMost
      omega
    have noWeight : Numeral.digitWeight? character = none := by
      simp [Numeral.digitWeight?, beyond '9' (by decide), beyond 'Z' (by decide),
        beyond 'z' (by decide)]
    simp [Numeral.isHexDigit, Numeral.digitValue?, noWeight] at hexadecimal

def IsWord (text : Text) : Prop :=
  text ≠ [] ∧ ∀ c ∈ text, isWordCharacter c = true

namespace IsWord

variable {word : Text}

theorem unremarkable (isWord : IsWord word) : ∀ c ∈ word, Unremarkable c :=
  fun c member => unremarkable_of_isWordCharacter (isWord.2 c member)

theorem toUpper (isWord : IsWord word) : IsWord (word.map Char.toUpper) := by
  refine ⟨by simpa using isWord.1, ?_⟩
  intro c member
  obtain ⟨own, inWord, isUpper⟩ := List.mem_map.mp member
  rw [← isUpper]
  exact isWordCharacter_toUpper (isWord.2 own inWord)

theorem settled (isWord : IsWord word) : Layout.Settled word :=
  Layout.Settled.of_noSpace fun c member => (isWord.unremarkable c member).notSeparator.1

end IsWord

theorem Mnemonic.isWord_byteText (byte : UInt8) : IsWord (byteText byte) := by
  have digits : ∀ value < 16, isWordCharacter (Numeral.digit value) = true := by decide
  have high : isWordCharacter (Numeral.digit (byte.toNat / 16)) = true :=
    digits _ (by have bound := byte.toNat_lt; omega)
  have low : isWordCharacter (Numeral.digit (byte.toNat % 16)) = true :=
    digits _ (Nat.mod_lt _ (by decide))
  have zero : isWordCharacter '0' = true := by decide
  unfold byteText Numeral.hexByte
  dsimp only
  split
  · simp [IsWord, high, low, zero]
  · simp [IsWord, high, low]

/-! ### Mnemonics at words -/

namespace Mnemonic

/-- No mnemonic stands at a word that is none itself and that no character of
mnemonics follows. -/
theorem match?_word {word rest : Text} {next : Char} (isWord : IsWord word)
    (notMnemonic : word ∉ all) (ended : isSpelling next = false) :
    match? (word ++ next :: rest) = none := by
  apply match?_eq_none
  intro mnemonic member
  apply Bool.eq_false_iff.mpr
  intro stands
  obtain ⟨behind, isText, ends⟩ := standsAt_iff.mp stands
  have different : mnemonic ≠ word := by
    intro same
    rw [same] at member
    exact notMnemonic member
  rcases List.append_eq_append_iff.mp isText with
    ⟨gap, isMnemonic, isRest⟩ | ⟨gap, isWordText, isBehind⟩
  · cases gap with
    | nil => exact different (by simpa using isMnemonic)
    | cons head tail =>
        have isNext : next = head := by simpa using (List.cons.inj isRest).1
        have spelled := (wellSpelled_of_mem member).spelling head (by simp [isMnemonic])
        rw [← isNext, ended] at spelled
        cases spelled
  · cases gap with
    | nil => exact different (by simpa using isWordText.symm)
    | cons head tail =>
        have headUnblank := (isWord.unremarkable head (by simp [isWordText])).unblank
        have noComma : mnemonic.getLast? ≠ some ',' := by
          intro comma
          have inWord : ',' ∈ word := by
            rw [isWordText]
            exact List.mem_append_left _ (List.mem_of_getLast? comma)
          exact (isWord.unremarkable ',' inWord).notSeparator.2 rfl
        rw [isBehind] at ends
        simp [endsBefore, noComma, headUnblank] at ends

theorem substituteFrom_skip (table : List (UInt8 × Opcode)) (atBoundary : Bool) (skip : Nat)
    (text : Text) :
    substituteFrom table atBoundary skip text =
      substituteFrom table atBoundary 0 (text.drop skip) := by
  induction skip generalizing text with
  | zero => rfl
  | succ skip inductionHypothesis =>
      cases text with
      | nil => simp [substituteFrom]
      | cons head tail => simp [substituteFrom, inductionHypothesis tail]

/-- Inside a word nothing is substituted. -/
theorem substituteFrom_inside (table : List (UInt8 × Opcode)) (word rest : Text)
    (inside : ∀ c ∈ word, isBoundary c = false) :
    substituteFrom table false 0 (word ++ rest) = word ++ substituteFrom table false 0 rest := by
  induction word with
  | nil => rfl
  | cons head tail inductionHypothesis =>
      have here := inside head (by simp)
      have later := inductionHypothesis fun c member => inside c (by simp [member])
      simp [substituteFrom, here, later]

theorem substitute_word {word rest : Text} (isWord : IsWord word)
    (unmatched : match? (word ++ rest) = none) :
    substitute (word ++ rest) = word ++ substituteFrom candidates false 0 rest := by
  cases word with
  | nil => exact absurd rfl isWord.1
  | cons head tail =>
      have inside : ∀ c ∈ head :: tail, isBoundary c = false :=
        fun c member => (isWord.unremarkable c member).inside
      have unmatched' : matchIn? candidates (head :: (tail ++ rest)) = none := unmatched
      have later := substituteFrom_inside candidates tail rest
        fun c member => inside c (by simp [member])
      simp [substitute, substituteFrom, unmatched', inside head (by simp), later]

/-- Every mnemonic starts with a capital letter. -/
theorem match?_of_not_isUpper {head : Char} (notUpper : head.isUpper = false) (rest : Text) :
    match? (head :: rest) = none := by
  apply match?_eq_none
  intro mnemonic member
  apply Bool.eq_false_iff.mpr
  intro stands
  obtain ⟨behind, isText, _⟩ := standsAt_iff.mp stands
  have starts := (wellSpelled_of_mem member).starts
  cases mnemonic with
  | nil => cases starts
  | cons first others =>
      have isHead : head = first := (List.cons.inj isText).1
      rw [isHead] at notUpper
      simp [notUpper] at starts

/-- Behind a boundary, which is kept, a mnemonic may start. -/
theorem substituteFrom_boundary (atBoundary : Bool) {boundary : Char} (rest : Text)
    (bounds : isBoundary boundary = true) (notUpper : boundary.isUpper = false) :
    substituteFrom candidates atBoundary 0 (boundary :: rest) = boundary :: substitute rest := by
  have unmatched : matchIn? candidates (boundary :: rest) = none :=
    match?_of_not_isUpper notUpper rest
  simp [substitute, substituteFrom, unmatched, bounds]

theorem substitute_space (rest : Text) : substitute (' ' :: rest) = ' ' :: substitute rest :=
  substituteFrom_boundary true rest (by decide) (by decide)

theorem substituteFrom_lineEnd (atBoundary : Bool) (rest : Text) :
    substituteFrom candidates atBoundary 0 ('\n' :: rest) = '\n' :: substitute rest :=
  substituteFrom_boundary atBoundary rest (by decide) (by decide)

theorem substituteFrom_colon (atBoundary : Bool) (rest : Text) :
    substituteFrom candidates atBoundary 0 (':' :: rest) = ':' :: substitute rest :=
  substituteFrom_boundary atBoundary rest (by decide) (by decide)

/-- The operand of a line, with or without a space in front, stays as it is. -/
theorem substitute_operand {gap word : Text} (isGap : gap = [] ∨ gap = [' ']) (isWord : IsWord word)
    (notMnemonic : word ∉ all) (rest : Text) :
    substitute (gap ++ word ++ '\n' :: rest) = gap ++ word ++ '\n' :: substitute rest := by
  have operand : substitute (word ++ '\n' :: rest) = word ++ '\n' :: substitute rest := by
    rw [substitute_word isWord (match?_word isWord notMnemonic (by decide)), substituteFrom_lineEnd]
  rcases isGap with noGap | isSpace
  · simpa [noGap] using operand
  · simpa [isSpace, substitute_space] using operand

/-- A mnemonic at a boundary is replaced by its byte. -/
theorem substitute_mnemonic {byte : UInt8} {opcode : Opcode} {rest : Text}
    (member : (byte, opcode) ∈ Opcode.defined)
    (ends : endsBefore opcode.mnemonic rest = true) :
    substitute (opcode.mnemonic ++ rest) = byteText byte ++ ' ' :: substitute rest := by
  have matched : match? (opcode.mnemonic ++ rest) = some (byte, opcode) :=
    match?_eq_some member (standsAt_iff.mpr ⟨rest, rfl, ends⟩)
  have nonempty := (wellSpelled_of_mem (mem_all_of_mem_defined member)).ne_nil
  cases isMnemonic : opcode.mnemonic with
  | nil => exact absurd isMnemonic nonempty
  | cons head tail =>
      rw [isMnemonic] at matched
      have matched' : matchIn? candidates (head :: (tail ++ rest)) = some (byte, opcode) :=
        matched
      have behind := substituteFrom_skip candidates true tail.length (tail ++ rest)
      rw [List.drop_left] at behind
      simp [substitute, substituteFrom, matched', isMnemonic, behind]

end Mnemonic

/-! ### Words as tokens -/

namespace Token

theorem markLabels_word {word : Text} (isWord : IsWord word) (rest : Text) :
    markLabels (word ++ rest) = word ++ markLabels rest := by
  rw [markLabels_append, markLabels_of_free fun c member => (isWord.unremarkable c member).unmarked]

theorem isBreak_of_blank {blank : Char} (isBlank : blank = ' ' ∨ blank = '\n') :
    isBreak blank = true := by
  rcases isBlank with isSpace | isEnd
  · simp [isBreak, isSpace]
  · simp [isBreak, isEnd]

theorem markLabels_blank {blank : Char} (isBlank : blank = ' ' ∨ blank = '\n') (rest : Text) :
    markLabels (blank :: rest) = blank :: markLabels rest := by
  rcases isBlank with isSpace | isEnd
  · simp [markLabels, isSpace]
  · simp [markLabels, isEnd]

theorem split_blank {blank : Char} (isBlank : blank = ' ' ∨ blank = '\n') (rest : Text) :
    split (markLabels (blank :: rest)) = split (markLabels rest) := by
  rw [markLabels_blank isBlank, split_break _ (isBreak_of_blank isBlank)]

/-- A word before a space or a line end is a token. -/
theorem split_word {word : Text} {blank : Char} (isWord : IsWord word)
    (isBlank : blank = ' ' ∨ blank = '\n') (rest : Text) :
    split (markLabels (word ++ blank :: rest)) = word :: split (markLabels rest) := by
  rw [markLabels_word isWord, markLabels_blank isBlank,
    split_append (fun c member => (isWord.unremarkable c member).unbroken)
      (isBreak_of_blank isBlank) isWord.1]

theorem split_operand {gap word : Text} (isGap : gap = [] ∨ gap = [' ']) (isWord : IsWord word)
    (rest : Text) :
    split (markLabels (gap ++ word ++ '\n' :: rest)) = word :: split (markLabels rest) := by
  have operand := split_word isWord (Or.inr rfl) rest
  rcases isGap with noGap | isSpace
  · simpa [noGap] using operand
  · simpa [isSpace, split_blank (Or.inl rfl)] using operand

/-- A word before a colon is a token with that colon. -/
theorem split_label {word rest : Text} (isWord : IsWord word) :
    split (markLabels (word ++ ':' :: rest)) = (word ++ [':']) :: split (markLabels rest) := by
  have marked : markLabels (':' :: rest) = ':' :: labelMark :: markLabels rest := rfl
  have unbroken : ∀ c ∈ word ++ [':'], c ≠ quoteMark ∧ isBreak c = false := by
    intro c member
    rcases List.mem_append.mp member with inWord | isColon
    · exact (isWord.unremarkable c inWord).unbroken
    · rw [List.mem_singleton.mp isColon]
      decide
  rw [markLabels_word isWord, marked, List.append_cons,
    split_append unbroken (by decide) (by simp)]

end Token

end Asm8080
