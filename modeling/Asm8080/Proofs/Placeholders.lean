import Asm8080.Proofs.LetterCase
import Asm8080.Proofs.LineSeams

/-!
Contract: placeholders pass through the stages of tokenizing untouched.

Owns:
- the number of a placeholder, read back as it was written;
- `Renumbered`, which relates two masked texts that differ in the numbers of their
  placeholders only, where both numbers stand for the same quotation;
- the law of each stage on related texts, and that restoring them gives one text;
- the characters that preparing a text can bring in.

Does not own: where line ends and breaks cut the restored text.
-/

namespace Asm8080

/-! ### Numbers as text -/

namespace Numeral

theorem digitValue?_of_isDigit {c : Char} (digit : c.isDigit = true) :
    digitValue? 10 c = some (c.toNat - '0'.toNat) := by
  have ascii : c.toNat < 0x80 :=
    toNat_of_isAlphanum ((isAlphanum_iff c).mpr (Or.inr digit))
  exact forall_ascii
    (fun c => c.isDigit = true → digitValue? 10 c = some (c.toNat - '0'.toNat)) (by decide)
    ascii digit

theorem digits?_of_isDigit {text : Text} (digits : ∀ c ∈ text, c.isDigit = true) :
    digits? 10 text = some (text.map fun c => c.toNat - '0'.toNat) := by
  unfold digits?
  induction text with
  | nil => rfl
  | cons head tail inductionHypothesis =>
      have rest := inductionHypothesis fun c member => digits c (by simp [member])
      simp [List.mapM_cons, digitValue?_of_isDigit (digits head (by simp)), rest]

theorem ofDigits_map (text : Text) :
    ofDigits 10 (text.map fun c => c.toNat - '0'.toNat) = Nat.ofDigitChars 10 text 0 := by
  unfold ofDigits
  rw [List.foldl_map, Nat.ofDigitChars_eq_foldl]
  simp only [Nat.mul_comm]

/-- A number is read back as it was written, as long as it fits in 64 bits. -/
theorem unsigned64?_decimal (value : Nat) :
    unsigned64? (decimal value) = if value < wordCeiling then some value else none := by
  have digits : ∀ c ∈ decimal value, c.isDigit = true := fun _ =>
    Nat.isDigit_of_mem_toDigits (by decide) (by decide)
  have unsigned : unsignedPart (decimal value) = decimal value := by
    unfold unsignedPart
    split
    · rename_i tail isText
      exact absurd (digits '+' (by simp [isText])) (by decide)
    · rfl
  have nonempty : (decimal value).isEmpty = false :=
    List.isEmpty_eq_false_iff.mpr Nat.toDigits_ne_nil
  have exactly : ofDigits 10 ((decimal value).map fun c => c.toNat - '0'.toNat) = value := by
    rw [ofDigits_map]
    exact Nat.ofDigitChars_ten_toDigits
  unfold unsigned64?
  rw [unsigned, nonempty, digits?_of_isDigit digits, Option.map_some,
    ofDigitsUpTo_eq_min _ _ (by decide), exactly]
  by_cases small : value < wordCeiling
  · rw [Nat.min_eq_left (Nat.le_of_lt small), if_pos small]
    simp [small]
  · rw [Nat.min_eq_right (Nat.le_of_not_lt small), if_neg small]
    simp

end Numeral

namespace Quotation

/-! ### Placeholders -/

theorem resolve_decimal (quotations : List Text) (index : Nat) :
    resolve quotations (Numeral.decimal index) =
      (if index < Numeral.wordCeiling then quotations[index]? else none).getD
        (placeholder (Numeral.decimal index)) := by
  unfold resolve
  rw [Numeral.unsigned64?_decimal]
  split <;> split <;> simp_all

/-- What the stages ask of the characters inside a placeholder. -/
theorem unremarkable_of_mem_decimal {index : Nat} {c : Char}
    (member : c ∈ Numeral.decimal index) : Unremarkable c := by
  have alphanumeric := (isAlphanum_iff c).mpr (Or.inr (isDigit_of_mem_decimal member))
  exact unremarkable_of_isWordCharacter (by simp [isWordCharacter, alphanumeric])

theorem restore_placeholder (quotations : List Text) (index : Nat) (rest : Text) :
    restore quotations (placeholder (Numeral.decimal index) ++ rest) =
      resolve quotations (Numeral.decimal index) ++ restore quotations rest := by
  have content (done digits : Text) (closes : closeMark ∉ digits) :
      restoreFrom quotations (some done) (digits ++ closeMark :: rest) =
        resolve quotations (done.reverse ++ digits) ++ restoreFrom quotations none rest := by
    induction digits generalizing done with
    | nil => simp [restoreFrom]
    | cons head tail inductionHypothesis =>
        have different : head ≠ closeMark := fun same => closes (by simp [same])
        have later := inductionHypothesis (head :: done) fun member => closes (by simp [member])
        simp [restoreFrom, different, later]
  have closes : closeMark ∉ Numeral.decimal index := fun member =>
    absurd (isDigit_of_mem_decimal member) (by decide)
  have restored := content [] (Numeral.decimal index) closes
  simpa [restore, placeholder, restoreFrom] using restored

theorem foldFrom_placeholder (quoted pending : Bool) (index : Nat) (rest : Text) :
    Layout.foldFrom quoted pending (placeholder (Numeral.decimal index) ++ rest) =
      Layout.space pending ++
        (placeholder (Numeral.decimal index) ++ Layout.foldFrom quoted false rest) := by
  apply Layout.foldFrom_of_solid quoted pending (by simp [placeholder])
  intro c member
  simp only [placeholder, List.cons_append, List.mem_cons, List.mem_append, List.not_mem_nil,
    or_false] at member
  rcases member with isOpen | inside | isClose
  · rw [isOpen]
    exact ⟨by decide, by decide, by decide +kernel⟩
  · have digit := isDigit_of_mem_decimal inside
    have facts := forall_ascii
      (fun c => c.isDigit = true →
        c ≠ quoteMark ∧ Layout.isBlank c = false ∧ upperCase c = [c]) (by decide)
      (toNat_of_isAlphanum ((isAlphanum_iff c).mpr (Or.inr digit))) digit
    exact ⟨facts.1, facts.2.1, facts.2.2⟩
  · rw [isClose]
    exact ⟨by decide, by decide, by decide +kernel⟩

theorem tightenCommas_placeholder (index : Nat) (rest : Text) :
    Layout.tightenCommas (placeholder (Numeral.decimal index) ++ rest) =
      placeholder (Numeral.decimal index) ++ Layout.tightenCommas rest := by
  apply Layout.tightenCommas_of_noComma
  have inside : ',' ∉ Numeral.decimal index := fun member =>
    (unremarkable_of_mem_decimal member).notSeparator.2 rfl
  simp only [placeholder, List.cons_append, List.mem_cons, List.mem_append, List.not_mem_nil,
    or_false, not_or]
  exact ⟨by decide, inside, by decide⟩

theorem substituteFrom_placeholder (atBoundary : Bool) (index : Nat) (rest : Text) :
    Mnemonic.substituteFrom Mnemonic.candidates atBoundary 0
        (placeholder (Numeral.decimal index) ++ rest) =
      placeholder (Numeral.decimal index) ++
        Mnemonic.substituteFrom Mnemonic.candidates false 0 rest := by
  have inside : ∀ c ∈ Numeral.decimal index ++ [closeMark], Mnemonic.isBoundary c = false := by
    intro c member
    rcases List.mem_append.mp member with isDigit | isClose
    · exact (unremarkable_of_mem_decimal isDigit).inside
    · rw [List.mem_singleton.mp isClose]
      decide
  have later := Mnemonic.substituteFrom_inside Mnemonic.candidates _ rest inside
  have bounds : Mnemonic.isBoundary openMark = false := by decide
  have unmatched : Mnemonic.matchIn? Mnemonic.candidates
      (openMark :: (Numeral.decimal index ++ [closeMark] ++ rest)) = none :=
    Mnemonic.match?_of_not_isUpper (by decide) _
  unfold placeholder
  rw [List.cons_append, List.cons_append, Mnemonic.substituteFrom, unmatched, ite_self]
  dsimp only
  rw [bounds, later, List.cons_append]

theorem markLabels_placeholder (index : Nat) (rest : Text) :
    Token.markLabels (placeholder (Numeral.decimal index) ++ rest) =
      placeholder (Numeral.decimal index) ++ Token.markLabels rest := by
  rw [Token.markLabels_append, Token.markLabels_of_free]
  intro c member
  simp only [placeholder, List.cons_append, List.mem_cons, List.mem_append, List.not_mem_nil,
    or_false] at member
  rcases member with isOpen | inside | isClose
  · rw [isOpen]
    decide
  · exact (unremarkable_of_mem_decimal inside).unmarked
  · rw [isClose]
    decide

/-! ### Texts with other numbers -/

/-- Two masked texts that differ in the numbers of their placeholders only. The left text
belongs to one table of quotations and the right text to another, and placeholders at the
same place stand for the same quotation. -/
inductive Renumbered (left right : List Text) : Text → Text → Prop
  | nil : Renumbered left right [] []
  | plain {c : Char} {leftRest rightRest : Text} (unmarked : c ≠ openMark)
      (rest : Renumbered left right leftRest rightRest) :
      Renumbered left right (c :: leftRest) (c :: rightRest)
  | placeholder {leftIndex rightIndex : Nat} {leftRest rightRest : Text}
      (same : resolve left (Numeral.decimal leftIndex) =
        resolve right (Numeral.decimal rightIndex))
      (rest : Renumbered left right leftRest rightRest) :
      Renumbered left right (placeholder (Numeral.decimal leftIndex) ++ leftRest)
        (placeholder (Numeral.decimal rightIndex) ++ rightRest)

namespace Renumbered

variable {left right : List Text} {leftText rightText : Text}

theorem symm (related : Renumbered left right leftText rightText) :
    Renumbered right left rightText leftText := by
  induction related with
  | nil => exact .nil
  | plain unmarked _ inductionHypothesis => exact .plain unmarked inductionHypothesis
  | placeholder same _ inductionHypothesis => exact .placeholder same.symm inductionHypothesis

theorem append_plain {text : Text} (unmarked : openMark ∉ text)
    (related : Renumbered left right leftText rightText) :
    Renumbered left right (text ++ leftText) (text ++ rightText) := by
  induction text with
  | nil => exact related
  | cons head tail inductionHypothesis =>
      have headPlain : head ≠ openMark := fun same => unmarked (by simp [same])
      exact .plain headPlain (inductionHypothesis fun member => unmarked (by simp [member]))

theorem append {leftRest rightRest : Text} (related : Renumbered left right leftText rightText)
    (rest : Renumbered left right leftRest rightRest) :
    Renumbered left right (leftText ++ leftRest) (rightText ++ rightRest) := by
  induction related with
  | nil => exact rest
  | plain unmarked _ inductionHypothesis => exact .plain unmarked inductionHypothesis
  | placeholder same _ inductionHypothesis =>
      rw [List.append_assoc, List.append_assoc]
      exact .placeholder same inductionHypothesis

theorem head?_eq (related : Renumbered left right leftText rightText) :
    leftText.head? = rightText.head? := by
  cases related with
  | nil => rfl
  | plain _ _ => rfl
  | placeholder _ _ => rfl

/-- Unmarked text at the start of one text is at the start of the other. -/
theorem of_append {word leftRest : Text} (unmarked : openMark ∉ word)
    (related : Renumbered left right (word ++ leftRest) rightText) :
    ∃ rightRest, rightText = word ++ rightRest ∧ Renumbered left right leftRest rightRest := by
  induction word generalizing rightText with
  | nil => exact ⟨rightText, rfl, related⟩
  | cons head tail inductionHypothesis =>
      generalize isText : head :: tail ++ leftRest = text at related
      cases related with
      | nil => cases isText
      | plain _ rest =>
          obtain ⟨rfl, rfl⟩ := List.cons.inj isText
          obtain ⟨rightRest, isRight, later⟩ :=
            inductionHypothesis (fun member => unmarked (by simp [member])) rest
          exact ⟨rightRest, by rw [isRight]; rfl, later⟩
      | placeholder _ _ =>
          have isMark : head = openMark := (List.cons.inj isText).1
          exact absurd (by simp [isMark]) unmarked

/-! ### The stages on related texts -/

theorem foldFrom (related : Renumbered left right leftText rightText) (quoted pending : Bool) :
    Renumbered left right (Layout.foldFrom quoted pending leftText)
      (Layout.foldFrom quoted pending rightText) := by
  have space (pending : Bool) : openMark ∉ Layout.space pending := by
    cases pending <;> decide
  induction related generalizing quoted pending with
  | nil => simpa [Layout.foldFrom] using append_plain (space pending) .nil
  | @plain c _ _ unmarked _ inductionHypothesis =>
      have upper : openMark ∉ upperCase c := fun member =>
        unmarked (eq_of_mem_upperCase (by decide +kernel) member)
      unfold Layout.foldFrom
      split
      · exact append_plain (space pending) (.plain unmarked (inductionHypothesis _ _))
      · split
        · exact inductionHypothesis _ _
        · rw [List.append_assoc, List.append_assoc]
          exact append_plain (space pending) (append_plain upper (inductionHypothesis _ _))
  | placeholder same _ inductionHypothesis =>
      rw [foldFrom_placeholder, foldFrom_placeholder]
      exact append_plain (space pending) (.placeholder same (inductionHypothesis _ _))

theorem tightenCommas (related : Renumbered left right leftText rightText) :
    Renumbered left right (Layout.tightenCommas leftText) (Layout.tightenCommas rightText) := by
  -- Behind a comma the stage goes on with the text less its space, so both go into the induction.
  suffices both : Renumbered left right (Layout.tightenCommas leftText)
        (Layout.tightenCommas rightText) ∧
      Renumbered left right (Layout.tightenCommas (Layout.withoutSpace leftText))
        (Layout.tightenCommas (Layout.withoutSpace rightText)) from both.1
  induction related with
  | nil => exact ⟨.nil, .nil⟩
  | @plain c leftRest rightRest unmarked _ inductionHypothesis =>
      obtain ⟨whole, unspaced⟩ := inductionHypothesis
      have here : Renumbered left right (Layout.tightenCommas (c :: leftRest))
          (Layout.tightenCommas (c :: rightRest)) := by
        by_cases isComma : c = ','
        · rw [isComma, Layout.tightenCommas_comma, Layout.tightenCommas_comma]
          exact .plain (by decide) unspaced
        · have alone (rest : Text) : Layout.tightenCommas (c :: rest) =
              c :: Layout.tightenCommas rest := by
            rw [Layout.tightenCommas]
            exact fun _ same => absurd same isComma
          rw [alone, alone]
          exact .plain unmarked whole
      refine ⟨here, ?_⟩
      by_cases isSpace : c = ' '
      · rw [isSpace]
        exact whole
      · have kept (rest : Text) : Layout.withoutSpace (c :: rest) = c :: rest :=
          Layout.withoutSpace_of_head? (by simpa using isSpace)
        rw [kept, kept]
        exact here
  | placeholder same _ inductionHypothesis =>
      have here := Renumbered.placeholder same inductionHypothesis.1
      rw [← tightenCommas_placeholder, ← tightenCommas_placeholder] at here
      exact ⟨here, here⟩

theorem standsAt_eq (related : Renumbered left right leftText rightText) {mnemonic : Text}
    (member : mnemonic ∈ Mnemonic.all) :
    Mnemonic.standsAt mnemonic leftText = Mnemonic.standsAt mnemonic rightText := by
  have unmarked : openMark ∉ mnemonic := fun inside =>
    absurd ((Mnemonic.wellSpelled_of_mem member).spelling openMark inside) (by decide)
  have oneWay {left right : List Text} {leftText rightText : Text}
      (related : Renumbered left right leftText rightText)
      (stands : Mnemonic.standsAt mnemonic leftText = true) :
      Mnemonic.standsAt mnemonic rightText = true := by
    obtain ⟨leftRest, isLeft, ends⟩ := Mnemonic.standsAt_iff.mp stands
    rw [isLeft] at related
    obtain ⟨rightRest, isRight, rest⟩ := related.of_append unmarked
    refine Mnemonic.standsAt_iff.mpr ⟨rightRest, isRight, ?_⟩
    unfold Mnemonic.endsBefore at ends ⊢
    rwa [← rest.head?_eq]
  exact Bool.eq_iff_iff.mpr ⟨oneWay related, oneWay related.symm⟩

theorem substituteFrom (related : Renumbered left right leftText rightText) (atBoundary : Bool)
    (skip : Nat) (passed : openMark ∉ leftText.take skip) :
    Renumbered left right
      (Mnemonic.substituteFrom Mnemonic.candidates atBoundary skip leftText)
      (Mnemonic.substituteFrom Mnemonic.candidates atBoundary skip rightText) := by
  induction related generalizing atBoundary skip with
  | nil =>
      cases skip <;> exact .nil
  | @plain c leftRest rightRest unmarked rest inductionHypothesis =>
      cases skip with
      | succ skip =>
          exact inductionHypothesis atBoundary skip fun member => passed (by simp [member])
      | zero =>
          have sameMatch : Mnemonic.matchIn? Mnemonic.candidates (c :: leftRest) =
              Mnemonic.matchIn? Mnemonic.candidates (c :: rightRest) :=
            Mnemonic.match?_congr fun _ => (Renumbered.plain unmarked rest).standsAt_eq
          rw [Mnemonic.substituteFrom, Mnemonic.substituteFrom, sameMatch]
          split
          · rename_i byte opcode found
            have matched : Mnemonic.match? (c :: leftRest) = some (byte, opcode) :=
              sameMatch.trans (Mnemonic.match?_of_found found)
            have unpassed : openMark ∉ leftRest.take (opcode.mnemonic.length - 1) := fun inside =>
              absurd (Mnemonic.isSpelling_of_mem_take matched openMark inside) (by decide)
            have unmarkedByte : openMark ∉ Mnemonic.byteText byte := fun inside =>
              absurd ((Mnemonic.isWord_byteText byte).2 openMark inside) (by decide)
            exact append_plain unmarkedByte
              (.plain (by decide) (inductionHypothesis atBoundary _ unpassed))
          · exact .plain unmarked (inductionHypothesis _ 0 (by simp))
  | placeholder same _ inductionHypothesis =>
      cases skip with
      | succ skip => exact absurd (by simp [Quotation.placeholder]) passed
      | zero =>
          rw [substituteFrom_placeholder, substituteFrom_placeholder]
          exact .placeholder same (inductionHypothesis false 0 (by simp))

theorem markLabels (related : Renumbered left right leftText rightText) :
    Renumbered left right (Token.markLabels leftText) (Token.markLabels rightText) := by
  induction related with
  | nil => exact .nil
  | @plain c leftRest rightRest unmarked _ inductionHypothesis =>
      have own : openMark ∉ Token.markLabels [c] := by
        have different : openMark ≠ c := fun same => unmarked same.symm
        simp only [Token.markLabels, List.flatMap_cons, List.flatMap_nil, List.append_nil]
        split
        · simp
        · split
          · decide
          · simpa using different
      rw [← List.singleton_append, Token.markLabels_append,
        ← List.singleton_append (l := rightRest), Token.markLabels_append]
      exact append_plain own inductionHypothesis
  | placeholder same _ inductionHypothesis =>
      rw [markLabels_placeholder, markLabels_placeholder]
      exact .placeholder same inductionHypothesis

theorem prepare (related : Renumbered left right leftText rightText) :
    Renumbered left right (Asm8080.prepare leftText) (Asm8080.prepare rightText) :=
  (((related.foldFrom false false).tightenCommas).substituteFrom true 0 (by simp)).markLabels

/-- Restoring related texts gives one text, and the rest is restored from scratch. -/
theorem restore_append (related : Renumbered left right leftText rightText) (rest : Text) :
    restore left (leftText ++ rest) = restore right rightText ++ restore left rest := by
  induction related with
  | nil => rfl
  | plain unmarked _ inductionHypothesis =>
      rw [List.cons_append, restore_cons _ unmarked, restore_cons _ unmarked, inductionHypothesis,
        List.cons_append]
  | placeholder same _ inductionHypothesis =>
      rw [List.append_assoc, restore_placeholder, inductionHypothesis, restore_placeholder, same,
        List.append_assoc]

theorem restore_eq (related : Renumbered left right leftText rightText) :
    restore left leftText = restore right rightText := by
  simpa [restore, restoreFrom] using related.restore_append []

/-- What is restored is closed, if the quotations are and nothing else is a quote. -/
theorem isClosed_restore (related : Renumbered left right leftText rightText)
    (resolved : ∀ index, Quoted.IsClosed (resolve left (Numeral.decimal index)))
    (unquoted : quoteMark ∉ leftText) : Quoted.IsClosed (restore left leftText) := by
  induction related with
  | nil => exact Quoted.isClosed_of_unquoted (by simp [restore, restoreFrom])
  | @plain c leftRest _ unmarked _ inductionHypothesis =>
      have own : Quoted.IsClosed [c] :=
        Quoted.isClosed_of_unquoted fun member => unquoted (by simp_all)
      rw [restore_cons _ unmarked, ← List.singleton_append, Quoted.isClosed_append own]
      exact inductionHypothesis fun member => unquoted (by simp [member])
  | placeholder _ _ inductionHypothesis =>
      rw [restore_placeholder, Quoted.isClosed_append (resolved _)]
      exact inductionHypothesis fun member => unquoted (by simp [member])

/-- Masks of the same spans that number the quotations from different indices are related,
if the tables agree on them. -/
theorem maskFrom {leftIndex rightIndex : Nat} {spans : List Quoted.Span}
    (unmarked : openMark ∉ spans.flatMap Quoted.Span.text)
    (same : ∀ place < (spans.filterMap Quoted.Span.quotation?).length,
      resolve left (Numeral.decimal (leftIndex + place)) =
        resolve right (Numeral.decimal (rightIndex + place))) :
    Renumbered left right (maskFrom leftIndex spans) (maskFrom rightIndex spans) := by
  induction spans generalizing leftIndex rightIndex with
  | nil => exact .nil
  | cons head tail inductionHypothesis =>
      rw [List.flatMap_cons, List.mem_append, not_or] at unmarked
      obtain ⟨headUnmarked, tailUnmarked⟩ := unmarked
      cases head with
      | plain character =>
          have different : character ≠ openMark := fun isMark =>
            headUnmarked (by simp [Quoted.Span.text, isMark])
          exact .plain different (inductionHypothesis tailUnmarked same)
      | closed body =>
          have first := same 0 (by simp [Quoted.Span.quotation?])
          refine .placeholder first (inductionHypothesis tailUnmarked ?_)
          intro place inside
          have later := same (place + 1) (by simpa [Quoted.Span.quotation?] using inside)
          rwa [Nat.add_comm place 1, ← Nat.add_assoc, ← Nat.add_assoc] at later
      | unclosed body =>
          exact append_plain headUnmarked (inductionHypothesis tailUnmarked same)

end Renumbered

/-! ### The placeholders of a text -/

theorem resolve_append {quotations : List Text} {index : Nat}
    (inside : index < quotations.length) (others : List Text) :
    resolve (quotations ++ others) (Numeral.decimal index) =
      resolve quotations (Numeral.decimal index) := by
  rw [resolve_decimal, resolve_decimal, List.getElem?_append_left inside]

/-- Behind other quotations the numbers of a text's placeholders are shifted, as long as they
fit in 64 bits. -/
theorem resolve_shifted (others quotations : List Text) {index : Nat}
    (fits : others.length + index < Numeral.wordCeiling) :
    resolve (others ++ quotations) (Numeral.decimal (others.length + index)) =
      if index < quotations.length then resolve quotations (Numeral.decimal index)
      else placeholder (Numeral.decimal (others.length + index)) := by
  have ownFits : index < Numeral.wordCeiling := by omega
  rw [resolve_decimal, resolve_decimal, if_pos fits, if_pos ownFits,
    List.getElem?_append_right (by omega), Nat.add_sub_cancel_left]
  split
  · rename_i inside
    rw [List.getElem?_eq_getElem inside]
    rfl
  · rename_i outside
    rw [List.getElem?_eq_none (by omega)]
    rfl

/-- Every placeholder of closed text is put back as closed text. -/
theorem isClosed_resolve {text : Text} (closed : Quoted.IsClosed text) (index : Nat) :
    Quoted.IsClosed (resolve (Quoted.quotations text) (Numeral.decimal index)) := by
  have unresolved : Quoted.IsClosed (placeholder (Numeral.decimal index)) := by
    apply Quoted.isClosed_of_unquoted
    have inside : quoteMark ∉ Numeral.decimal index := fun member =>
      (unremarkable_of_mem_decimal member).unbroken.1 rfl
    simp only [placeholder, List.cons_append, List.mem_cons, List.mem_append, List.not_mem_nil,
      or_false, not_or]
    exact ⟨by decide, inside, by decide⟩
  unfold resolve
  split
  · rename_i quotation found
    obtain ⟨place, _, isPlace⟩ := Option.bind_eq_some_iff.mp found
    obtain ⟨span, inSpans, isQuotation⟩ := List.mem_filterMap.mp (List.mem_of_getElem? isPlace)
    have spanClosed := Quoted.isClosed_of_mem_spans closed span inSpans
    cases span with
    | plain character => cases isQuotation
    | closed body =>
        have counted : body.count quoteMark = 0 := List.count_eq_zero_of_not_mem spanClosed
        rw [← Option.some.inj isQuotation]
        simp [Quoted.IsClosed, counted]
    | unclosed body => cases isQuotation
  · exact unresolved

end Quotation

/-! ### Characters of prepared text -/

theorem Layout.mem_of_mem_foldFrom {character : Char} (uncapital : isUncapital character = true)
    (visible : character ≠ ' ') {quoted pending : Bool} {text : Text}
    (member : character ∈ foldFrom quoted pending text) : character ∈ text := by
  have notSpace (pending : Bool) : character ∉ space pending := by
    cases pending <;> simp [space, visible]
  induction text generalizing quoted pending with
  | nil => exact absurd member (notSpace pending)
  | cons head tail inductionHypothesis =>
      unfold foldFrom at member
      split at member
      · simp only [List.mem_append, List.mem_cons, notSpace, false_or] at member
        exact List.mem_cons.mpr (member.imp_right inductionHypothesis)
      · split at member
        · exact List.mem_cons_of_mem head (inductionHypothesis member)
        · simp only [List.mem_append, notSpace, false_or] at member
          refine List.mem_cons.mpr (member.imp ?_ inductionHypothesis)
          exact fun inUpper => (eq_of_mem_upperCase uncapital inUpper).symm

theorem Layout.sublist_tightenCommas (text : Text) : (tightenCommas text).Sublist text := by
  fun_induction tightenCommas text with
  | case1 tail inductionHypothesis => exact (inductionHypothesis.cons ' ').cons_cons ','
  | case2 head tail _ inductionHypothesis => exact inductionHypothesis.cons_cons head
  | case3 => exact List.Sublist.slnil

theorem Mnemonic.mem_of_mem_substituteFrom {character : Char}
    (notWord : isWordCharacter character = false) (visible : character ≠ ' ')
    {table : List (UInt8 × Opcode)} {atBoundary : Bool} {skip : Nat} {text : Text}
    (member : character ∈ substituteFrom table atBoundary skip text) : character ∈ text := by
  induction text generalizing atBoundary skip with
  | nil =>
      rw [substituteFrom] at member
      exact member
  | cons head tail inductionHypothesis =>
      cases skip with
      | succ skip => exact List.mem_cons_of_mem head (inductionHypothesis member)
      | zero =>
          rw [substituteFrom] at member
          split at member
          · rename_i byte _ _
            have notByte : character ∉ byteText byte := fun inside => by
              have isWord := (isWord_byteText byte).2 character inside
              rw [notWord] at isWord
              cases isWord
            simp only [List.mem_append, List.mem_cons, notByte, visible, false_or] at member
            exact List.mem_cons_of_mem head (inductionHypothesis member)
          · exact List.mem_cons.mpr ((List.mem_cons.mp member).imp_right inductionHypothesis)

theorem Token.mem_of_mem_markLabels {character : Char} (unmarked : character ≠ labelMark)
    {text : Text} (member : character ∈ markLabels text) : character ∈ text := by
  obtain ⟨own, inText, isOwn⟩ := List.mem_flatMap.mp member
  split at isOwn
  · cases isOwn
  · split at isOwn
    · rename_i isColon
      simp only [List.mem_cons, unmarked, List.not_mem_nil, or_false] at isOwn
      rwa [isOwn, ← isColon]
    · rwa [List.mem_singleton.mp isOwn]

/-- Preparing a text brings in capitals, opcode bytes, spaces and label marks only. -/
theorem mem_of_mem_prepare {character : Char} (uncapital : isUncapital character = true)
    (notWord : isWordCharacter character = false) (visible : character ≠ ' ')
    (unmarked : character ≠ Token.labelMark) {text : Text} (member : character ∈ prepare text) :
    character ∈ text := by
  have substituted := Token.mem_of_mem_markLabels unmarked member
  have tightened := Mnemonic.mem_of_mem_substituteFrom notWord visible substituted
  have folded := (Layout.sublist_tightenCommas _).subset tightened
  exact Layout.mem_of_mem_foldFrom uncapital visible folded

end Asm8080
