import Asm8080.Proofs.ProtectedText
import Asm8080.Proofs.WordStarts

/-!
Contract: the private marks of tokenizing and the tokens.

Owns:
- the signs, by which labels, quotations and placeholders are told, and their law: preparing a
  text keeps the signs as they are and puts a label mark behind each colon;
- the open quotation of a text, which ends with the text, and its signs through all stages;
- the characters that cutting a text keeps: all but the breaks outside quotes;
- `privateMarks_tokenize_iff`: no private mark is in a token, just if the source has no colon in
  an open quotation.

Does not own: where the tokens begin and end.
-/

namespace Asm8080

/-! ### Signs -/

namespace Token

/-- The characters that tokenizing puts into a text for itself. -/
def privateMarks : List Char :=
  [labelMark, Quotation.openMark, Quotation.closeMark]

/-- The text has no private mark. -/
def MarkFree (text : Text) : Prop :=
  ∀ mark ∈ privateMarks, mark ∉ text

instance (text : Text) : Decidable (MarkFree text) :=
  List.decidableBAll (fun mark => mark ∉ text) privateMarks

/-- The characters by which labels, quotations and placeholders are told. -/
def signs : List Char :=
  ':' :: quoteMark :: privateMarks

def signsOf (text : Text) : Text :=
  text.filter fun character => decide (character ∈ signs)

/-- A character that no stage drops or makes out of others. -/
structure IsInert (character : Char) : Prop where
  uncapital : isUncapital character = true
  upper : upperCase character = [character]
  unblank : Layout.isBlank character = false
  notWord : isWordCharacter character = false
  notDigit : character.isDigit = false
  unspelled : Mnemonic.isSpelling character = false

theorem isInert_of_mem_signs {sign : Char} (isSign : sign ∈ signs) : IsInert sign := by
  simp only [signs, privateMarks, List.mem_cons, List.not_mem_nil, or_false] at isSign
  rcases isSign with rfl | rfl | rfl | rfl | rfl
  all_goals
    exact ⟨by decide +kernel, by decide +kernel, by decide, by decide, by decide, by decide⟩

theorem mem_signsOf_iff {sign : Char} (isSign : sign ∈ signs) {text : Text} :
    sign ∈ signsOf text ↔ sign ∈ text := by
  simp [signsOf, isSign]

theorem mem_of_mem_signsOf {character : Char} {text : Text} (member : character ∈ signsOf text) :
    character ∈ text :=
  List.mem_of_mem_filter member

theorem count_signsOf {sign : Char} (isSign : sign ∈ signs) (text : Text) :
    (signsOf text).count sign = text.count sign :=
  List.count_filter (by simpa using isSign)

theorem signsOf_append (left right : Text) :
    signsOf (left ++ right) = signsOf left ++ signsOf right :=
  List.filter_append ..

theorem signsOf_eq_nil {text : Text} (free : ∀ sign ∈ signs, sign ∉ text) : signsOf text = [] := by
  apply List.filter_eq_nil_iff.mpr
  intro character member isSign
  exact free character (by simpa using isSign) member

theorem signsOf_space (pending : Bool) : signsOf (Layout.space pending) = [] := by
  cases pending <;> decide

theorem signsOf_upperCase (character : Char) :
    signsOf (upperCase character) = signsOf [character] := by
  by_cases isSign : character ∈ signs
  · rw [(isInert_of_mem_signs isSign).upper]
  · have own : signsOf [character] = [] := by simp [signsOf, isSign]
    rw [own]
    apply signsOf_eq_nil
    intro sign otherSign member
    have uncapital := (isInert_of_mem_signs otherSign).uncapital
    exact isSign (eq_of_mem_upperCase uncapital member ▸ otherSign)

theorem signsOf_foldFrom (quoted pending : Bool) (text : Text) :
    signsOf (Layout.foldFrom quoted pending text) = signsOf text := by
  induction text generalizing quoted pending with
  | nil => exact signsOf_space pending
  | cons head tail inductionHypothesis =>
      have whole : signsOf (head :: tail) = signsOf [head] ++ signsOf tail :=
        signsOf_append [head] tail
      unfold Layout.foldFrom
      split
      · rw [signsOf_append, signsOf_space, List.nil_append, ← List.singleton_append,
          signsOf_append, inductionHypothesis, whole]
      · split
        · rename_i blank
          have unsigned : signsOf [head] = [] := by
            apply signsOf_eq_nil
            intro sign isSign member
            have unblank := (isInert_of_mem_signs isSign).unblank
            rw [List.mem_singleton.mp member] at unblank
            simp [unblank] at blank
          rw [inductionHypothesis, whole, unsigned, List.nil_append]
        · rw [signsOf_append, signsOf_append, signsOf_space, List.nil_append, signsOf_upperCase,
            inductionHypothesis, whole]

theorem signsOf_tightenCommas (text : Text) :
    signsOf (Layout.tightenCommas text) = signsOf text := by
  fun_induction Layout.tightenCommas text with
  | case1 tail inductionHypothesis =>
      have comma : ',' ∉ signs := by decide
      have space : ' ' ∉ signs := by decide
      simpa [signsOf, comma, space] using inductionHypothesis
  | case2 head tail _ inductionHypothesis =>
      rw [← List.singleton_append, signsOf_append, inductionHypothesis, ← signsOf_append]
      rfl
  | case3 => rfl

theorem signsOf_substitute (text : Text) : signsOf (Mnemonic.substitute text) = signsOf text := by
  obtain ⟨stretches, isText, scans, isResult⟩ := Mnemonic.exists_scansBehind text [] true
    (iff_of_true rfl (Or.inl Mnemonic.wordStart_nil))
  rw [Mnemonic.substitute, ← isResult, ← isText, Mnemonic.results, Mnemonic.sources, signsOf,
    signsOf, List.filter_flatMap, List.filter_flatMap]
  apply List.flatMap_congr
  intro stretch member
  cases stretch with
  | copied character => rfl
  | replaced byte opcode =>
      obtain ⟨before, later, isSplit⟩ := List.append_of_mem member
      have rules := (scans before _ later isSplit).wellSpelled
      have unsigned : signsOf (Mnemonic.Stretch.replaced byte opcode).source = [] := by
        apply signsOf_eq_nil
        intro sign isSign inside
        have spelled := rules.spelling sign inside
        rw [(isInert_of_mem_signs isSign).unspelled] at spelled
        cases spelled
      have unsignedByte : signsOf (Mnemonic.byteText byte) = [] := by
        apply signsOf_eq_nil
        intro sign isSign inside
        have isWord := (Mnemonic.isWord_byteText byte).2 sign inside
        rw [(isInert_of_mem_signs isSign).notWord] at isWord
        cases isWord
      have written : signsOf (Mnemonic.Stretch.replaced byte opcode).result = [] := by
        rw [Mnemonic.Stretch.result, signsOf_append, unsignedByte]
        decide
      exact written.trans unsigned.symm

theorem signsOf_markLabels (text : Text) :
    signsOf (markLabels text) = markLabels (signsOf text) := by
  induction text with
  | nil => rfl
  | cons head tail inductionHypothesis =>
      have own : signsOf (markLabels [head]) = markLabels (signsOf [head]) := by
        by_cases isColon : head = ':'
        · rw [isColon]
          decide
        · by_cases isTab : head = '\t'
          · rw [isTab]
            decide
          · have free : ∀ c ∈ [head], c ≠ '\t' ∧ c ≠ ':' := by simp [isTab, isColon]
            rw [markLabels_of_free free,
              markLabels_of_free fun c member => free c (mem_of_mem_signsOf member)]
      rw [← List.singleton_append, markLabels_append, signsOf_append, own, inductionHypothesis,
        ← markLabels_append, ← signsOf_append]

/-- Preparing a text keeps its signs, with a label mark behind each colon. -/
theorem signsOf_prepare (text : Text) : signsOf (prepare text) = markLabels (signsOf text) := by
  rw [prepare, signsOf_markLabels, signsOf_substitute, signsOf_tightenCommas, Layout.fold,
    signsOf_foldFrom]

theorem count_markLabels {sign : Char} (visible : sign ≠ '\t') (notLabel : sign ≠ labelMark)
    (text : Text) : (markLabels text).count sign = text.count sign := by
  induction text with
  | nil => rfl
  | cons head tail inductionHypothesis =>
      have own : (markLabels [head]).count sign = [head].count sign := by
        by_cases isTab : head = '\t'
        · simp [markLabels, isTab, visible.symm]
        · by_cases isColon : head = ':'
          · simp [markLabels, isColon, List.count_cons, notLabel.symm]
          · rw [markLabels_of_free (by simp [isTab, isColon])]
      rw [← List.singleton_append, markLabels_append, List.count_append, List.count_append, own,
        inductionHypothesis]

theorem labelMark_mem_markLabels_iff {text : Text} (unmarked : labelMark ∉ text) :
    labelMark ∈ markLabels text ↔ ':' ∈ text := by
  constructor
  · intro member
    obtain ⟨own, inText, isOwn⟩ := List.mem_flatMap.mp member
    split at isOwn
    · cases isOwn
    · split at isOwn
      · rename_i isColon
        rwa [← isColon]
      · rw [List.mem_singleton.mp isOwn] at unmarked
        exact absurd inText unmarked
  · intro member
    exact List.mem_flatMap.mpr ⟨':', member, by decide⟩

theorem count_prepare {sign : Char} (isSign : sign ∈ signs) (notLabel : sign ≠ labelMark)
    (text : Text) : (prepare text).count sign = text.count sign := by
  have visible : sign ≠ '\t' := fun same => absurd (same ▸ isSign) (by decide)
  rw [← count_signsOf isSign, signsOf_prepare, count_markLabels visible notLabel,
    count_signsOf isSign]

end Token

/-! ### The open quotation -/

namespace Quoted

/-- The text of a quotation that is not closed, without its quote. -/
def Span.openBody : Span → Text
  | .unclosed body => body
  | _ => []

/-- The text behind the quote that opens a quotation and is never closed. It is empty if all
quotations are closed. -/
def openBody (text : Text) : Text :=
  (spans text).flatMap Span.openBody

theorem openBody_append {text : Text} (closed : IsClosed text) (rest : Text) :
    openBody (text ++ rest) = openBody text ++ openBody rest := by
  unfold openBody
  rw [spans_append closed, List.flatMap_append]

theorem openBody_of_unquoted {text : Text} (unquoted : quoteMark ∉ text) : openBody text = [] := by
  rw [openBody, Quotation.spans_of_unquoted unquoted]
  simp [Span.openBody]

theorem openBody_closed {body : Text} (unquoted : quoteMark ∉ body) :
    openBody (Span.closed body).text = [] := by
  rw [openBody, spans_closed unquoted]
  rfl

theorem openBody_unclosed {body : Text} (unquoted : quoteMark ∉ body) :
    openBody (quoteMark :: body) = body := by
  rw [openBody, spans_unclosed unquoted, List.flatMap_singleton]
  rfl

theorem mem_of_mem_span {character : Char} {text : Text} {span : Span}
    (inSpans : span ∈ spans text) (member : character ∈ span.text) : character ∈ text := by
  rw [← flatMap_text_spans text]
  exact List.mem_flatMap.mpr ⟨span, inSpans, member⟩

theorem mem_of_mem_openBody {character : Char} {text : Text}
    (member : character ∈ openBody text) : character ∈ text := by
  obtain ⟨span, inSpans, inBody⟩ := List.mem_flatMap.mp member
  apply mem_of_mem_span inSpans
  cases span with
  | plain own => cases inBody
  | closed body => cases inBody
  | unclosed body => exact List.mem_cons_of_mem _ inBody

theorem mem_of_mem_quotations {character : Char} {text : Text}
    (member : character ∈ (quotations text).flatten) : character ∈ text := by
  obtain ⟨quotation, isQuotation, inside⟩ := List.mem_flatten.mp member
  obtain ⟨span, inSpans, isSpan⟩ := List.mem_filterMap.mp isQuotation
  apply mem_of_mem_span inSpans
  cases span with
  | plain own => cases isSpan
  | closed body =>
      have same : (Span.closed body).text = quotation := Option.some.inj isSpan
      rwa [same]
  | unclosed body => cases isSpan

/-- The text behind its first quote. -/
def behindQuote : Text → Text
  | [] => []
  | head :: tail => if head = quoteMark then tail else behindQuote tail

theorem behindQuote_append {left : Text} (unquoted : quoteMark ∉ left) (right : Text) :
    behindQuote (left ++ right) = behindQuote right := by
  induction left with
  | nil => rfl
  | cons head tail inductionHypothesis =>
      have headPlain : head ≠ quoteMark := fun same => unquoted (by simp [same])
      rw [List.cons_append, behindQuote, if_neg headPlain]
      exact inductionHypothesis fun member => unquoted (by simp [member])

/-- A stage that treats each character for itself and keeps the quotes does not look across
one. -/
theorem behindQuote_stage {stage : Text → Text} (empty : stage [] = [])
    (append : ∀ left right, stage (left ++ right) = stage left ++ stage right)
    (quote : stage [quoteMark] = [quoteMark])
    (plain : ∀ character, character ≠ quoteMark → quoteMark ∉ stage [character]) (text : Text) :
    behindQuote (stage text) = stage (behindQuote text) := by
  induction text with
  | nil => rw [behindQuote, empty, behindQuote]
  | cons head tail inductionHypothesis =>
      rw [← List.singleton_append, append]
      by_cases atQuote : head = quoteMark
      · rw [atQuote, quote, List.singleton_append, List.singleton_append, behindQuote, behindQuote,
          if_pos rfl, if_pos rfl]
      · have unquoted : quoteMark ∉ [head] := by simpa using Ne.symm atQuote
        rw [behindQuote_append (plain head atQuote), inductionHypothesis,
          behindQuote_append unquoted]

theorem behindQuote_signsOf (text : Text) :
    behindQuote (Token.signsOf text) = Token.signsOf (behindQuote text) := by
  apply behindQuote_stage rfl Token.signsOf_append (by decide)
  intro character different member
  exact different (List.mem_singleton.mp (Token.mem_of_mem_signsOf member)).symm

theorem behindQuote_markLabels (text : Text) :
    behindQuote (Token.markLabels text) = Token.markLabels (behindQuote text) := by
  apply behindQuote_stage rfl Token.markLabels_append (by decide)
  intro character different member
  have isQuote := Token.mem_of_mem_markLabels (by decide) member
  exact different (List.mem_singleton.mp isQuote).symm

/-- The signs behind the first quote of a text, when it is prepared. -/
theorem signsOf_behindQuote_prepare (text : Text) :
    Token.signsOf (behindQuote (prepare text)) =
      Token.markLabels (Token.signsOf (behindQuote text)) := by
  rw [← behindQuote_signsOf, Token.signsOf_prepare, behindQuote_markLabels, behindQuote_signsOf]

end Quoted

/-! ### Restored text -/

namespace Quotation

/-- An open quotation has no placeholder inside, so it stays as it is. -/
theorem restore_unclosed (table : List Text) {body : Text} (unmarked : Unmarked body) :
    restore table (quoteMark :: body) = quoteMark :: body := by
  apply restore_of_unmarked
  intro member
  rcases List.mem_cons.mp member with isQuote | inside
  · exact absurd isQuote (by decide)
  · exact unmarked openMark (by decide) inside

namespace Carries

variable {table carried : List Text} {text : Text}

/-- Behind its first quote a masked text is the open quotation of the restored one. -/
theorem openBody_restore (carries : Carries table carried text) :
    Quoted.openBody (restore table text) = Quoted.behindQuote text := by
  induction carries with
  | nil => rfl
  | @plain c _ rest unmarked _ inductionHypothesis =>
      have unquoted : quoteMark ∉ [c] := unmarked quoteMark (by decide)
      have plain : c ≠ openMark := fun same => unmarked openMark (by decide) (by simp [same])
      rw [restore_cons _ plain, ← List.singleton_append,
        Quoted.openBody_append (Quoted.isClosed_of_unquoted unquoted),
        Quoted.openBody_of_unquoted unquoted, List.nil_append, inductionHypothesis,
        ← List.singleton_append, Quoted.behindQuote_append unquoted]
  | @placeholder index body _ rest resolved unquoted _ inductionHypothesis =>
      rw [restore_placeholder, resolved, Quoted.openBody_append (Quoted.isClosed_closed unquoted),
        Quoted.openBody_closed unquoted, List.nil_append, inductionHypothesis,
        Quoted.behindQuote_append (unquoted_placeholder index)]
  | @unclosed rest unmarked =>
      rw [restore_unclosed _ unmarked, Quoted.openBody_unclosed (unmarked quoteMark (by decide)),
        Quoted.behindQuote, if_pos rfl]

/-- Restoring takes the marks of each placeholder away and brings its quotation in. -/
theorem count_restore {sign : Char} (notDigit : sign.isDigit = false)
    (carries : Carries table carried text) :
    (restore table text).count sign + carried.length * [openMark, closeMark].count sign =
      text.count sign + carried.flatten.count sign := by
  have each := count_placeholder notDigit
  generalize [openMark, closeMark].count sign = marks at each ⊢
  induction carries with
  | nil => simp [restore, restoreFrom]
  | @plain c _ rest unmarked _ inductionHypothesis =>
      have plain : c ≠ openMark := fun same => unmarked openMark (by decide) (by simp [same])
      rw [restore_cons _ plain, List.count_cons, List.count_cons]
      omega
  | @placeholder index body _ rest resolved unquoted _ inductionHypothesis =>
      rw [restore_placeholder, resolved, List.count_append, List.count_append, each,
        List.flatten_cons, List.count_append, List.length_cons, Nat.succ_mul]
      omega
  | @unclosed rest unmarked =>
      rw [restore_unclosed _ unmarked]
      simp

end Carries

end Quotation

/-! ### Cutting -/

namespace Quoted

/-- What cutting keeps of a span: all of it but a break outside quotes. -/
def Span.kept (isBreak : Char → Bool) : Span → Text
  | .plain character => [character].filter (!isBreak ·)
  | .closed body => (Span.closed body).text
  | .unclosed body => (Span.unclosed body).text

private theorem flatten_splitFrom (isBreak : Char → Bool) (text : Text) :
    (∀ piece, (splitFrom isBreak false piece text).flatten =
      piece.reverse ++ (spansFrom none text).flatMap (Span.kept isBreak)) ∧
    ∀ piece body, (splitFrom isBreak true (body ++ quoteMark :: piece) text).flatten =
      piece.reverse ++ (spansFrom (some body) text).flatMap (Span.kept isBreak) := by
  induction text with
  | nil => simp [splitFrom, spansFrom, Span.kept, Span.text]
  | cons head tail inductionHypothesis =>
      obtain ⟨outside, inside⟩ := inductionHypothesis
      by_cases atQuote : head = quoteMark
      · refine ⟨fun piece => ?_, fun piece body => ?_⟩
        · simpa [splitFrom, spansFrom, atQuote] using inside piece []
        · simp [splitFrom, spansFrom, atQuote, outside, Span.kept, Span.text]
      · refine ⟨fun piece => ?_, fun piece body => ?_⟩
        · by_cases breaks : isBreak head
          · simp [splitFrom, spansFrom, atQuote, breaks, outside, Span.kept]
          · simp [splitFrom, spansFrom, atQuote, breaks, outside, Span.kept]
        · simpa [splitFrom, spansFrom, atQuote] using inside piece (head :: body)

/-- The pieces put together are the text less its breaks outside quotes. -/
theorem flatten_split (isBreak : Char → Bool) (text : Text) :
    (split isBreak text).flatten = (spans text).flatMap (Span.kept isBreak) :=
  (flatten_splitFrom isBreak text).1 []

theorem mem_text_of_mem_kept {isBreak : Char → Bool} {character : Char} {span : Span}
    (member : character ∈ span.kept isBreak) : character ∈ span.text := by
  cases span with
  | plain own =>
      have filtered : character ∈ [own].filter (!isBreak ·) := member
      exact List.mem_of_mem_filter filtered
  | closed body => exact member
  | unclosed body => exact member

/-- Cutting brings no character in. -/
theorem mem_of_mem_flatten_split {isBreak : Char → Bool} {character : Char} {text : Text}
    (member : character ∈ (split isBreak text).flatten) : character ∈ text := by
  rw [flatten_split] at member
  obtain ⟨span, inSpans, inKept⟩ := List.mem_flatMap.mp member
  exact mem_of_mem_span inSpans (mem_text_of_mem_kept inKept)

/-- A break that is in a piece stands inside quotes. -/
theorem break_mem_flatten_split_iff {isBreak : Char → Bool} {break_ : Char}
    (breaks : isBreak break_ = true) (unquoted : break_ ≠ quoteMark) (text : Text) :
    break_ ∈ (split isBreak text).flatten ↔
      break_ ∈ (quotations text).flatten ∨ break_ ∈ openBody text := by
  rw [flatten_split, openBody, quotations]
  generalize spans text = spans
  induction spans with
  | nil => simp
  | cons head tail inductionHypothesis =>
      rw [List.flatMap_cons, List.mem_append, inductionHypothesis, List.flatMap_cons,
        List.mem_append]
      cases head with
      | plain character =>
          have dropped : break_ ∉ (Span.plain character).kept isBreak := fun member => by
            simpa [breaks] using List.of_mem_filter member
          have outside : break_ ∉ (Span.plain character).openBody := List.not_mem_nil
          rw [List.filterMap_cons_none rfl]
          simp only [dropped, outside, false_or]
      | closed body =>
          have outside : break_ ∉ (Span.closed body).openBody := List.not_mem_nil
          have isQuotation : (Span.closed body).quotation? = some (Span.closed body).text := rfl
          simp only [List.filterMap_cons_some isQuotation, List.flatten_cons, List.mem_append,
            Span.kept, outside, false_or, or_assoc]
      | unclosed body =>
          have inside : break_ ∈ (Span.unclosed body).kept isBreak ↔
              break_ ∈ (Span.unclosed body).openBody := by
            simp [Span.kept, Span.text, Span.openBody, unquoted]
          rw [List.filterMap_cons_none rfl, inside]
          exact or_left_comm

end Quoted

/-! ### Tokens -/

namespace Token

/-- Text without comments, prepared and with its quotations back in place. -/
def restored (code : Text) : Text :=
  Quotation.restore (Quoted.quotations code) (prepare (Quotation.protect code).text)

theorem exists_mem_split_iff {character : Char} {text : Text} :
    (∃ token ∈ split text, character ∈ token) ↔
      character ∈ (Quoted.split isBreak text).flatten := by
  rw [← List.mem_flatten, split, List.flatten_filter_not_isEmpty]

section

variable {code : Text} (unmarked : Quotation.openMark ∉ code)
  (fits : (Quoted.quotations code).length ≤ Numeral.wordCeiling)
include unmarked fits

/-- All signs but the label marks are as many as before. -/
theorem count_restored {sign : Char} (isSign : sign ∈ signs) (notLabel : sign ≠ labelMark) :
    (restored code).count sign = code.count sign := by
  have notDigit := (isInert_of_mem_signs isSign).notDigit
  have carries := Quotation.carries_protect unmarked fits
  have before := carries.count_restore notDigit
  have behind := carries.prepare.count_restore notDigit
  rw [Quotation.restore_protect (Quotation.enclosed_of_not_mem unmarked) fits] at before
  rw [count_prepare isSign notLabel] at behind
  unfold restored
  omega

theorem signsOf_openBody_restored :
    signsOf (Quoted.openBody (restored code)) = markLabels (signsOf (Quoted.openBody code)) := by
  have carries := Quotation.carries_protect unmarked fits
  have before := carries.openBody_restore
  rw [Quotation.restore_protect (Quotation.enclosed_of_not_mem unmarked) fits] at before
  rw [restored, carries.prepare.openBody_restore, Quoted.signsOf_behindQuote_prepare, before]

end

theorem labelMark_mem_ofCode_iff {code : Text} (free : MarkFree code)
    (fits : (Quoted.quotations code).length ≤ Numeral.wordCeiling) :
    (∃ token ∈ ofCode code, labelMark ∈ token) ↔ ':' ∈ Quoted.openBody code := by
  have unmarked : Quotation.openMark ∉ code := free _ (by decide)
  have unlabelled : labelMark ∉ code := free _ (by decide)
  -- The quotations come back as they were written, so only the open one can hold a mark.
  have quotations : Quoted.quotations (restored code) = Quoted.quotations code :=
    (Quotation.carries_protect unmarked fits).prepare.quotations_restore
  have unquoted : labelMark ∉ (Quoted.quotations code).flatten := fun member =>
    unlabelled (Quoted.mem_of_mem_quotations member)
  have unlabelledBody : labelMark ∉ signsOf (Quoted.openBody code) := fun member =>
    unlabelled (Quoted.mem_of_mem_openBody (mem_of_mem_signsOf member))
  calc (∃ token ∈ ofCode code, labelMark ∈ token)
      ↔ labelMark ∈ (Quoted.split isBreak (restored code)).flatten := exists_mem_split_iff
    _ ↔ labelMark ∈ Quoted.openBody (restored code) := by
        rw [Quoted.break_mem_flatten_split_iff (by decide) (by decide), quotations,
          or_iff_right unquoted]
    _ ↔ labelMark ∈ markLabels (signsOf (Quoted.openBody code)) := by
        rw [← mem_signsOf_iff (by decide), signsOf_openBody_restored unmarked fits]
    _ ↔ ':' ∈ Quoted.openBody code := by
        rw [labelMark_mem_markLabels_iff unlabelledBody, mem_signsOf_iff (by decide)]

/-- The marks of placeholders are in no token. -/
theorem not_mem_of_mem_ofCode {code : Text} (free : MarkFree code)
    (fits : (Quoted.quotations code).length ≤ Numeral.wordCeiling) {mark : Char}
    (isMark : mark ∈ privateMarks) (notLabel : mark ≠ labelMark) :
    ∀ token ∈ ofCode code, mark ∉ token := by
  intro token isToken member
  have inText : mark ∈ restored code :=
    Quoted.mem_of_mem_flatten_split (exists_mem_split_iff.mp ⟨token, isToken, member⟩)
  have isSign : mark ∈ signs := by simp [signs, isMark]
  have counted := count_restored (free _ (by decide)) fits isSign notLabel
  rw [List.count_eq_zero_of_not_mem (free mark isMark)] at counted
  exact List.count_eq_zero.mp counted inText

end Token

/-! ### Sources -/

theorem Comment.mem_of_mem_strip {character : Char} (notEnd : character ≠ '\n') {source : Text}
    (member : character ∈ strip source) : character ∈ source := by
  rcases List.mem_append.mp ((sublist_strip source).subset member) with inside | isEnd
  · exact inside
  · exact absurd (List.mem_singleton.mp isEnd) notEnd

/-- The private marks and the tokens of a source that has none of them. A placeholder leaves no
mark behind, and no private mark at all is in a token just if the source, less its comments, has
no colon behind a quote that is never closed. -/
theorem privateMarks_tokenize_iff {source : Text}
    (free : Token.MarkFree source) (addressable : source.Addressable) :
    (∀ token ∈ tokenize source,
      Quotation.openMark ∉ token ∧ Quotation.closeMark ∉ token) ∧
    ((∀ token ∈ tokenize source, Token.MarkFree token) ↔
      ':' ∉ Quoted.openBody (Comment.strip source)) := by
  have codeFree : Token.MarkFree (Comment.strip source) := by
    intro mark isMark member
    have notEnd : mark ≠ '\n' := fun same => absurd (same ▸ isMark) (by decide)
    exact free mark isMark (Comment.mem_of_mem_strip notEnd member)
  have fits : (Quoted.quotations (Comment.strip source)).length ≤ Numeral.wordCeiling := by
    have counted := Quoted.length_quotations_le (Comment.strip source)
    have length := Comment.length_strip_le source
    unfold Text.Addressable at addressable
    omega
  rw [Token.tokenize_eq_ofCode]
  have others {mark : Char} (isMark : mark ∈ Token.privateMarks)
      (notLabel : mark ≠ Token.labelMark) :=
    Token.not_mem_of_mem_ofCode codeFree fits isMark notLabel
  refine ⟨fun token isToken => ⟨others (by decide) (by decide) token isToken,
    others (by decide) (by decide) token isToken⟩, ?_⟩
  rw [← Token.labelMark_mem_ofCode_iff codeFree fits]
  constructor
  · rintro clean ⟨token, isToken, member⟩
    exact clean token isToken Token.labelMark (by decide) member
  · intro unlabelled token isToken mark isMark member
    by_cases isLabel : mark = Token.labelMark
    · exact unlabelled ⟨token, isToken, isLabel ▸ member⟩
    · exact others isMark isLabel token isToken member

private def quotedColons : Text :=
  "msg: db 'a: b', 'x:' ; it's: so\nl2:cpi 'q r".toList

/-- Colons behind labels, in closed quotations and in a comment, and a quote that is never
closed. -/
theorem privateMarks_tokenize_iff_quotedColons :
    (Token.MarkFree quotedColons ∧ quotedColons.Addressable) ∧
      tokenize quotedColons =
        ["MSG:", "DB", "'a: b','x:'", "L2:", "FE", "'Q R\n"].map String.toList ∧
      ∀ token ∈ tokenize quotedColons, Token.MarkFree token := by
  have free : Token.MarkFree quotedColons := by decide +kernel
  have addressable : quotedColons.Addressable := by decide +kernel
  refine ⟨⟨free, addressable⟩, ?_, ?_⟩
  · simp only [tokenize, Tokenized.ofSource, prepare, Mnemonic.substitute_eq_defined]
    decide +kernel
  · exact (privateMarks_tokenize_iff free addressable).2.mpr (by decide +kernel)

private def openColon : Text :=
  "DB 'a:b".toList

/-- The mark behind a colon stays in the token, where a quote before the colon is never closed. -/
theorem labelMark_behind_open_quote :
    Token.MarkFree openColon ∧
      tokenize openColon = ["DB", "'A:\uE000B\n"].map String.toList ∧
      ¬∀ token ∈ tokenize openColon, Token.MarkFree token := by
  have tokens : tokenize openColon = ["DB", "'A:\uE000B\n"].map String.toList := by
    simp only [tokenize, Tokenized.ofSource, prepare, Mnemonic.substitute_eq_defined]
    decide +kernel
  refine ⟨by decide +kernel, tokens, ?_⟩
  rw [tokens]
  decide

end Asm8080
