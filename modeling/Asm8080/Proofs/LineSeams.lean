import Mathlib.Data.List.Find
import Asm8080.Proofs.Words

/-!
Contract: the stages of tokenizing at a line end.

Owns:
- closed text, in which every quotation ends, and the spans, masks and tokens of a
  text that is cut behind closed text;
- scans that pass quoted stops, and the cutting of pieces that are joined by a break;
- the law of each stage at a line end outside quotes: it prepares what stands
  before the line end and what stands behind it without a look across;
- the mnemonics of a text whose end no mnemonic reaches into.

Does not own: the numbers of placeholders behind the line end, which depend on how
many quotations stand before it.
-/

namespace Asm8080

/-! ### Comments -/

namespace Comment

theorem strip_lineEnd (before behind : Text) :
    strip (before ++ '\n' :: behind) = strip before ++ strip behind := by
  unfold strip List.splitOn
  rw [List.splitOnP_append_cons _ _ (by decide), List.filter_append, List.flatMap_append]

/-- What is left of a source ends in a line end, unless nothing is left. -/
theorem strip_cases (source : Text) :
    strip source = [] ∨ ∃ code, strip source = code ++ ['\n'] := by
  unfold strip
  generalize (source.splitOn '\n').filter (fun line => !fillsLine line) = lines
  rcases List.eq_nil_or_concat lines with isEmpty | ⟨front, last, isConcat⟩
  · left
    rw [isEmpty]
    rfl
  · right
    refine ⟨front.flatMap (fun line => code line ++ ['\n']) ++ code last, ?_⟩
    rw [isConcat, List.concat_eq_append, List.flatMap_append]
    simp

theorem sublist_untilStop (isStop : Char → Bool) (quoted : Bool) (text : Text) :
    (Quoted.untilStop isStop quoted text).Sublist text := by
  induction text generalizing quoted with
  | nil => exact List.Sublist.slnil
  | cons head tail inductionHypothesis =>
      unfold Quoted.untilStop
      split
      · exact (inductionHypothesis _).cons_cons head
      · split
        · exact List.nil_sublist _
        · exact (inductionHypothesis _).cons_cons head

/-- Taking comments away only drops characters, up to a last line end. -/
theorem sublist_strip (source : Text) : (strip source).Sublist (source ++ ['\n']) := by
  rw [← flatMap_splitOn source]
  unfold strip
  generalize source.splitOn '\n' = lines
  induction lines with
  | nil => exact List.Sublist.slnil
  | cons head tail inductionHypothesis =>
      have own : (code head ++ ['\n']).Sublist (head ++ ['\n']) :=
        (sublist_untilStop isMark false head).append_right _
      rw [List.filter_cons, List.flatMap_cons]
      split
      · rw [List.flatMap_cons]
        exact own.append inductionHypothesis
      · exact inductionHypothesis.trans (List.sublist_append_right _ _)

end Comment

/-! ### Quotations -/

namespace Quoted

/-- Every quotation of the text is closed: its quotes come in pairs. -/
def IsClosed (text : Text) : Prop :=
  text.count quoteMark % 2 = 0

instance (text : Text) : Decidable (IsClosed text) := by
  unfold IsClosed
  infer_instance

theorem isClosed_append {left right : Text} (closed : IsClosed left) :
    IsClosed (left ++ right) ↔ IsClosed right := by
  unfold IsClosed at closed ⊢
  rw [List.count_append]
  omega

theorem isClosed_of_append {left right : Text} (unquoted : quoteMark ∉ right)
    (closed : IsClosed (left ++ right)) : IsClosed left := by
  unfold IsClosed at closed ⊢
  rwa [List.count_append, List.count_eq_zero_of_not_mem unquoted] at closed

theorem isClosed_of_unquoted {text : Text} (unquoted : quoteMark ∉ text) : IsClosed text := by
  unfold IsClosed
  rw [List.count_eq_zero_of_not_mem unquoted]

private theorem spansFrom_append (text rest : Text) :
    (text.count quoteMark % 2 = 0 →
        spansFrom none (text ++ rest) = spansFrom none text ++ spansFrom none rest) ∧
      ∀ body, text.count quoteMark % 2 = 1 →
        spansFrom (some body) (text ++ rest) =
          spansFrom (some body) text ++ spansFrom none rest := by
  induction text with
  | nil => simp [spansFrom]
  | cons head tail inductionHypothesis =>
      obtain ⟨outside, inside⟩ := inductionHypothesis
      by_cases atQuote : head = quoteMark
      · have counted : (head :: tail).count quoteMark = tail.count quoteMark + 1 := by
          rw [atQuote, List.count_cons_self]
        constructor
        · intro even
          simp only [List.cons_append, spansFrom, atQuote, ↓reduceIte]
          exact inside [] (by omega)
        · intro body odd
          simp only [List.cons_append, spansFrom, atQuote, ↓reduceIte, List.cons.injEq, true_and]
          exact outside (by omega)
      · have counted : (head :: tail).count quoteMark = tail.count quoteMark :=
          List.count_cons_of_ne atQuote
        constructor
        · intro even
          simp only [List.cons_append, spansFrom, atQuote, ↓reduceIte, List.cons.injEq, true_and]
          exact outside (by omega)
        · intro body odd
          simp only [List.cons_append, spansFrom, atQuote, ↓reduceIte]
          exact inside _ (by omega)

/-- Behind closed text the quotes are paired anew. -/
theorem spans_append {text : Text} (closed : IsClosed text) (rest : Text) :
    spans (text ++ rest) = spans text ++ spans rest :=
  (spansFrom_append text rest).1 closed

theorem quotations_append {text : Text} (closed : IsClosed text) (rest : Text) :
    quotations (text ++ rest) = quotations text ++ quotations rest := by
  unfold quotations
  rw [spans_append closed, List.filterMap_append]

/-- A span of closed text: a character that is no quote, or a quotation without a quote
inside. -/
def Span.IsClosed : Span → Prop
  | .plain character => character ≠ quoteMark
  | .closed body => quoteMark ∉ body
  | .unclosed _ => False

private theorem isClosed_spansFrom (text : Text) :
    (text.count quoteMark % 2 = 0 → ∀ span ∈ spansFrom none text, span.IsClosed) ∧
      ∀ body, quoteMark ∉ body → text.count quoteMark % 2 = 1 →
        ∀ span ∈ spansFrom (some body) text, span.IsClosed := by
  induction text with
  | nil => simp [spansFrom]
  | cons head tail inductionHypothesis =>
      obtain ⟨outside, inside⟩ := inductionHypothesis
      by_cases atQuote : head = quoteMark
      · have counted : (head :: tail).count quoteMark = tail.count quoteMark + 1 := by
          rw [atQuote, List.count_cons_self]
        simp only [spansFrom, atQuote, ↓reduceIte, List.mem_cons, forall_eq_or_imp]
        refine ⟨fun even => inside [] (by simp) (by rw [atQuote] at counted; omega), ?_⟩
        intro body unquoted odd
        refine ⟨by simpa [Span.IsClosed] using unquoted, ?_⟩
        exact outside (by rw [atQuote] at counted; omega)
      · have counted : (head :: tail).count quoteMark = tail.count quoteMark :=
          List.count_cons_of_ne atQuote
        simp only [spansFrom, atQuote, ↓reduceIte, List.mem_cons, forall_eq_or_imp]
        refine ⟨fun even => ⟨atQuote, outside (by omega)⟩, ?_⟩
        intro body unquoted odd
        have different : quoteMark ≠ head := fun same => atQuote same.symm
        exact inside (head :: body) (by simp [different, unquoted]) (by omega)

theorem isClosed_of_mem_spans {text : Text} (closed : IsClosed text) :
    ∀ span ∈ spans text, span.IsClosed :=
  (isClosed_spansFrom text).1 closed

private theorem splitFrom_lineEnd {isBreak : Char → Bool} {break_ : Char}
    (breaks : isBreak break_ = true) (unquoted : break_ ≠ quoteMark) (text rest : Text) :
    ∀ piece,
      (text.count quoteMark % 2 = 0 →
        splitFrom isBreak false piece (text ++ break_ :: rest) =
          splitFrom isBreak false piece text ++ splitFrom isBreak false [] rest) ∧
      (text.count quoteMark % 2 = 1 →
        splitFrom isBreak true piece (text ++ break_ :: rest) =
          splitFrom isBreak true piece text ++ splitFrom isBreak false [] rest) := by
  induction text with
  | nil => simp [splitFrom, unquoted, breaks]
  | cons head tail inductionHypothesis =>
      intro piece
      by_cases atQuote : head = quoteMark
      · obtain ⟨outside, inside⟩ := inductionHypothesis (quoteMark :: piece)
        simp only [atQuote, List.count_cons_self, List.cons_append, splitFrom, ↓reduceIte,
          Bool.not_false, Bool.not_true]
        exact ⟨fun even => inside (by omega), fun odd => outside (by omega)⟩
      · obtain ⟨outside, inside⟩ := inductionHypothesis (head :: piece)
        rw [List.count_cons_of_ne atQuote]
        simp only [List.cons_append, splitFrom, atQuote, ↓reduceIte, Bool.not_false, Bool.true_and,
          Bool.not_true, Bool.false_and, Bool.false_eq_true]
        refine ⟨fun even => ?_, inside⟩
        split
        · rw [(inductionHypothesis []).1 even]
          rfl
        · exact outside even

/-- Text is cut at every break outside quotes. -/
theorem split_append_break {isBreak : Char → Bool} {text : Text} (closed : IsClosed text)
    {break_ : Char} (breaks : isBreak break_ = true) (unquoted : break_ ≠ quoteMark)
    (rest : Text) :
    split isBreak (text ++ break_ :: rest) = split isBreak text ++ split isBreak rest :=
  (splitFrom_lineEnd breaks unquoted text rest []).1 closed

/-- A text in which the scan does not stop is one piece. -/
theorem splitFrom_of_unstopped {isBreak : Char → Bool} {quoted : Bool} {text : Text}
    (unstopped : untilStop isBreak quoted text = text) (piece : Text) :
    splitFrom isBreak quoted piece text = [piece.reverse ++ text] := by
  induction text generalizing quoted piece with
  | nil => simp [splitFrom]
  | cons head tail inductionHypothesis =>
      unfold untilStop at unstopped
      unfold splitFrom
      split at unstopped
      · rename_i atQuote
        rw [if_pos atQuote, inductionHypothesis (List.cons.inj unstopped).2]
        simp
      · rename_i notQuote
        split at unstopped
        · cases unstopped
        · rename_i goesOn
          rw [if_neg notQuote, if_neg goesOn, inductionHypothesis (List.cons.inj unstopped).2]
          simp

/-- Cutting at a break inverts joining with it, if every piece has its quotes in pairs and no break
outside of them. -/
theorem split_intercalate {isBreak : Char → Bool} {break_ : Char} (breaks : isBreak break_ = true)
    (unquoted : break_ ≠ quoteMark) {pieces : List Text} (nonempty : pieces ≠ [])
    (closed : ∀ piece ∈ pieces, IsClosed piece)
    (unstopped : ∀ piece ∈ pieces, untilStop isBreak false piece = piece) :
    split isBreak ([break_].intercalate pieces) = pieces := by
  induction pieces with
  | nil => exact absurd rfl nonempty
  | cons piece others inductionHypothesis =>
      have own : split isBreak piece = [piece] :=
        splitFrom_of_unstopped (unstopped piece (by simp)) []
      cases others with
      | nil => rw [List.intercalate_singleton, own]
      | cons next later =>
          have rest := inductionHypothesis (by simp)
            (fun piece member => closed piece (List.mem_cons_of_mem _ member))
            (fun piece member => unstopped piece (List.mem_cons_of_mem _ member))
          rw [List.intercalate_cons_cons, List.append_assoc, List.singleton_append,
            split_append_break (closed piece (by simp)) breaks unquoted, own, rest,
            List.singleton_append]

/-- A scan passes a text whose stops all stand inside quotes, and each quote on the way turns it
inside or out. -/
theorem untilStop_append_of_inside {isStop : Char → Bool} {quoted : Bool} {text : Text}
    (inside : ∀ index c, text[index]? = some c → isStop c = true →
      (quoted.toNat + (text.take index).count quoteMark) % 2 = 1) (rest : Text) :
    untilStop isStop quoted (text ++ rest) =
      text ++ untilStop isStop (quoted ^^ decide (text.count quoteMark % 2 = 1)) rest := by
  induction text generalizing quoted with
  | nil => simp
  | cons head tail inductionHypothesis =>
      rw [List.cons_append, untilStop]
      by_cases atQuote : head = quoteMark
      · subst atQuote
        have turned : (!quoted ^^ decide (tail.count quoteMark % 2 = 1)) =
            (quoted ^^ decide ((quoteMark :: tail).count quoteMark % 2 = 1)) := by
          rw [List.count_cons_self]
          rcases Nat.mod_two_eq_zero_or_one (tail.count quoteMark) with even | odd
          · cases quoted <;> simp [Nat.add_mod, even]
          · cases quoted <;> simp [Nat.add_mod, odd]
        rw [if_pos rfl, inductionHypothesis, turned, List.cons_append]
        intro index c isC stops
        have later := inside (index + 1) c isC stops
        rw [List.take_succ_cons, List.count_cons_self] at later
        cases quoted <;> simp only [Bool.toNat_false, Bool.toNat_true, Bool.not_false,
          Bool.not_true] at later ⊢ <;> omega
      · have goesOn : ¬(!quoted && isStop head) = true := by
          intro stops
          rw [Bool.and_eq_true, Bool.not_eq_true'] at stops
          have odd := inside 0 head rfl stops.2
          rw [stops.1] at odd
          cases odd
        rw [if_neg atQuote, if_neg goesOn, inductionHypothesis, List.count_cons_of_ne atQuote,
          List.cons_append]
        intro index c isC stops
        have later := inside (index + 1) c isC stops
        rwa [List.take_succ_cons, List.count_cons_of_ne atQuote] at later

end Quoted

namespace Quotation

theorem maskFrom_append (index : Nat) (left right : List Quoted.Span) :
    maskFrom index (left ++ right) =
      maskFrom index left ++
        maskFrom (index + (left.filterMap Quoted.Span.quotation?).length) right := by
  induction left generalizing index with
  | nil => rfl
  | cons head tail inductionHypothesis =>
      cases head with
      | plain character =>
          rw [List.filterMap_cons_none rfl]
          simp [maskFrom, inductionHypothesis]
      | closed body =>
          have shifted : index + 1 + (tail.filterMap Quoted.Span.quotation?).length =
              index + ((tail.filterMap Quoted.Span.quotation?).length + 1) := by omega
          simp [maskFrom, inductionHypothesis, Quoted.Span.quotation?, shifted]
      | unclosed body =>
          rw [List.filterMap_cons_none rfl]
          simp [maskFrom, inductionHypothesis]

theorem isDigit_of_mem_decimal {value : Nat} {c : Char} (member : c ∈ Numeral.decimal value) :
    c.isDigit = true :=
  Nat.isDigit_of_mem_toDigits (by decide) (by decide) member

/-- The mask of closed text has no quotes. -/
theorem unquoted_maskFrom (index : Nat) {spans : List Quoted.Span}
    (closed : ∀ span ∈ spans, span.IsClosed) : quoteMark ∉ maskFrom index spans := by
  induction spans generalizing index with
  | nil => simp [maskFrom]
  | cons head tail inductionHypothesis =>
      have own := closed head (by simp)
      have later (index : Nat) : quoteMark ∉ maskFrom index tail :=
        inductionHypothesis index fun span member => closed span (by simp [member])
      cases head with
      | plain character =>
          have different : quoteMark ≠ character := fun same => own same.symm
          simp [maskFrom, different, later]
      | closed body =>
          have undigit : quoteMark ∉ Numeral.decimal index := fun member =>
            absurd (isDigit_of_mem_decimal member) (by decide)
          simp only [maskFrom, placeholder, List.mem_append, List.mem_cons, List.not_mem_nil,
            or_false, not_or]
          exact ⟨⟨⟨by decide, undigit⟩, by decide⟩, later _⟩
      | unclosed body => exact own.elim

end Quotation

/-! ### Layout -/

namespace Layout

/-- A character that folding passes on as it is, together with the pending space. -/
structure IsSolid (character : Char) : Prop where
  unquoted : character ≠ quoteMark
  unblank : isBlank character = false
  upper : upperCase character = [character]

theorem isSolid_lineEnd : IsSolid '\n' :=
  ⟨by decide, by decide, by decide⟩

theorem isSolid_comma : IsSolid ',' :=
  ⟨by decide, by decide, by decide⟩

theorem foldFrom_solid {solid : Char} (isSolid : IsSolid solid) (pending : Bool) {text : Text}
    (unquoted : quoteMark ∉ text) (rest : Text) :
    foldFrom false pending (text ++ solid :: rest) =
      foldFrom false pending text ++ solid :: fold rest := by
  induction text generalizing pending with
  | nil =>
      simp [foldFrom, isSolid.unquoted, isSolid.unblank, isSolid.upper, fold]
  | cons head tail inductionHypothesis =>
      have headPlain : head ≠ quoteMark := fun same => unquoted (by simp [same])
      have later (pending : Bool) := inductionHypothesis pending fun member =>
        unquoted (by simp [member])
      by_cases blank : isBlank head
      · simp [foldFrom, headPlain, blank, later]
      · simp [foldFrom, headPlain, blank, later]

theorem foldFrom_of_solid (quoted pending : Bool) {word : Text} (nonempty : word ≠ [])
    (solid : ∀ c ∈ word, IsSolid c) (rest : Text) :
    foldFrom quoted pending (word ++ rest) =
      space pending ++ (word ++ foldFrom quoted false rest) := by
  have behind (word : Text) (solid : ∀ c ∈ word, IsSolid c) :
      foldFrom quoted false (word ++ rest) = word ++ foldFrom quoted false rest := by
    induction word with
    | nil => rfl
    | cons head tail inductionHypothesis =>
        have own := solid head (by simp)
        have later := inductionHypothesis fun c member => solid c (by simp [member])
        simp [foldFrom, own.unquoted, own.unblank, own.upper, space, later]
  cases word with
  | nil => exact absurd rfl nonempty
  | cons head tail =>
      have own := solid head (by simp)
      have later := behind tail fun c member => solid c (by simp [member])
      simp [foldFrom, own.unquoted, own.unblank, own.upper, later]

theorem tightenCommas_of_noComma {word : Text} (noComma : ',' ∉ word) (rest : Text) :
    tightenCommas (word ++ rest) = word ++ tightenCommas rest := by
  induction word with
  | nil => rfl
  | cons head tail inductionHypothesis =>
      have different : head ≠ ',' := fun same => noComma (by simp [same])
      have later := inductionHypothesis fun member => noComma (by simp [member])
      rw [List.cons_append, tightenCommas, later, List.cons_append]
      exact fun _ same => absurd same different

/-- A space is dropped only if a comma stands before it. -/
theorem tightenCommas_append (text : Text) {next : Char} (visible : next ≠ ' ') (rest : Text) :
    tightenCommas (text ++ next :: rest) = tightenCommas text ++ tightenCommas (next :: rest) := by
  fun_induction tightenCommas text with
  | case1 tail inductionHypothesis => simp [tightenCommas, inductionHypothesis]
  | case2 head tail notComma inductionHypothesis =>
      rw [List.cons_append, tightenCommas]
      · rw [inductionHypothesis]
        rfl
      · intro behind isComma isSpace
        cases tail with
        | nil => exact visible (by simpa using (List.cons.inj isSpace).1)
        | cons second others =>
            obtain ⟨secondSpace, _⟩ := List.cons.inj isSpace
            exact notComma others isComma (by rw [secondSpace])
  | case3 => rfl

/-- The text less a space at its start. -/
def withoutSpace : Text → Text
  | ' ' :: tail => tail
  | text => text

theorem withoutSpace_of_head? {text : Text} (visible : text.head? ≠ some ' ') :
    withoutSpace text = text := by
  unfold withoutSpace
  split
  · exact absurd rfl visible
  · rfl

theorem tightenCommas_comma (text : Text) :
    tightenCommas (',' :: text) = ',' :: tightenCommas (withoutSpace text) := by
  unfold withoutSpace
  split
  · rfl
  · rename_i notSpace
    rw [tightenCommas]
    exact fun tail _ isSpace => notSpace tail isSpace

theorem tightenCommas_lineEnd (text rest : Text) :
    tightenCommas (text ++ '\n' :: rest) = tightenCommas text ++ '\n' :: tightenCommas rest := by
  rw [tightenCommas_append text (by decide), tightenCommas]
  rintro tail isComma
  exact absurd isComma (by decide)

end Layout

/-! ### Mnemonics -/

namespace Mnemonic

/-- Matching depends only on which mnemonics stand at the start of a text. -/
theorem match?_congr {left right : Text}
    (same : ∀ mnemonic ∈ all, standsAt mnemonic left = standsAt mnemonic right) :
    match? left = match? right :=
  List.find?_congr fun _ member =>
    same _ (mem_all_of_mem_defined (mem_candidates_iff.mp member))

theorem isUpper_of_isWhiteSpace {character : Char} (blank : isWhiteSpace character = true) :
    character.isUpper = false := by
  apply Bool.eq_false_iff.mpr
  intro upper
  have word : isWordCharacter character = true := by
    have alphanumeric := (isAlphanum_iff character).mpr (Or.inl (Or.inl upper))
    simp [isWordCharacter, alphanumeric]
  have unblank := (unremarkable_of_isWordCharacter word).unblank
  rw [blank] at unblank
  cases unblank

/-- A text that parts what stands before it from itself: it starts with white space, and
no mnemonic ends inside. -/
structure Parts (text : Text) : Prop where
  blank : text.head?.any isWhiteSpace = true
  unreached : ∀ mnemonic ∈ all, ∀ front behind, text = front ++ behind → front ≠ [] →
    ¬front <:+ mnemonic

theorem parts_lineEnd (rest : Text) : Parts ('\n' :: rest) where
  blank := by
    have blank : isWhiteSpace '\n' = true := by decide
    simpa using blank
  unreached := by
    intro mnemonic member front behind isText nonempty isSuffix
    cases front with
    | nil => exact nonempty rfl
    | cons head tail =>
        have isEnd : '\n' = head := (List.cons.inj isText).1
        have spelled := (wellSpelled_of_mem member).spelling head
          (isSuffix.subset (List.mem_cons_self))
        rw [← isEnd] at spelled
        exact absurd spelled (by decide)

theorem parts_space : Parts [' '] where
  blank := by decide
  unreached := by
    intro mnemonic member front behind isText nonempty isSuffix
    cases front with
    | nil => exact nonempty rfl
    | cons head tail =>
        obtain ⟨isSpace, isRest⟩ := List.cons.inj isText
        have noTail : tail = [] := (List.append_eq_nil_iff.mp isRest.symm).1
        obtain ⟨start, isMnemonic⟩ := isSuffix
        apply (wellSpelled_of_mem member).ends
        rw [← isMnemonic, ← isSpace, noTail, List.getLast?_concat]

theorem standsAt_append {mnemonic : Text} (member : mnemonic ∈ all) (text : Text) {tail : Text}
    (parts : Parts tail) : standsAt mnemonic (text ++ tail) = standsAt mnemonic text := by
  obtain ⟨first, blank, isFirst⟩ :
      ∃ first, isWhiteSpace first = true ∧ tail.head? = some first := by
    have blank := parts.blank
    cases isHead : tail.head? with
    | none =>
        rw [isHead] at blank
        cases blank
    | some first =>
        rw [isHead] at blank
        exact ⟨first, blank, rfl⟩
  have sameEnd (gap : Text) : endsBefore mnemonic (gap ++ tail) = endsBefore mnemonic gap := by
    unfold endsBefore
    cases gap with
    | nil => simp [isFirst, blank]
    | cons head others => rfl
  apply Bool.eq_iff_iff.mpr
  rw [standsAt_iff, standsAt_iff]
  constructor
  · rintro ⟨behind, isText, ends⟩
    rcases List.append_eq_append_iff.mp isText with
      ⟨gap, isMnemonic, isTail⟩ | ⟨gap, isOwn, isBehind⟩
    · cases gap with
      | nil =>
          refine ⟨[], by simpa using isMnemonic.symm, ?_⟩
          simp [endsBefore]
      | cons head others =>
          exact absurd ⟨text, isMnemonic.symm⟩
            (parts.unreached mnemonic member _ _ isTail (by simp))
    · rw [isBehind, sameEnd] at ends
      exact ⟨gap, isOwn, ends⟩
  · rintro ⟨gap, isText, ends⟩
    exact ⟨gap ++ tail, by rw [isText, List.append_assoc], by rw [sameEnd, ends]⟩

theorem match?_append (text : Text) {tail : Text} (parts : Parts tail) :
    match? (text ++ tail) = match? text :=
  match?_congr fun _ member => standsAt_append member text parts

theorem mem_all_of_match? {text : Text} {entry : UInt8 × Opcode}
    (found : match? text = some entry) :
    entry.2.mnemonic ∈ all ∧ ∃ rest, text = entry.2.mnemonic ++ rest := by
  have stands : standsAt entry.2.mnemonic text = true := by
    have holds := List.find?_some found
    exact holds
  obtain ⟨rest, isText, _⟩ := standsAt_iff.mp stands
  exact ⟨mem_all_of_mem_defined (mem_candidates_iff.mp (List.mem_of_find?_eq_some found)),
    rest, isText⟩

/-- What substitution finds at a boundary is the longest mnemonic. -/
theorem match?_of_found {atBoundary : Bool} {text : Text} {entry : UInt8 × Opcode}
    (found : (if atBoundary then matchIn? candidates text else none) = some entry) :
    match? text = some entry := by
  split at found
  · exact found
  · cases found

/-- Substitution passes over characters of the mnemonic only. -/
theorem isSpelling_of_mem_take {head : Char} {tail : Text} {entry : UInt8 × Opcode}
    (found : match? (head :: tail) = some entry) :
    ∀ c ∈ tail.take (entry.2.mnemonic.length - 1), isSpelling c = true := by
  obtain ⟨member, rest, isText⟩ := mem_all_of_match? found
  have rules := wellSpelled_of_mem member
  obtain ⟨first, others, isMnemonic⟩ := List.exists_cons_of_ne_nil rules.ne_nil
  rw [isMnemonic, List.cons_append] at isText
  intro c inside
  rw [(List.cons.inj isText).2, isMnemonic, List.length_cons, Nat.add_sub_cancel,
    List.take_left] at inside
  exact rules.spelling c (isMnemonic ▸ List.mem_cons_of_mem first inside)

/-- Substitution does not look across a text that parts. -/
theorem substituteFrom_append (atBoundary : Bool) (text : Text) {tail : Text}
    (parts : Parts tail) :
    substituteFrom candidates atBoundary 0 (text ++ tail) =
      substituteFrom candidates atBoundary 0 text ++ substitute tail := by
  -- A mnemonic takes several characters at once, so the induction is on the length.
  induction isSize : text.length using Nat.strong_induction_on generalizing text atBoundary with
  | _ size inductionHypothesis =>
    cases text with
    | nil =>
        obtain ⟨first, rest, isTail⟩ : ∃ first rest, tail = first :: rest := by
          cases tail with
          | nil => exact absurd parts.blank (by simp)
          | cons first rest => exact ⟨first, rest, rfl⟩
        have blank : isWhiteSpace first = true := by simpa [isTail] using parts.blank
        have bounds : isBoundary first = true := by simp [isBoundary, blank]
        rw [isTail, substitute, List.nil_append,
          substituteFrom_boundary atBoundary rest bounds (isUpper_of_isWhiteSpace blank),
          substituteFrom_boundary true rest bounds (isUpper_of_isWhiteSpace blank)]
        rfl
    | cons head others =>
        have sameMatch : matchIn? candidates (head :: (others ++ tail)) =
            matchIn? candidates (head :: others) := match?_append (head :: others) parts
        rw [List.cons_append, substituteFrom, substituteFrom, sameMatch]
        split
        · rename_i byte opcode found
          obtain ⟨_, rest, isText⟩ := mem_all_of_match? (match?_of_found found)
          have inside : opcode.mnemonic.length - 1 ≤ others.length := by
            have lengths := congrArg List.length isText
            simp only [List.length_cons, List.length_append] at lengths
            omega
          have shorter : (others.drop (opcode.mnemonic.length - 1)).length < size := by
            rw [← isSize, List.length_drop, List.length_cons]
            omega
          have later := inductionHypothesis _ shorter atBoundary _ rfl
          rw [← List.drop_append_of_le_length inside, ← substituteFrom_skip,
            ← substituteFrom_skip] at later
          rw [later]
          simp
        · rw [inductionHypothesis others.length (by simp [← isSize]) _ _ rfl]
          rfl

theorem substitute_lineEnd (text rest : Text) :
    substitute (text ++ '\n' :: rest) = substitute text ++ '\n' :: substitute rest := by
  unfold substitute
  rw [substituteFrom_append true text (parts_lineEnd rest), substitute,
    substituteFrom_lineEnd true rest]
  rfl

end Mnemonic

/-! ### All stages together -/

theorem prepare_lineEnd {text : Text} (unquoted : quoteMark ∉ text) (rest : Text) :
    prepare (text ++ '\n' :: rest) = prepare text ++ '\n' :: prepare rest := by
  unfold prepare Layout.fold
  rw [Layout.foldFrom_solid Layout.isSolid_lineEnd false unquoted, Layout.tightenCommas_lineEnd,
    Mnemonic.substitute_lineEnd, Token.markLabels_append, Token.markLabels_blank (Or.inr rfl)]
  rfl

theorem Token.split_append_break {text : Text} (closed : Quoted.IsClosed text) {break_ : Char}
    (breaks : isBreak break_ = true) (rest : Text) :
    split (text ++ break_ :: rest) = split text ++ split rest := by
  have unquoted : break_ ≠ quoteMark := by
    intro isQuote
    rw [isQuote] at breaks
    exact absurd breaks (by decide)
  unfold split
  rw [Quoted.split_append_break closed breaks unquoted, List.filter_append]

end Asm8080
