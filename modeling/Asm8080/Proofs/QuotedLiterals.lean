import Asm8080.Proofs.LineLocality

/-!
Contract: quotations reach the tokens as they were written.

Owns:
- `Carries`, which lists the quotations that a masked text brings along, and the law of
  each stage: what a text carries before the stage it carries behind it;
- the quotations of restored text;
- cutting outside quotes, which leaves every quotation in one piece;
- `quotations_tokenize`: the quotations of the tokens are those of the source less its
  comments.

Does not own: the text around the quotations.
-/

namespace Asm8080

/-! ### One quotation -/

namespace Quoted

theorem spansFrom_body (done : Text) {body : Text} (unquoted : quoteMark ∉ body) (rest : Text) :
    spansFrom (some done) (body ++ rest) = spansFrom (some (body.reverse ++ done)) rest := by
  induction body generalizing done with
  | nil => rfl
  | cons head tail inductionHypothesis =>
      have headPlain : head ≠ quoteMark := fun same => unquoted (by simp [same])
      have later := inductionHypothesis (head :: done) fun member => unquoted (by simp [member])
      simp [spansFrom, headPlain, later]

theorem spans_closed {body : Text} (unquoted : quoteMark ∉ body) :
    spans (Span.closed body).text = [.closed body] := by
  have inside := spansFrom_body [] unquoted [quoteMark]
  simpa [spans, spansFrom, Span.text] using inside

theorem quotations_closed {body : Text} (unquoted : quoteMark ∉ body) :
    quotations (Span.closed body).text = [(Span.closed body).text] := by
  rw [quotations, spans_closed unquoted]
  rfl

theorem spans_unclosed {body : Text} (unquoted : quoteMark ∉ body) :
    spans (quoteMark :: body) = [.unclosed body] := by
  have inside := spansFrom_body [] unquoted []
  simpa [spans, spansFrom] using inside

theorem isClosed_closed {body : Text} (unquoted : quoteMark ∉ body) :
    IsClosed (Span.closed body).text := by
  simp [IsClosed, Span.text, List.count_eq_zero_of_not_mem unquoted]

end Quoted

/-! ### Text without marks -/

namespace Quotation

/-- The characters at which a masked text does not speak for itself: a placeholder starts, or
a quotation that is not closed. -/
def marks : List Char :=
  [openMark, quoteMark]

def Unmarked (text : Text) : Prop :=
  ∀ mark ∈ marks, mark ∉ text

instance (text : Text) : Decidable (Unmarked text) :=
  List.decidableBAll (fun mark => mark ∉ text) marks

/-- No stage makes a mark out of other characters, and no mnemonic holds one. -/
theorem foreign_of_mem_marks {mark : Char} (isMark : mark ∈ marks) :
    isUncapital mark = true ∧ isWordCharacter mark = false ∧ mark ≠ ' ' ∧
      mark ≠ Token.labelMark ∧ Mnemonic.isSpelling mark = false := by
  rcases List.mem_pair.mp isMark with isOpen | isQuote
  · rw [isOpen]
    decide +kernel
  · rw [isQuote]
    decide +kernel

namespace Unmarked

variable {text : Text}

theorem foldFrom (unmarked : Unmarked text) (quoted pending : Bool) :
    Unmarked (Layout.foldFrom quoted pending text) := by
  intro mark isMark member
  obtain ⟨uncapital, _, visible, _⟩ := foreign_of_mem_marks isMark
  exact unmarked mark isMark (Layout.mem_of_mem_foldFrom uncapital visible member)

theorem tightenCommas (unmarked : Unmarked text) : Unmarked (Layout.tightenCommas text) :=
  fun mark isMark member =>
    unmarked mark isMark ((Layout.sublist_tightenCommas text).subset member)

theorem substituteFrom (unmarked : Unmarked text) (atBoundary : Bool) :
    Unmarked (Mnemonic.substituteFrom Mnemonic.candidates atBoundary 0 text) := by
  intro mark isMark member
  obtain ⟨_, notWord, visible, _⟩ := foreign_of_mem_marks isMark
  exact unmarked mark isMark (Mnemonic.mem_of_mem_substituteFrom notWord visible member)

theorem markLabels (unmarked : Unmarked text) : Unmarked (Token.markLabels text) := by
  intro mark isMark member
  obtain ⟨_, _, _, notLabel, _⟩ := foreign_of_mem_marks isMark
  exact unmarked mark isMark (Token.mem_of_mem_markLabels notLabel member)

end Unmarked

theorem unmarked_space (pending : Bool) : Unmarked (Layout.space pending) := by
  cases pending <;> decide

theorem unmarked_byteText (byte : UInt8) : Unmarked (Mnemonic.byteText byte) := by
  intro mark isMark member
  obtain ⟨_, notWord, _⟩ := foreign_of_mem_marks isMark
  have isWord := (Mnemonic.isWord_byteText byte).2 mark member
  rw [notWord] at isWord
  cases isWord

theorem unmarked_upperCase {character : Char} (unmarked : Unmarked [character]) :
    Unmarked (upperCase character) := by
  intro mark isMark member
  obtain ⟨uncapital, _⟩ := foreign_of_mem_marks isMark
  have same := eq_of_mem_upperCase uncapital member
  exact unmarked mark isMark (by simp [same])

/-! ### Carried quotations -/

/-- A masked text, with the quotations that its placeholders stand for, in order. At its end
the text may have a quotation without the closing quote. -/
inductive Carries (table : List Text) : List Text → Text → Prop
  | nil : Carries table [] []
  | plain {c : Char} {carried : List Text} {rest : Text} (unmarked : Unmarked [c])
      (later : Carries table carried rest) : Carries table carried (c :: rest)
  | placeholder {index : Nat} {body : Text} {carried : List Text} {rest : Text}
      (resolved : resolve table (Numeral.decimal index) = (Quoted.Span.closed body).text)
      (unquoted : quoteMark ∉ body) (later : Carries table carried rest) :
      Carries table ((Quoted.Span.closed body).text :: carried)
        (placeholder (Numeral.decimal index) ++ rest)
  | unclosed {rest : Text} (unmarked : Unmarked rest) : Carries table [] (quoteMark :: rest)

namespace Carries

variable {table carried : List Text} {text : Text}

theorem append_plain {front : Text} (unmarked : Unmarked front)
    (carries : Carries table carried text) : Carries table carried (front ++ text) := by
  induction front with
  | nil => exact carries
  | cons head tail inductionHypothesis =>
      have headUnmarked : Unmarked [head] := fun mark isMark member =>
        unmarked mark isMark (by simp_all)
      have tailUnmarked : Unmarked tail := fun mark isMark member =>
        unmarked mark isMark (by simp [member])
      exact .plain headUnmarked (inductionHypothesis tailUnmarked)

theorem foldFrom (carries : Carries table carried text) (pending : Bool) :
    Carries table carried (Layout.foldFrom false pending text) := by
  induction carries generalizing pending with
  | nil => simpa [Layout.foldFrom] using append_plain (unmarked_space pending) .nil
  | @plain c _ _ unmarked _ inductionHypothesis =>
      have unquoted : c ≠ quoteMark := fun same =>
        unmarked quoteMark (by decide) (by simp [same])
      rw [Layout.foldFrom, if_neg unquoted]
      split
      · exact inductionHypothesis true
      · rw [List.append_assoc]
        exact append_plain (unmarked_space pending)
          (append_plain (unmarked_upperCase unmarked) (inductionHypothesis false))
  | placeholder resolved unquoted _ inductionHypothesis =>
      rw [foldFrom_placeholder]
      exact append_plain (unmarked_space pending)
        (.placeholder resolved unquoted (inductionHypothesis false))
  | unclosed unmarked =>
      rw [Layout.foldFrom, if_pos rfl]
      exact append_plain (unmarked_space pending) (.unclosed (unmarked.foldFrom true false))

theorem tightenCommas (carries : Carries table carried text) :
    Carries table carried (Layout.tightenCommas text) := by
  -- Behind a comma the stage goes on with the text less its space, so both go into the induction.
  suffices both : Carries table carried (Layout.tightenCommas text) ∧
      Carries table carried (Layout.tightenCommas (Layout.withoutSpace text)) from both.1
  induction carries with
  | nil => exact ⟨.nil, .nil⟩
  | @plain c later rest unmarked _ inductionHypothesis =>
      obtain ⟨whole, unspaced⟩ := inductionHypothesis
      have here : Carries table later (Layout.tightenCommas (c :: rest)) := by
        by_cases isComma : c = ','
        · rw [isComma, Layout.tightenCommas_comma]
          exact .plain (by decide) unspaced
        · rw [← List.singleton_append, Layout.tightenCommas_of_noComma (by simp [Ne.symm isComma])]
          exact append_plain unmarked whole
      refine ⟨here, ?_⟩
      by_cases isSpace : c = ' '
      · rw [isSpace]
        exact whole
      · rwa [Layout.withoutSpace_of_head? (by simpa using isSpace)]
  | placeholder resolved unquoted _ inductionHypothesis =>
      have here := Carries.placeholder resolved unquoted inductionHypothesis.1
      rw [← tightenCommas_placeholder] at here
      exact ⟨here, here⟩
  | @unclosed rest unmarked =>
      have here : Carries table [] (Layout.tightenCommas (quoteMark :: rest)) := by
        rw [← List.singleton_append, Layout.tightenCommas_of_noComma (by decide)]
        exact .unclosed unmarked.tightenCommas
      exact ⟨here, here⟩

theorem substituteFrom (carries : Carries table carried text) (atBoundary : Bool) (skip : Nat)
    (passed : Unmarked (text.take skip)) :
    Carries table carried
      (Mnemonic.substituteFrom Mnemonic.candidates atBoundary skip text) := by
  induction carries generalizing atBoundary skip with
  | nil => cases skip <;> exact .nil
  | @plain c _ rest unmarked _ inductionHypothesis =>
      cases skip with
      | succ skip =>
          exact inductionHypothesis atBoundary skip fun mark isMark member =>
            passed mark isMark (by simp [member])
      | zero =>
          rw [Mnemonic.substituteFrom]
          split
          · rename_i byte opcode found
            have matched := Mnemonic.match?_of_found found
            have unpassed : Unmarked (rest.take (opcode.mnemonic.length - 1)) := by
              intro mark isMark member
              obtain ⟨_, _, _, _, foreign⟩ := foreign_of_mem_marks isMark
              have spelled := Mnemonic.isSpelling_of_mem_take matched mark member
              rw [foreign] at spelled
              cases spelled
            exact append_plain (unmarked_byteText byte)
              (.plain (by decide) (inductionHypothesis atBoundary _ unpassed))
          · exact .plain unmarked (inductionHypothesis _ 0 (by simp [Unmarked]))
  | placeholder resolved unquoted _ inductionHypothesis =>
      cases skip with
      | succ skip =>
          exact absurd (by simp [Quotation.placeholder]) (passed openMark (by decide))
      | zero =>
          rw [substituteFrom_placeholder]
          exact .placeholder resolved unquoted (inductionHypothesis false 0 (by simp [Unmarked]))
  | @unclosed rest unmarked =>
      cases skip with
      | succ skip => exact absurd (by simp) (passed quoteMark (by decide))
      | zero =>
          have unmatched : Mnemonic.matchIn? Mnemonic.candidates (quoteMark :: rest) = none :=
            Mnemonic.match?_of_not_isUpper (by decide) rest
          rw [Mnemonic.substituteFrom, unmatched, ite_self]
          exact .unclosed (unmarked.substituteFrom _)

theorem markLabels (carries : Carries table carried text) :
    Carries table carried (Token.markLabels text) := by
  induction carries with
  | nil => exact .nil
  | plain unmarked _ inductionHypothesis =>
      rw [← List.singleton_append, Token.markLabels_append]
      exact append_plain unmarked.markLabels inductionHypothesis
  | placeholder resolved unquoted _ inductionHypothesis =>
      rw [markLabels_placeholder]
      exact .placeholder resolved unquoted inductionHypothesis
  | unclosed unmarked =>
      rw [← List.singleton_append, Token.markLabels_append, Token.markLabels_of_free
        (List.forall_mem_singleton.mpr (by decide))]
      exact .unclosed unmarked.markLabels

/-- Preparing a text keeps what it carries. -/
theorem prepare (carries : Carries table carried text) :
    Carries table carried (Asm8080.prepare text) :=
  (((carries.foldFrom false).tightenCommas).substituteFrom true 0 (by simp [Unmarked])).markLabels

/-- What a text carries is what it quotes when it is restored. -/
theorem quotations_restore (carries : Carries table carried text) :
    Quoted.quotations (restore table text) = carried := by
  induction carries with
  | nil => rfl
  | @plain c _ rest unmarked _ inductionHypothesis =>
      have unquoted : quoteMark ∉ [c] := unmarked quoteMark (by decide)
      have plain : c ≠ openMark := fun same => unmarked openMark (by decide) (by simp [same])
      rw [restore_cons _ plain, ← List.singleton_append,
        Quoted.quotations_append (Quoted.isClosed_of_unquoted unquoted),
        quotations_of_unquoted unquoted, inductionHypothesis, List.nil_append]
  | @placeholder index body _ rest resolved unquoted _ inductionHypothesis =>
      rw [restore_placeholder, resolved, Quoted.quotations_append (Quoted.isClosed_closed unquoted),
        Quoted.quotations_closed unquoted, inductionHypothesis, List.singleton_append]
  | @unclosed rest unmarked =>
      have plain : openMark ∉ quoteMark :: rest := by
        have inRest := unmarked openMark (by decide)
        simpa [inRest] using (by decide : openMark ≠ quoteMark)
      rw [restore_of_unmarked _ plain, Quoted.quotations,
        Quoted.spans_unclosed (unmarked quoteMark (by decide))]
      rfl

end Carries

/-! ### The quotations of a masked text -/

theorem resolve_of_drop {table later : List Text} {index : Nat} {quotation : Text}
    (fits : table.length ≤ Numeral.wordCeiling) (isDrop : table.drop index = quotation :: later) :
    resolve table (Numeral.decimal index) = quotation ∧ table.drop (index + 1) = later := by
  have found : table[index]? = some quotation := by
    rw [← List.head?_drop, isDrop]
    rfl
  have inside : index < table.length := (List.getElem?_eq_some_iff.mp found).1
  refine ⟨?_, ?_⟩
  · rw [resolve_decimal, if_pos (by omega), found]
    rfl
  · rw [← List.tail_drop, isDrop]
    rfl

/-- Masked with numbers from `index` on, a text carries its quotations, if the table has them
from there on. -/
private theorem carries_maskFrom {table : List Text} (fits : table.length ≤ Numeral.wordCeiling)
    {text : Text} (unmarked : openMark ∉ text) :
    (∀ index, table.drop index = (Quoted.spansFrom none text).filterMap Quoted.Span.quotation? →
      Carries table (table.drop index) (maskFrom index (Quoted.spansFrom none text))) ∧
    ∀ index body, Unmarked body →
      table.drop index =
        (Quoted.spansFrom (some body) text).filterMap Quoted.Span.quotation? →
      Carries table (table.drop index) (maskFrom index (Quoted.spansFrom (some body) text)) := by
  -- The scan is outside quotes or inside a quotation, and each state leads to the other.
  induction text with
  | nil =>
      refine ⟨fun index isDrop => ?_, fun index body bodyUnmarked isDrop => ?_⟩
      · rw [isDrop]
        exact .nil
      · have unmarkedReverse : Unmarked body.reverse := by simpa [Unmarked] using bodyUnmarked
        rw [isDrop]
        show Carries table [] (quoteMark :: body.reverse ++ [])
        rw [List.append_nil]
        exact .unclosed unmarkedReverse
  | cons head tail inductionHypothesis =>
      have headUnmarked : head ≠ openMark := fun same => unmarked (by simp [same])
      obtain ⟨outside, inside⟩ := inductionHypothesis fun member => unmarked (by simp [member])
      by_cases atQuote : head = quoteMark
      · refine ⟨fun index isDrop => ?_, fun index body bodyUnmarked isDrop => ?_⟩
        · rw [Quoted.spansFrom, if_pos atQuote] at isDrop ⊢
          exact inside index [] (by decide) isDrop
        · rw [Quoted.spansFrom, if_pos atQuote] at isDrop ⊢
          have isQuotation : (Quoted.Span.closed body.reverse).quotation? =
              some (Quoted.Span.closed body.reverse).text := rfl
          rw [List.filterMap_cons_some isQuotation] at isDrop
          obtain ⟨resolved, later⟩ := resolve_of_drop fits isDrop
          have unquoted : quoteMark ∉ body.reverse := by
            simpa using bodyUnmarked quoteMark (by decide)
          rw [isDrop, ← later]
          exact .placeholder resolved unquoted (outside (index + 1) later)
      · have own : Unmarked [head] := by
          simp [Unmarked, marks, Ne.symm headUnmarked, Ne.symm atQuote]
        refine ⟨fun index isDrop => ?_, fun index body bodyUnmarked isDrop => ?_⟩
        · rw [Quoted.spansFrom, if_neg atQuote] at isDrop ⊢
          exact .plain own (outside index isDrop)
        · rw [Quoted.spansFrom, if_neg atQuote] at isDrop ⊢
          refine inside index (head :: body) ?_ isDrop
          intro mark isMark member
          rcases List.mem_cons.mp member with isHead | inBody
          · exact own mark isMark (by simp [isHead])
          · exact bodyUnmarked mark isMark inBody

/-- The mask of a text carries the quotations of the text. -/
theorem carries_protect {text : Text} (unmarked : openMark ∉ text)
    (fits : (Quoted.quotations text).length ≤ Numeral.wordCeiling) :
    Carries (Quoted.quotations text) (Quoted.quotations text) (protect text).text :=
  (carries_maskFrom fits unmarked).1 0 rfl

end Quotation

/-! ### Cutting outside quotes -/

namespace Quoted

/-- A piece in progress is closed exactly while the scan is outside quotes. -/
def Tracks (quoted : Bool) (piece : Text) : Prop :=
  quoted = false ↔ IsClosed piece

theorem Tracks.quote {quoted : Bool} {piece : Text} (tracks : Tracks quoted piece) :
    Tracks (!quoted) (quoteMark :: piece) := by
  unfold Tracks IsClosed at tracks ⊢
  rw [List.count_cons_self]
  cases quoted
  · have even := tracks.mp rfl
    simp only [Bool.not_false, Bool.true_eq_false, false_iff]
    omega
  · have odd : ¬piece.count quoteMark % 2 = 0 := fun even => by simpa using tracks.mpr even
    simp only [Bool.not_true, true_iff]
    omega

theorem Tracks.plain {quoted : Bool} {piece : Text} (tracks : Tracks quoted piece) {head : Char}
    (unquoted : head ≠ quoteMark) : Tracks quoted (head :: piece) := by
  unfold Tracks IsClosed at tracks ⊢
  rwa [List.count_cons_of_ne unquoted]

theorem isClosed_reverse {text : Text} : IsClosed text.reverse ↔ IsClosed text := by
  unfold IsClosed
  rw [List.count_reverse]

/-- Every piece that another one follows is closed. -/
theorem pairwise_splitFrom (isBreak : Char → Bool) {quoted : Bool} {piece : Text}
    (tracks : Tracks quoted piece) (text : Text) :
    (splitFrom isBreak quoted piece text).Pairwise fun piece _ => IsClosed piece := by
  induction text generalizing quoted piece with
  | nil => exact List.pairwise_singleton _ _
  | cons head tail inductionHypothesis =>
      unfold splitFrom
      split
      · rename_i atQuote
        rw [atQuote]
        exact inductionHypothesis tracks.quote
      · rename_i unquoted
        split
        · rename_i breaks
          simp only [Bool.and_eq_true, Bool.not_eq_true'] at breaks
          have closed : IsClosed piece := tracks.mp breaks.1
          have fresh : Tracks quoted [] := by simp [Tracks, breaks.1, IsClosed]
          exact List.pairwise_cons.mpr
            ⟨fun _ _ => isClosed_reverse.mpr closed, inductionHypothesis fresh⟩
        · exact inductionHypothesis (tracks.plain unquoted)

theorem flatMap_quotations_splitFrom (isBreak : Char → Bool) {quoted : Bool} {piece : Text}
    (tracks : Tracks quoted piece) (text : Text) :
    (splitFrom isBreak quoted piece text).flatMap quotations =
      quotations (piece.reverse ++ text) := by
  induction text generalizing quoted piece with
  | nil => simp [splitFrom]
  | cons head tail inductionHypothesis =>
      unfold splitFrom
      split
      · rename_i atQuote
        rw [atQuote, inductionHypothesis tracks.quote]
        simp
      · rename_i unquoted
        split
        · rename_i breaks
          simp only [Bool.and_eq_true, Bool.not_eq_true'] at breaks
          have closed : IsClosed piece.reverse := isClosed_reverse.mpr (tracks.mp breaks.1)
          have fresh : Tracks quoted [] := by simp [Tracks, breaks.1, IsClosed]
          have plain : quoteMark ∉ [head] := by simpa using Ne.symm unquoted
          rw [List.flatMap_cons, inductionHypothesis fresh, quotations_append closed,
            ← List.singleton_append, quotations_append (isClosed_of_unquoted plain),
            Quotation.quotations_of_unquoted plain]
          rfl
        · rw [inductionHypothesis (tracks.plain unquoted)]
          simp

/-- The quotations of pieces that are put together, if each piece is closed before the next
one starts. -/
theorem quotations_flatten {pieces : List Text}
    (closed : pieces.Pairwise fun piece _ => IsClosed piece) :
    quotations pieces.flatten = pieces.flatMap quotations := by
  induction pieces with
  | nil => rfl
  | cons head tail inductionHypothesis =>
      obtain ⟨headClosed, tailClosed⟩ := List.pairwise_cons.mp closed
      rw [List.flatten_cons, List.flatMap_cons, ← inductionHypothesis tailClosed]
      cases tail with
      | nil => simp [quotations, spans, spansFrom]
      | cons next others => exact quotations_append (headClosed next (by simp)) _

end Quoted

namespace Token

theorem pairwise_split (text : Text) :
    (split text).Pairwise fun token _ => Quoted.IsClosed token :=
  (Quoted.pairwise_splitFrom isBreak (by simp [Quoted.Tracks, Quoted.IsClosed]) text).filter _

/-- Cutting a text into tokens keeps its quotations, and a token that is dropped has none. -/
theorem flatMap_quotations_split (text : Text) :
    (split text).flatMap Quoted.quotations = Quoted.quotations text := by
  have whole := Quoted.flatMap_quotations_splitFrom isBreak
    (by simp [Quoted.Tracks, Quoted.IsClosed] : Quoted.Tracks false []) text
  have dropped (pieces : List Text) :
      (pieces.filter fun token => !token.isEmpty).flatMap Quoted.quotations =
        pieces.flatMap Quoted.quotations := by
    induction pieces with
    | nil => rfl
    | cons head tail inductionHypothesis =>
        cases head with
        | nil => exact inductionHypothesis
        | cons first others => simpa using inductionHypothesis
  exact (dropped _).trans whole

end Token

/-! ### Sources -/

theorem quotations_restored {source : Text} (unmarked : Quotation.openMark ∉ source)
    (addressable : source.Addressable) :
    Quoted.quotations (Quotation.restore (Quoted.quotations (Comment.strip source))
        (prepare (Quotation.protect (Comment.strip source)).text)) =
      Quoted.quotations (Comment.strip source) := by
  -- Each quotation takes two characters, so that their numbers stay far below the bound.
  have counted := Quoted.length_quotations_le (Comment.strip source)
  have length := Comment.length_strip_le source
  unfold Text.Addressable at addressable
  have carries := Quotation.carries_protect (Comment.unmarked_strip unmarked) (by omega)
  exact carries.prepare.quotations_restore

/-- The quotations of a source, less its comments, are those of its tokens: of the tokens put
together, and of each token for itself, since a quotation is closed before the next token
starts. -/
theorem quotations_tokenize {source : Text} (unmarked : Quotation.openMark ∉ source)
    (addressable : source.Addressable) :
    Quoted.quotations (tokenize source).flatten = Quoted.quotations (Comment.strip source) ∧
      (tokenize source).flatMap Quoted.quotations = Quoted.quotations (Comment.strip source) ∧
      ∀ token ∈ (tokenize source).dropLast, Quoted.IsClosed token := by
  rw [Token.tokenize_eq_ofCode, Token.ofCode, Token.ofMasked]
  have restored := quotations_restored unmarked addressable
  generalize Quotation.restore (Quoted.quotations (Comment.strip source))
    (prepare (Quotation.protect (Comment.strip source)).text) = text at restored ⊢
  have closed := Token.pairwise_split text
  have whole := (Token.flatMap_quotations_split text).trans restored
  exact ⟨(Quoted.quotations_flatten closed).trans whole, whole,
    fun _ member => closed.rel_dropLast_getLast member⟩

private def dataLines : Text :=
  "msg: db 'Mov a, b;  x: y' , 'it' ; 'no'\n db 'A\n  b  c','\t'\n cpi 'q r".toList

/-- Blanks, a comma, a colon, a semicolon, a mnemonic and a line end inside quotations, a
quotation in a comment and one without its closing quote. -/
theorem quotations_tokenize_dataLines :
    (Quotation.openMark ∉ dataLines ∧ dataLines.Addressable) ∧
      Quoted.quotations (tokenize dataLines).flatten = Quoted.quotations (Comment.strip dataLines) ∧
      (tokenize dataLines).flatMap Quoted.quotations =
        ["'Mov a, b;  x: y'", "'it'", "'A\n  b  c'", "'\t'"].map String.toList ∧
      ∀ token ∈ (tokenize dataLines).dropLast, Quoted.IsClosed token := by
  have unmarked : Quotation.openMark ∉ dataLines := by decide +kernel
  have addressable : dataLines.Addressable := by decide +kernel
  obtain ⟨together, each, closed⟩ := quotations_tokenize unmarked addressable
  refine ⟨⟨unmarked, addressable⟩, together, ?_, closed⟩
  rw [each]
  decide +kernel

end Asm8080
