import Asm8080.Proofs.Placeholders

/-!
Contract: tokenizing is local to lines.

Owns:
- the tokens of text whose comments are gone, and of masked text under a table of
  quotations;
- the law of masked text at a line end: the tokens before it and the tokens behind it;
- `tokenize_lineEnd`: a source cut at a line end outside quotes has the tokens of its
  two parts.

Does not own: what a stage does inside a line.
-/

namespace Asm8080

/-- The positions of the text can be counted in 64 bits, as those of any text in memory
can. -/
def Text.Addressable (text : Text) : Prop :=
  text.length < Numeral.wordCeiling

instance (text : Text) : Decidable text.Addressable := by
  unfold Text.Addressable
  infer_instance

namespace Token

/-- The tokens of masked text whose placeholders stand for the given quotations. -/
def ofMasked (quotations : List Text) (masked : Text) : List Token :=
  split (Quotation.restore quotations (prepare masked))

/-- The tokens of text whose comments are gone. -/
def ofCode (code : Text) : List Token :=
  ofMasked (Quoted.quotations code) (Quotation.protect code).text

theorem tokenize_eq_ofCode (source : Text) : tokenize source = ofCode (Comment.strip source) :=
  rfl

/-! ### Masked text at a line end -/

variable {left right : List Text}

theorem ofMasked_renumbered {leftText rightText : Text}
    (related : Quotation.Renumbered left right leftText rightText) :
    ofMasked left leftText = ofMasked right rightText := by
  unfold ofMasked
  rw [related.prepare.restore_eq]

theorem unquoted_prepare {masked : Text} (unquoted : quoteMark ∉ masked) :
    quoteMark ∉ prepare masked := fun member =>
  unquoted (mem_of_mem_prepare (by decide +kernel) (by decide) (by decide) (by decide) member)

/-- No stage looks across a line end behind masked text. -/
theorem ofMasked_lineEnd {masked : Text}
    (related : Quotation.Renumbered left right masked masked)
    (resolved : ∀ index, Quoted.IsClosed (Quotation.resolve right (Numeral.decimal index)))
    (unquoted : quoteMark ∉ masked) (rest : Text) :
    ofMasked left (masked ++ '\n' :: rest) = ofMasked right masked ++ ofMasked left rest := by
  have closed : Quoted.IsClosed (Quotation.restore right (prepare masked)) :=
    related.symm.prepare.isClosed_restore resolved (unquoted_prepare unquoted)
  unfold ofMasked
  rw [prepare_lineEnd unquoted, related.prepare.restore_append,
    Quotation.restore_cons _ (by decide), split_append_break closed (by decide)]

/-! ### Text without comments at a line end -/

/-- Behind closed text the placeholders are numbered on. -/
theorem protect_append {text : Text} (closed : Quoted.IsClosed text) (rest : Text) :
    (Quotation.protect (text ++ rest)).text =
      (Quotation.protect text).text ++
        Quotation.maskFrom (Quoted.quotations text).length (Quoted.spans rest) := by
  unfold Quotation.protect Quoted.quotations
  dsimp only
  rw [Quoted.spans_append closed, Quotation.maskFrom_append, Nat.zero_add]

theorem unquoted_protect {text : Text} (closed : Quoted.IsClosed text) :
    quoteMark ∉ (Quotation.protect text).text :=
  Quotation.unquoted_maskFrom 0 (Quoted.isClosed_of_mem_spans closed)

/-- The placeholders of a text mean the same when more quotations follow. -/
theorem renumbered_protect {text : Text} (unmarked : Quotation.openMark ∉ text)
    (others : List Text) :
    Quotation.Renumbered (Quoted.quotations text ++ others) (Quoted.quotations text)
      (Quotation.protect text).text (Quotation.protect text).text := by
  apply Quotation.Renumbered.maskFrom
  · rwa [Quoted.flatMap_text_spans]
  · intro place inside
    rw [Nat.zero_add]
    exact Quotation.resolve_append inside others

/-- The placeholders of a text mean the same when other quotations come before, as long as
their numbers fit in 64 bits. -/
theorem renumbered_shifted {text : Text} (unmarked : Quotation.openMark ∉ text)
    {others : List Text}
    (fits : others.length + (Quoted.quotations text).length ≤ Numeral.wordCeiling) :
    Quotation.Renumbered (others ++ Quoted.quotations text) (Quoted.quotations text)
      (Quotation.maskFrom others.length (Quoted.spans text)) (Quotation.protect text).text := by
  apply Quotation.Renumbered.maskFrom
  · rwa [Quoted.flatMap_text_spans]
  · intro place inside
    have ownInside : place < (Quoted.quotations text).length := inside
    rw [Nat.zero_add, Quotation.resolve_shifted others _ (by omega), if_pos ownInside]

/-- The mask of a text with closed text before and unquoted text in its middle. -/
theorem ofCode_eq_ofMasked {before : Text} (closed : Quoted.IsClosed before) (middle : Text)
    (unquoted : quoteMark ∉ middle) (after : Text) :
    ofCode (before ++ (middle ++ after)) =
      ofMasked (Quoted.quotations before ++ Quoted.quotations after)
        ((Quotation.protect before).text ++
          (middle ++
            Quotation.maskFrom (Quoted.quotations before).length (Quoted.spans after))) := by
  have middleClosed := Quoted.isClosed_of_unquoted unquoted
  have noQuotations := Quotation.quotations_of_unquoted unquoted
  have masked := Quotation.maskFrom_append (Quoted.quotations before).length (Quoted.spans middle)
    (Quoted.spans after)
  have noneCounted : (Quoted.spans middle).filterMap Quoted.Span.quotation? = [] := noQuotations
  rw [noneCounted, List.length_nil, Nat.add_zero, Quotation.spans_of_unquoted unquoted,
    Quotation.maskFrom_plain] at masked
  unfold ofCode
  rw [Quoted.quotations_append closed, Quoted.quotations_append middleClosed, noQuotations,
    List.nil_append, protect_append closed, Quoted.spans_append middleClosed,
    Quotation.spans_of_unquoted unquoted, masked]

theorem ofCode_lineEnd {before behind : Text} (closed : Quoted.IsClosed before)
    (unmarkedBefore : Quotation.openMark ∉ before) (unmarkedBehind : Quotation.openMark ∉ behind)
    (fits : (Quoted.quotations before).length + (Quoted.quotations behind).length ≤
      Numeral.wordCeiling) :
    ofCode (before ++ '\n' :: behind) = ofCode before ++ ofCode behind := by
  have masked := ofCode_eq_ofMasked closed ['\n'] (by decide) behind
  simp only [List.singleton_append] at masked
  rw [masked, ofMasked_lineEnd (renumbered_protect unmarkedBefore _)
    (Quotation.isClosed_resolve closed) (unquoted_protect closed),
    ofMasked_renumbered (renumbered_shifted unmarkedBehind fits), ofCode, ofCode]

theorem ofCode_of_unquoted {code : Text} (unquoted : quoteMark ∉ code)
    (unmarked : Quotation.openMark ∉ code) : ofCode code = split (prepare code) := by
  have unmarkedPrepared : Quotation.openMark ∉ prepare code := fun member =>
    unmarked (mem_of_mem_prepare (by decide +kernel) (by decide) (by decide) (by decide) member)
  unfold ofCode ofMasked
  rw [Quotation.protect_of_unquoted unquoted, Quotation.restore_of_unmarked _ unmarkedPrepared]

/-- Text without quotations leaves all numbers behind it as they are, so that anything may
follow. -/
theorem ofCode_lineEnd_of_unquoted {before : Text} (unquoted : quoteMark ∉ before)
    (unmarked : Quotation.openMark ∉ before) (behind : Text) :
    ofCode (before ++ '\n' :: behind) = ofCode before ++ ofCode behind := by
  have closed := Quoted.isClosed_of_unquoted unquoted
  have masked := ofCode_eq_ofMasked closed ['\n'] (by decide) behind
  simp only [List.singleton_append] at masked
  rw [masked, ofMasked_lineEnd (renumbered_protect unmarked _)
    (Quotation.isClosed_resolve closed) (unquoted_protect closed), ofCode, ofCode,
    Quotation.quotations_of_unquoted unquoted]
  rfl

end Token

/-! ### Sources -/

theorem Quoted.length_quotations_le (text : Text) :
    2 * (quotations text).length ≤ text.length := by
  have counted (spans : List Span) :
      2 * (spans.filterMap Span.quotation?).length ≤ (spans.flatMap Span.text).length := by
    induction spans with
    | nil => simp
    | cons head tail inductionHypothesis =>
        rw [List.flatMap_cons, List.length_append]
        cases head with
        | plain character =>
            rw [List.filterMap_cons_none rfl]
            omega
        | closed body =>
            have quotes : (Span.closed body).text.length = body.length + 2 := by simp [Span.text]
            have isQuotation : (Span.closed body).quotation? = some (Span.closed body).text := rfl
            rw [List.filterMap_cons_some isQuotation, List.length_cons]
            omega
        | unclosed body =>
            rw [List.filterMap_cons_none rfl]
            omega
  have whole := counted (spans text)
  rwa [flatMap_text_spans] at whole

theorem Comment.length_strip_le (source : Text) : (strip source).length ≤ source.length + 1 := by
  simpa using (sublist_strip source).length_le

theorem Comment.unmarked_strip {source : Text} (unmarked : Quotation.openMark ∉ source) :
    Quotation.openMark ∉ strip source := by
  intro member
  rcases List.mem_append.mp ((sublist_strip source).subset member) with inside | isEnd
  · exact unmarked inside
  · exact absurd (List.mem_singleton.mp isEnd) (by decide)

/-- The tokens of a source follow line by line from those of its code. -/
private theorem tokenize_of_cut {before behind : Text}
    (cut : ∀ code, Comment.strip before = code ++ ['\n'] →
      ∀ rest, rest = [] ∨ rest = Comment.strip behind →
        Token.ofCode (code ++ '\n' :: rest) = Token.ofCode code ++ Token.ofCode rest) :
    tokenize (before ++ '\n' :: behind) = tokenize before ++ tokenize behind := by
  simp only [Token.tokenize_eq_ofCode, Comment.strip_lineEnd]
  rcases Comment.strip_cases before with isEmpty | ⟨code, isCode⟩
  · rw [isEmpty]
    rfl
  · have whole := cut code isCode _ (Or.inr rfl)
    have alone := cut code isCode _ (Or.inl rfl)
    rw [isCode, List.append_assoc, List.singleton_append, whole, alone, List.append_assoc]
    rfl

/-- Behind lines without quotes anything may follow. -/
theorem tokenize_lineEnd_of_unquoted {before : Text}
    (plain : ∀ c ∈ Comment.strip before, c ≠ quoteMark ∧ c ≠ Quotation.openMark)
    (behind : Text) :
    tokenize (before ++ '\n' :: behind) = tokenize before ++ tokenize behind := by
  apply tokenize_of_cut
  intro code isCode rest _
  apply Token.ofCode_lineEnd_of_unquoted
  · exact fun member => (plain quoteMark (by simp [isCode, member])).1 rfl
  · exact fun member => (plain Quotation.openMark (by simp [isCode, member])).2 rfl

/-- A source that is cut at a line end outside quotes has the tokens of its two parts, in
order, whatever stands behind the line end. -/
theorem tokenize_lineEnd {before behind : Text}
    (unmarkedBefore : Quotation.openMark ∉ before) (unmarkedBehind : Quotation.openMark ∉ behind)
    (closed : Quoted.IsClosed (Comment.strip before))
    (addressable : Text.Addressable (before ++ '\n' :: behind)) :
    tokenize (before ++ '\n' :: behind) = tokenize before ++ tokenize behind := by
  apply tokenize_of_cut
  intro code isCode rest isRest
  have codeUnmarked : Quotation.openMark ∉ code := fun member =>
    Comment.unmarked_strip unmarkedBefore (by simp [isCode, member])
  have codeClosed : Quoted.IsClosed code := Quoted.isClosed_of_append (by decide) (isCode ▸ closed)
  have restFacts : Quotation.openMark ∉ rest ∧ rest.length ≤ behind.length + 1 := by
    rcases isRest with isEmpty | isStrip
    · simp [isEmpty]
    · rw [isStrip]
      exact ⟨Comment.unmarked_strip unmarkedBehind, Comment.length_strip_le behind⟩
  apply Token.ofCode_lineEnd codeClosed codeUnmarked restFacts.1
  -- Each quotation takes two characters, so that their numbers stay far below the bound.
  have ofCode := Quoted.length_quotations_le code
  have ofRest := Quoted.length_quotations_le rest
  have codeLength := Comment.length_strip_le before
  rw [isCode, List.length_append, List.length_singleton] at codeLength
  unfold Text.Addressable at addressable
  rw [List.length_append, List.length_cons] at addressable
  omega

private def literalLines : Text :=
  "text: db 'a  B',13 ; it's\n  mvi a,".toList

private def openLines : Text :=
  "cpi  'x'\ndb 'open".toList

/-- Quotations on both sides of the line end, the last one without its closing quote. -/
theorem tokenize_lineEnd_literals :
    tokenize (literalLines ++ '\n' :: openLines) =
      ["TEXT:", "DB", "'a  B',13", "3E", "FE", "'x'", "DB", "'OPEN\n"].map String.toList := by
  have cut := @tokenize_lineEnd literalLines openLines (by decide) (by decide) (by decide +kernel)
    (by decide +kernel)
  rw [cut]
  simp only [tokenize, Tokenized.ofSource, prepare, Mnemonic.substitute_eq_defined]
  decide +kernel

end Asm8080
