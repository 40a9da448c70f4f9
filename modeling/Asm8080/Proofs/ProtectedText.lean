import Asm8080.Proofs.QuotedLiterals

/-!
Contract: text whose quotations are set aside and put back.

Owns:
- `Comprises`, which divides a text at its quotes: stretches without quotes, complete quotations
  between them, and a rest that completes none;
- the mask of a text that is divided so, one quotation after the other;
- marks that stand inside complete quotations only, which no stretch of the mask shows;
- `protected_text_restored`: what is set aside is put back in its place, the table holds the
  complete quotations in order, and one quote is left in the mask just if one has no partner.

Does not own: the stages between setting aside and putting back.
-/

namespace Asm8080

/-! ### A text divided at its quotes -/

namespace Quoted

/-- The complete quotations of a text, quotes included, in their order: each quote closes the
quotation that the one before it opens. Behind the last of them there is at most one more
quote. -/
inductive Comprises : Text → List Text → Prop
  | rest {text : Text} (single : text.count quoteMark ≤ 1) : Comprises text []
  | quotation {gap body later : Text} {others : List Text} (unquoted : quoteMark ∉ gap)
      (bodyUnquoted : quoteMark ∉ body) (behind : Comprises later others) :
      Comprises (gap ++ (quoteMark :: body ++ [quoteMark]) ++ later)
        ((quoteMark :: body ++ [quoteMark]) :: others)

/-- Every text is divided in some way. -/
theorem exists_comprises (text : Text) : ∃ quotations, Comprises text quotations := by
  by_cases single : text.count quoteMark ≤ 1
  · exact ⟨[], .rest single⟩
  · obtain ⟨gap, behind, isText, unquoted⟩ :=
      List.eq_append_cons_of_mem (List.count_pos_iff.mp (by omega : 0 < text.count quoteMark))
    have counted : text.count quoteMark = behind.count quoteMark + 1 := by
      rw [isText, List.count_append, List.count_eq_zero_of_not_mem unquoted, List.count_cons_self]
      omega
    obtain ⟨body, later, isBehind, bodyUnquoted⟩ :=
      List.eq_append_cons_of_mem (List.count_pos_iff.mp (by omega : 0 < behind.count quoteMark))
    have whole : text = gap ++ (quoteMark :: body ++ [quoteMark]) ++ later := by
      rw [isText, isBehind]
      simp
    have shorter : later.length < text.length := by
      rw [whole]
      simp only [List.length_append, List.length_cons]
      omega
    obtain ⟨others, comprises⟩ := exists_comprises later
    rw [whole]
    exact ⟨_, .quotation unquoted bodyUnquoted comprises⟩
termination_by text.length

/-- At most one quote completes no quotation. -/
theorem spans_of_single {text : Text} (single : text.count quoteMark ≤ 1) :
    spans text = text.map Span.plain ∨
      ∃ gap body, spans text = gap.map Span.plain ++ [.unclosed body] ∧
        text = gap ++ quoteMark :: body := by
  by_cases quoted : quoteMark ∈ text
  · obtain ⟨gap, body, isText, unquoted⟩ := List.eq_append_cons_of_mem quoted
    have bodyUnquoted : quoteMark ∉ body := by
      rw [isText, List.count_append, List.count_cons_self] at single
      exact List.count_eq_zero.mp (by omega)
    refine .inr ⟨gap, body, ?_, isText⟩
    rw [isText, spans_append (isClosed_of_unquoted unquoted), spans_unclosed bodyUnquoted,
      Quotation.spans_of_unquoted unquoted]
  · exact .inl (Quotation.spans_of_unquoted quoted)

theorem spans_quotation {gap body : Text} (unquoted : quoteMark ∉ gap)
    (bodyUnquoted : quoteMark ∉ body) (later : Text) :
    spans (gap ++ (quoteMark :: body ++ [quoteMark]) ++ later) =
      gap.map Span.plain ++ .closed body :: spans later := by
  have closed : spans (quoteMark :: body ++ [quoteMark]) = [.closed body] :=
    spans_closed bodyUnquoted
  have isClosed : IsClosed (quoteMark :: body ++ [quoteMark]) := isClosed_closed bodyUnquoted
  rw [List.append_assoc, spans_append (isClosed_of_unquoted unquoted), spans_append isClosed,
    Quotation.spans_of_unquoted unquoted, closed, List.singleton_append]

/-- The scan finds the quotations of the division. -/
theorem Comprises.quotations_eq {text : Text} {table : List Text}
    (comprises : Comprises text table) : quotations text = table := by
  induction comprises with
  | rest single =>
      rw [quotations]
      rcases spans_of_single single with isSpans | ⟨gap, body, isSpans, _⟩
      · rw [isSpans, Quotation.filterMap_quotation?_plain]
      · rw [isSpans, List.filterMap_append, Quotation.filterMap_quotation?_plain]
        rfl
  | quotation unquoted bodyUnquoted _ inductionHypothesis =>
      rw [quotations, spans_quotation unquoted bodyUnquoted, List.filterMap_append,
        Quotation.filterMap_quotation?_plain, ← inductionHypothesis]
      rfl

theorem comprises_iff {text : Text} {table : List Text} :
    Comprises text table ↔ table = quotations text := by
  constructor
  · intro comprises
    exact comprises.quotations_eq.symm
  · intro isTable
    obtain ⟨found, comprises⟩ := exists_comprises text
    rwa [isTable, comprises.quotations_eq]

end Quoted

/-! ### The mask of a divided text -/

namespace Quotation

theorem maskFrom_of_single (index : Nat) {text : Text} (single : text.count quoteMark ≤ 1) :
    maskFrom index (Quoted.spans text) = text := by
  rcases Quoted.spans_of_single single with isSpans | ⟨gap, body, isSpans, isText⟩
  · rw [isSpans, maskFrom_plain]
  · rw [isSpans, maskFrom_append, maskFrom_plain, isText]
    simp [maskFrom]

theorem maskFrom_quotation (index : Nat) {gap body : Text} (unquoted : quoteMark ∉ gap)
    (bodyUnquoted : quoteMark ∉ body) (later : Text) :
    maskFrom index (Quoted.spans (gap ++ (quoteMark :: body ++ [quoteMark]) ++ later)) =
      gap ++ (placeholder (Numeral.decimal index) ++
        maskFrom (index + 1) (Quoted.spans later)) := by
  rw [Quoted.spans_quotation unquoted bodyUnquoted, maskFrom_append, maskFrom_plain,
    filterMap_quotation?_plain]
  rfl

theorem not_mem_decimal {sign : Char} (notDigit : sign.isDigit = false) (index : Nat) :
    sign ∉ Numeral.decimal index := fun member =>
  Bool.false_ne_true (notDigit.symm.trans (isDigit_of_mem_decimal member))

theorem count_placeholder {sign : Char} (notDigit : sign.isDigit = false) (index : Nat) :
    (placeholder (Numeral.decimal index)).count sign = [openMark, closeMark].count sign := by
  have inside := List.count_eq_zero_of_not_mem (not_mem_decimal notDigit index)
  rw [placeholder, ← List.singleton_append, List.append_assoc, List.count_append,
    List.count_append, inside, Nat.zero_add, ← List.count_append]
  rfl

theorem unquoted_placeholder (index : Nat) : quoteMark ∉ placeholder (Numeral.decimal index) := by
  apply List.count_eq_zero.mp
  rw [count_placeholder (by decide)]
  decide

/-- A quotation takes two quotes out of the text, so the one that is left has no partner. -/
theorem count_quoteMark_maskFrom {text : Text} {table : List Text}
    (comprises : Quoted.Comprises text table) (index : Nat) :
    (maskFrom index (Quoted.spans text)).count quoteMark = text.count quoteMark % 2 := by
  induction comprises generalizing index with
  | rest single =>
      rw [maskFrom_of_single index single]
      omega
  | @quotation gap body later _ unquoted bodyUnquoted _ inductionHypothesis =>
      have ofGap := List.count_eq_zero_of_not_mem unquoted
      have ofBody := List.count_eq_zero_of_not_mem bodyUnquoted
      have ofPlaceholder := List.count_eq_zero_of_not_mem (unquoted_placeholder index)
      rw [maskFrom_quotation index unquoted bodyUnquoted]
      simp only [List.count_append, List.count_cons_self, List.count_nil, ofGap, ofBody,
        ofPlaceholder, inductionHypothesis]
      omega

/-! ### Marks inside quotations -/

/-- Wherever the mark stands, the quotes before it leave one open, and a quote behind it closes
that one. -/
def Enclosed (mark : Char) (text : Text) : Prop :=
  ∀ before behind, text = before ++ mark :: behind →
    before.count quoteMark % 2 = 1 ∧ quoteMark ∈ behind

/-- The places of a text are finitely many. -/
theorem enclosed_iff_places {mark : Char} {text : Text} :
    Enclosed mark text ↔ ∀ place < text.length, text[place]? = some mark →
      (text.take place).count quoteMark % 2 = 1 ∧ quoteMark ∈ text.drop (place + 1) := by
  constructor
  · intro enclosed place inside isMark
    obtain ⟨_, here⟩ := List.getElem?_eq_some_iff.mp isMark
    apply enclosed
    rw [← here, ← List.drop_eq_getElem_cons inside, List.take_append_drop]
  · intro places before behind isText
    have here := places before.length (by simp [isText]) (by simp [isText])
    simpa [isText] using here

instance (mark : Char) (text : Text) : Decidable (Enclosed mark text) :=
  decidable_of_iff _ enclosed_iff_places.symm

theorem enclosed_of_not_mem {mark : Char} {text : Text} (unmarked : mark ∉ text) :
    Enclosed mark text := by
  intro before behind isText
  exact absurd (by simp [isText]) unmarked

namespace Enclosed

variable {mark : Char}

theorem not_mem_of_single {text : Text} (enclosed : Enclosed mark text)
    (single : text.count quoteMark ≤ 1) : mark ∉ text := by
  intro member
  obtain ⟨before, behind, isText⟩ := List.append_of_mem member
  obtain ⟨opened, closes⟩ := enclosed before behind isText
  have closing := List.count_pos_iff.mpr closes
  rw [isText, List.count_append, List.count_cons] at single
  omega

theorem not_mem_gap {gap rest : Text} (enclosed : Enclosed mark (gap ++ rest))
    (unquoted : quoteMark ∉ gap) : mark ∉ gap := by
  intro member
  obtain ⟨before, behind, isGap⟩ := List.append_of_mem member
  obtain ⟨opened, _⟩ := enclosed before (behind ++ rest) (by simp [isGap])
  have ofBefore : before.count quoteMark = 0 :=
    List.count_eq_zero_of_not_mem fun inside => unquoted (by simp [isGap, inside])
  omega

theorem behind_closed {front later : Text} (enclosed : Enclosed mark (front ++ later))
    (closed : Quoted.IsClosed front) : Enclosed mark later := by
  intro before behind isLater
  obtain ⟨opened, closes⟩ := enclosed (front ++ before) behind (by simp [isLater])
  refine ⟨?_, closes⟩
  rw [List.count_append] at opened
  have even : front.count quoteMark % 2 = 0 := closed
  omega

end Enclosed

/-! ### Restoring -/

/-- Masked with numbers from `index` on, a text is restored, if the table has its quotations from
there on. -/
theorem restore_maskFrom {table : List Text} (fits : table.length ≤ Numeral.wordCeiling)
    {text : Text} {others : List Text} (comprises : Quoted.Comprises text others)
    (enclosed : Enclosed openMark text) {index : Nat} (isDrop : table.drop index = others) :
    restore table (maskFrom index (Quoted.spans text)) = text := by
  induction comprises generalizing index with
  | rest single =>
      rw [maskFrom_of_single index single]
      exact restore_of_unmarked table (enclosed.not_mem_of_single single)
  | @quotation gap body later _ unquoted bodyUnquoted _ inductionHypothesis =>
      obtain ⟨resolved, isLater⟩ := resolve_of_drop fits isDrop
      have gapUnmarked : openMark ∉ gap := by
        rw [List.append_assoc] at enclosed
        exact enclosed.not_mem_gap unquoted
      have laterEnclosed : Enclosed openMark later :=
        enclosed.behind_closed ((Quoted.isClosed_append (Quoted.isClosed_of_unquoted unquoted)).mpr
          (Quoted.isClosed_closed bodyUnquoted))
      -- The quotation comes back whole: what it holds is not read again.
      rw [maskFrom_quotation index unquoted bodyUnquoted, restore_append table gapUnmarked,
        restore_placeholder, resolved, inductionHypothesis laterEnclosed isLater,
        List.append_assoc gap]

/-- What is set aside is put back in its place. -/
theorem restore_protect {text : Text} (enclosed : Enclosed openMark text)
    (fits : (Quoted.quotations text).length ≤ Numeral.wordCeiling) :
    restore (Quoted.quotations text) (protect text).text = text :=
  restore_maskFrom fits (Quoted.comprises_iff.mpr rfl) enclosed List.drop_zero

end Quotation

/-- Setting quotations aside and putting them back. A text whose opening marks all stand inside
complete quotations is restored; the table is the list of the complete quotations; and the mask
has one quote or none, as the quotes of the text are odd or even in number. -/
theorem protected_text_restored (text : Text) :
    (Quotation.Enclosed Quotation.openMark text → text.Addressable →
      Quotation.restore (Quotation.protect text).quotations (Quotation.protect text).text =
        text) ∧
    (∀ table, Quoted.Comprises text table ↔ table = (Quotation.protect text).quotations) ∧
    (Quotation.protect text).text.count quoteMark ≤ 1 ∧
    (quoteMark ∈ (Quotation.protect text).text ↔ text.count quoteMark % 2 = 1) := by
  have counted : (Quotation.protect text).text.count quoteMark = text.count quoteMark % 2 :=
    Quotation.count_quoteMark_maskFrom (Quoted.comprises_iff.mpr rfl) 0
  refine ⟨fun enclosed addressable => ?_, fun table => Quoted.comprises_iff, by omega, ?_⟩
  · have few := Quoted.length_quotations_le text
    unfold Text.Addressable at addressable
    exact Quotation.restore_protect enclosed (by omega)
  · rw [← List.count_pos_iff]
    omega

private def markedText : Text :=
  "db '\uE0017\uE002', 'a\nb' ; ''\ncpi 'q".toList

/-- A quotation that looks like a placeholder, one over a line end, an empty one, and a quote
that is never closed. -/
theorem protected_text_restored_markedText :
    (Quotation.Enclosed Quotation.openMark markedText ∧ markedText.Addressable) ∧
      Quotation.protect markedText =
        { text := "db \uE0010\uE002, \uE0011\uE002 ; \uE0012\uE002\ncpi 'q".toList
          quotations := ["'\uE0017\uE002'", "'a\nb'", "''"].map String.toList } ∧
      Quotation.restore (Quotation.protect markedText).quotations
        (Quotation.protect markedText).text = markedText := by
  have enclosed : Quotation.Enclosed Quotation.openMark markedText := by decide +kernel
  have addressable : markedText.Addressable := by decide +kernel
  refine ⟨⟨enclosed, addressable⟩, by decide +kernel, ?_⟩
  exact (protected_text_restored markedText).1 enclosed addressable

/-- A mark outside quotations is read as a placeholder. -/
example :
    let masked := Quotation.protect "\uE0010\uE002 'a'".toList
    Quotation.restore masked.quotations masked.text = "'a' 'a'".toList := by
  decide +kernel

end Asm8080
