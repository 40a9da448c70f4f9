import Mathlib.Data.List.Chain
import Asm8080.Token

/-!
Contract: the stages of tokenizing on text without quotes and comments.

Owns:
- the trimming of text with white space around it;
- plain text, in which nothing is quoted and every blank is a single space;
- the law of each stage on such text: comments, quotations and layout leave it
  alone, up to upper case and a closing line end;
- the cutting of prepared text at its break characters.

Does not own: the substitution of mnemonics, and text with quotations.
-/

namespace Asm8080

/-- What holds of the first 128 code points holds of every ASCII character. -/
theorem forall_ascii (holds : Char → Prop) (each : ∀ code < 0x80, holds (Char.ofNat code))
    {character : Char} (ascii : character.toNat < 0x80) : holds character := by
  have atCode := each character.toNat ascii
  rwa [Char.ofNat_toNat] at atCode

theorem toUpper_of_not_ascii {character : Char} (foreign : ¬character.toNat < 0x80) :
    character.toUpper = character := by
  have notLower : ¬('a'.val ≤ character.val ∧ character.val ≤ 'z'.val) := by
    rintro ⟨_, atMost⟩
    have small : character.toNat ≤ 'z'.toNat := atMost
    exact foreign (Nat.lt_of_le_of_lt small (by decide))
  exact dif_neg notLower

theorem isAlphanum_iff (character : Char) :
    character.isAlphanum = true ↔
      (character.isUpper = true ∨ character.isLower = true) ∨ character.isDigit = true := by
  have classes : character.isAlphanum =
      ((character.isUpper || character.isLower) || character.isDigit) := rfl
  rw [classes, Bool.or_eq_true, Bool.or_eq_true]

theorem toNat_of_isAlphanum {character : Char} (alphanumeric : character.isAlphanum = true) :
    character.toNat < 0x80 := by
  have below (limit : Char) (low : limit.toNat < 0x80) (atMost : character.val ≤ limit.val) :
      character.toNat < 0x80 :=
    Nat.lt_of_le_of_lt atMost low
  rcases (isAlphanum_iff character).mp alphanumeric with (upper | lower) | digit
  · exact below 'Z' (by decide) (of_decide_eq_true upper).2
  · exact below 'z' (by decide) (of_decide_eq_true (Bool.and_eq_true_iff.mp lower).2)
  · exact below '9' (by decide) (of_decide_eq_true (Bool.and_eq_true_iff.mp digit).2)

theorem Text.head?_trim {first : Char} (visible : isWhiteSpace first = false) (rest : Text) :
    (trim (first :: rest)).head? = some first := by
  have started : trimStart (first :: rest) = first :: rest :=
    List.dropWhile_cons_of_neg (by simp [visible])
  have kept : [first].dropWhile isWhiteSpace = [first] :=
    List.dropWhile_cons_of_neg (by simp [visible])
  unfold trim
  rw [started, trimEnd, List.reverse_cons, List.dropWhile_append, kept]
  split <;> simp

theorem Text.dropWhile_padded {before text : Text}
    (blank : ∀ c ∈ before, isWhiteSpace c = true)
    (starts : ∀ c ∈ text.head?, isWhiteSpace c = false) :
    (before ++ text).dropWhile isWhiteSpace = text := by
  rw [List.dropWhile_append_of_pos blank]
  cases text with
  | nil => rfl
  | cons head tail => exact List.dropWhile_cons_of_neg (by simp [starts head rfl])

/-- Trimming takes off the white space around a text that has none at its ends. -/
theorem Text.trim_padded {before text after : Text} (nonempty : text ≠ [])
    (blankBefore : ∀ c ∈ before, isWhiteSpace c = true)
    (blankAfter : ∀ c ∈ after, isWhiteSpace c = true)
    (starts : ∀ c ∈ text.head?, isWhiteSpace c = false)
    (ends : ∀ c ∈ text.getLast?, isWhiteSpace c = false) :
    trim (before ++ (text ++ after)) = text := by
  have atStart : trimStart (before ++ (text ++ after)) = text ++ after := by
    apply dropWhile_padded blankBefore
    rwa [List.head?_append_of_ne_nil _ nonempty]
  have atEnd : (after.reverse ++ text.reverse).dropWhile isWhiteSpace = text.reverse := by
    apply dropWhile_padded
    · intro c member
      exact blankAfter c (List.mem_reverse.mp member)
    · rwa [List.head?_reverse]
  rw [trim, atStart, trimEnd, List.reverse_append, atEnd, List.reverse_reverse]

theorem Text.trim_blank {text : Text} (blank : ∀ c ∈ text, isWhiteSpace c = true) :
    trim text = [] := by
  have nothing : trimStart (text ++ []) = [] := dropWhile_padded blank (by simp)
  rw [List.append_nil] at nothing
  rw [trim, nothing]
  rfl

/-! ### Comments and quotations -/

namespace Comment

/-- The lines of a text, each with a line end, are the text with one line end more. -/
theorem flatMap_splitOn (text : Text) :
    (text.splitOn '\n').flatMap (fun line => line ++ ['\n']) = text ++ ['\n'] := by
  induction text with
  | nil => rfl
  | cons head tail inductionHypothesis =>
      rw [List.splitOn, List.splitOnP_cons_eq_if_modifyHead]
      by_cases atEnd : head = '\n'
      · rw [if_pos (by simp [atEnd]), List.flatMap_cons]
        rw [List.splitOn] at inductionHypothesis
        rw [inductionHypothesis, atEnd]
        rfl
      · rw [if_neg (by simp [atEnd])]
        obtain ⟨first, rest, isSplit⟩ :=
          List.exists_cons_of_ne_nil (List.splitOnP_ne_nil (fun c => c == '\n') tail)
        rw [List.splitOn, isSplit] at inductionHypothesis
        rw [isSplit, List.modifyHead_cons, List.flatMap_cons, List.cons_append,
          List.cons_append, ← List.flatMap_cons (f := fun line => line ++ ['\n']),
          inductionHypothesis, List.cons_append]

/-- A scan for stops passes a text that has neither stops nor quotes. -/
theorem untilStop_append {isStop : Char → Bool} {text : Text}
    (free : ∀ c ∈ text, c ≠ quoteMark ∧ isStop c = false) (rest : Text) :
    Quoted.untilStop isStop false (text ++ rest) =
      text ++ Quoted.untilStop isStop false rest := by
  induction text with
  | nil => rfl
  | cons head tail inductionHypothesis =>
      obtain ⟨unquoted, goes⟩ := free head (by simp)
      have later := inductionHypothesis fun c member => free c (by simp [member])
      simp [Quoted.untilStop, unquoted, goes, later]

/-- A text without quotes and semicolons has no comments. -/
theorem strip_of_free {text : Text} (free : ∀ c ∈ text, c ≠ quoteMark ∧ c ≠ ';') :
    strip text = text ++ ['\n'] := by
  have freeLine : ∀ line ∈ text.splitOn '\n', ∀ c ∈ line, c ≠ quoteMark ∧ isMark c = false := by
    intro line isLine c member
    have inText : c ∈ text ++ ['\n'] := by
      rw [← flatMap_splitOn text]
      exact List.mem_flatMap.mpr ⟨line, isLine, by simp [member]⟩
    rcases List.mem_append.mp inText with inside | atEnd
    · obtain ⟨unquoted, uncommented⟩ := free c inside
      exact ⟨unquoted, by simp [isMark, uncommented]⟩
    · rw [List.mem_singleton.mp atEnd]
      decide
  have noneFilled : ∀ line ∈ text.splitOn '\n', !fillsLine line := by
    intro line isLine
    unfold fillsLine
    cases first : (Text.trim line).head? with
    | none => rfl
    | some c =>
        have trimmed : c ∈ line := by
          have inTrim : c ∈ Text.trim line := List.mem_of_head? first
          unfold Text.trim Text.trimEnd Text.trimStart at inTrim
          rw [List.mem_reverse] at inTrim
          have inStart := (List.dropWhile_sublist _).subset inTrim
          rw [List.mem_reverse] at inStart
          exact (List.dropWhile_sublist _).subset inStart
        simp [(freeLine line isLine c trimmed).2]
  unfold strip
  rw [List.filter_eq_self.mpr noneFilled, ← flatMap_splitOn text]
  apply List.flatMap_congr
  intro line isLine
  have whole := untilStop_append (freeLine line isLine) []
  rw [List.append_nil] at whole
  rw [code, whole, Quoted.untilStop, List.append_nil]

end Comment

namespace Quotation

theorem spans_of_unquoted {text : Text} (unquoted : quoteMark ∉ text) :
    Quoted.spans text = text.map Quoted.Span.plain := by
  unfold Quoted.spans
  induction text with
  | nil => rfl
  | cons head tail inductionHypothesis =>
      have headPlain : head ≠ quoteMark := fun isQuote => unquoted (by simp [isQuote])
      have tailPlain : quoteMark ∉ tail := fun member => unquoted (by simp [member])
      simp [Quoted.spansFrom, headPlain, inductionHypothesis tailPlain]

theorem maskFrom_plain (index : Nat) (text : Text) :
    maskFrom index (text.map Quoted.Span.plain) = text := by
  induction text with
  | nil => rfl
  | cons head tail inductionHypothesis => simp [maskFrom, inductionHypothesis]

theorem filterMap_quotation?_plain (text : Text) :
    (text.map Quoted.Span.plain).filterMap Quoted.Span.quotation? = [] := by
  rw [List.filterMap_map, List.filterMap_eq_nil_iff]
  exact fun _ _ => rfl

theorem quotations_of_unquoted {text : Text} (unquoted : quoteMark ∉ text) :
    Quoted.quotations text = [] := by
  rw [Quoted.quotations, spans_of_unquoted unquoted, filterMap_quotation?_plain]

theorem protect_of_unquoted {text : Text} (unquoted : quoteMark ∉ text) :
    protect text = ⟨text, []⟩ := by
  unfold protect
  rw [spans_of_unquoted unquoted, maskFrom_plain, quotations_of_unquoted unquoted]

theorem restore_cons (quotations : List Text) {head : Char} (unmarked : head ≠ openMark)
    (tail : Text) : restore quotations (head :: tail) = head :: restore quotations tail := by
  simp [restore, restoreFrom, unmarked]

theorem restore_append (quotations : List Text) {text : Text} (unmarked : openMark ∉ text)
    (rest : Text) : restore quotations (text ++ rest) = text ++ restore quotations rest := by
  induction text with
  | nil => rfl
  | cons head tail inductionHypothesis =>
      have headPlain : head ≠ openMark := fun isMark => unmarked (by simp [isMark])
      have tailPlain : openMark ∉ tail := fun member => unmarked (by simp [member])
      rw [List.cons_append, restore_cons quotations headPlain, inductionHypothesis tailPlain,
        List.cons_append]

theorem restore_of_unmarked (quotations : List Text) {text : Text}
    (unmarked : openMark ∉ text) : restore quotations text = text := by
  simpa [restore, restoreFrom] using restore_append quotations unmarked []

end Quotation

/-! ### Layout -/

namespace Layout

/-- A character that no stage before the mnemonics treats in a way of its own: ASCII,
no quote, no semicolon, and no blank other than the space. -/
def isPlain (character : Char) : Bool :=
  decide (character.toNat < 0x80) && character != quoteMark && character != ';' &&
    character != '\t' && character != '\r'

/-- How neighbours stand in text that the layout leaves alone: no space follows a
space or a comma. -/
def Spaced (left right : Char) : Prop :=
  right = ' ' → left ≠ ' ' ∧ left ≠ ','

instance (left right : Char) : Decidable (Spaced left right) := by
  unfold Spaced
  infer_instance

theorem eq_of_toUpper_eq (character : Char) :
    (character.toUpper = ' ' → character = ' ') ∧ (character.toUpper = ',' → character = ',') := by
  by_cases ascii : character.toNat < 0x80
  · exact forall_ascii (fun c => (c.toUpper = ' ' → c = ' ') ∧ (c.toUpper = ',' → c = ','))
      (by decide) ascii
  · rw [toUpper_of_not_ascii ascii]
    exact ⟨id, id⟩

theorem Spaced.toUpper {left right : Char} (spaced : Spaced left right) :
    Spaced left.toUpper right.toUpper := by
  intro isSpace
  obtain ⟨notSpace, notComma⟩ := spaced ((eq_of_toUpper_eq right).1 isSpace)
  exact ⟨fun upper => notSpace ((eq_of_toUpper_eq left).1 upper),
    fun upper => notComma ((eq_of_toUpper_eq left).2 upper)⟩

/-- Where no space follows a comma there is none to drop. -/
theorem tightenCommas_of_spaced {text : Text} (spaced : text.IsChain Spaced) :
    tightenCommas text = text := by
  fun_induction tightenCommas text with
  | case1 tail inductionHypothesis =>
      have related := (List.isChain_cons_cons.mp spaced).1
      exact absurd rfl (related rfl).2
  | case2 head tail _ inductionHypothesis => rw [inductionHypothesis spaced.tail]
  | case3 => rfl

private theorem foldFrom_of_spaced {text : Text} (plain : ∀ c ∈ text, isPlain c)
    (spaced : text.IsChain Spaced) :
    foldFrom false false text = text.map Char.toUpper ∧
      (text.head? ≠ some ' ' → foldFrom false true text = ' ' :: text.map Char.toUpper) := by
  induction text with
  | nil => simp [foldFrom, space]
  | cons head tail inductionHypothesis =>
      obtain ⟨unpended, pended⟩ := inductionHypothesis
        (fun c member => plain c (by simp [member])) spaced.tail
      have headPlain := plain head (by simp)
      simp only [isPlain, Bool.and_eq_true, decide_eq_true_eq, bne_iff_ne] at headPlain
      obtain ⟨⟨⟨⟨ascii, unquoted⟩, _⟩, noTab⟩, noReturn⟩ := headPlain
      by_cases isSpace : head = ' '
      · have tailNoSpace : tail.head? ≠ some ' ' := by
          intro startsBlank
          have related := (List.isChain_cons.mp spaced).1 ' ' startsBlank
          exact (related rfl).1 isSpace
        constructor
        · simp [foldFrom, isSpace, isBlank, quoteMark, pended tailNoSpace]
        · simp [isSpace]
      · simp [foldFrom, unquoted, isBlank, isSpace, noTab, noReturn, space, upperCase, ascii,
          unpended]

/-- Text with single spaces only changes its letter case. -/
theorem fold_of_spaced {text : Text} (plain : ∀ c ∈ text, isPlain c)
    (spaced : text.IsChain Spaced) : fold text = text.map Char.toUpper :=
  (foldFrom_of_spaced plain spaced).1

/-- Text that keeps its layout behind any other such text. -/
structure Settled (text : Text) : Prop where
  spaced : text.IsChain Spaced
  starts : text.head? ≠ some ' '

theorem Settled.append {left right : Text} (leftSettled : Settled left)
    (rightSettled : Settled right) : Settled (left ++ right) where
  spaced := by
    apply List.isChain_append.mpr
    refine ⟨leftSettled.spaced, rightSettled.spaced, ?_⟩
    intro last _ first isFirst isSpace
    rw [isSpace] at isFirst
    exact absurd isFirst rightSettled.starts
  starts := by
    cases left with
    | nil => exact rightSettled.starts
    | cons head tail => exact leftSettled.starts

theorem Settled.of_noSpace {text : Text} (noSpace : ∀ c ∈ text, c ≠ ' ') : Settled text where
  spaced := by
    induction text with
    | nil => exact List.isChain_nil
    | cons head tail inductionHypothesis =>
        apply List.isChain_cons.mpr
        refine ⟨?_, inductionHypothesis fun c member => noSpace c (by simp [member])⟩
        intro next isNext isSpace
        have inTail : next ∈ tail := List.mem_of_head? isNext
        exact absurd isSpace (noSpace next (by simp [inTail]))
  starts := fun isSpace => noSpace ' ' (List.mem_of_head? isSpace) rfl

end Layout

/-! ### Cutting into tokens -/

namespace Token

private theorem splitFrom_append (word rest : Text) {break_ : Char}
    (unbroken : ∀ c ∈ word, c ≠ quoteMark ∧ isBreak c = false) (breaks : isBreak break_ = true)
    (piece : Text) :
    Quoted.splitFrom isBreak false piece (word ++ break_ :: rest) =
      (piece.reverse ++ word) :: Quoted.splitFrom isBreak false [] rest := by
  induction word generalizing piece with
  | nil =>
      have unquoted : break_ ≠ quoteMark := by
        intro isQuote
        rw [isQuote] at breaks
        exact absurd breaks (by decide)
      simp [Quoted.splitFrom, unquoted, breaks]
  | cons head tail inductionHypothesis =>
      obtain ⟨unquoted, goes⟩ := unbroken head (by simp)
      have later := inductionHypothesis (fun c member => unbroken c (by simp [member]))
        (head :: piece)
      simp [Quoted.splitFrom, unquoted, goes, later]

theorem split_append {word rest : Text} {break_ : Char}
    (unbroken : ∀ c ∈ word, c ≠ quoteMark ∧ isBreak c = false) (breaks : isBreak break_ = true)
    (nonempty : word ≠ []) : split (word ++ break_ :: rest) = word :: split rest := by
  unfold split Quoted.split
  rw [splitFrom_append word rest unbroken breaks, List.filter_cons_of_pos (by simpa using nonempty)]
  rfl

theorem split_break (rest : Text) {break_ : Char} (breaks : isBreak break_ = true) :
    split (break_ :: rest) = split rest := by
  have cut := splitFrom_append [] rest (by simp) breaks []
  rw [List.nil_append] at cut
  unfold split Quoted.split
  rw [cut, List.filter_cons_of_neg (by simp)]

theorem markLabels_append (left right : Text) :
    markLabels (left ++ right) = markLabels left ++ markLabels right :=
  List.flatMap_append

theorem markLabels_of_free {text : Text} (free : ∀ c ∈ text, c ≠ '\t' ∧ c ≠ ':') :
    markLabels text = text := by
  unfold markLabels
  induction text with
  | nil => rfl
  | cons head tail inductionHypothesis =>
      obtain ⟨noTab, noColon⟩ := free head (by simp)
      have rest := inductionHypothesis fun c member => free c (by simp [member])
      rw [List.flatMap_cons, rest]
      simp [noTab, noColon]

end Token

end Asm8080
