import Asm8080.Proofs.LineSeams

/-!
Contract: comments and the text that is left without them.

Owns:
- the semicolons of a line that stand outside quotes, said by counting quotes and without a
  scan. The first of them begins the comment of the line;
- what the two rules for comments do at that semicolon: both look only at the text in front
  of it, whatever stands behind it;
- text without comments, which is all that is left of a source and which loses nothing more;
- `comments_have_no_influence`: these facts for a whole source.

Does not own: quotations that run over a line end. For comments each line starts outside
quotes.
-/

namespace Asm8080.Comment

/-! ### Semicolons outside quotes -/

/-- A semicolon outside quotes stands at the index of a line: an even number of quotes stands
in front of it. -/
def MarkAt (text : Text) (index : Nat) : Prop :=
  text[index]? = some ';' ∧ (text.take index).count quoteMark % 2 = 0

instance (text : Text) (index : Nat) : Decidable (MarkAt text index) := by
  unfold MarkAt
  infer_instance

/-- The comment of a line begins at its first semicolon outside quotes. -/
def BeginsAt (line : Text) (index : Nat) : Prop :=
  MarkAt line index ∧ ∀ earlier < index, ¬MarkAt line earlier

instance (line : Text) (index : Nat) : Decidable (BeginsAt line index) := by
  unfold BeginsAt
  infer_instance

def Uncommented (line : Text) : Prop :=
  ∀ index, ¬MarkAt line index

/-- The same for a text that a scan enters, inside quotes or outside. -/
def MarkFrom (quoted : Bool) (text : Text) (index : Nat) : Prop :=
  text[index]? = some ';' ∧ (quoted.toNat + (text.take index).count quoteMark) % 2 = 0

theorem markFrom_false {line : Text} {index : Nat} :
    MarkFrom false line index ↔ MarkAt line index := by
  simp [MarkFrom, MarkAt]

theorem markFrom_zero {quoted : Bool} {head : Char} {tail : Text} :
    MarkFrom quoted (head :: tail) 0 ↔ quoted = false ∧ head = ';' := by
  cases quoted <;> simp [MarkFrom]

theorem markFrom_quote {quoted : Bool} {tail : Text} {index : Nat} :
    MarkFrom quoted (quoteMark :: tail) (index + 1) ↔ MarkFrom (!quoted) tail index := by
  unfold MarkFrom
  rw [List.getElem?_cons_succ, List.take_succ_cons, List.count_cons_self]
  cases quoted with
  | false =>
      simp only [Bool.toNat_false, Bool.not_false, Bool.toNat_true]
      rw [Nat.zero_add, Nat.add_comm 1]
  | true =>
      simp only [Bool.toNat_true, Bool.not_true, Bool.toNat_false]
      rw [show 1 + (List.count quoteMark (tail.take index) + 1) =
        0 + List.count quoteMark (tail.take index) + 2 by omega, Nat.add_mod_right]

theorem markFrom_plain {quoted : Bool} {head : Char} (plain : head ≠ quoteMark) {tail : Text}
    {index : Nat} :
    MarkFrom quoted (head :: tail) (index + 1) ↔ MarkFrom quoted tail index := by
  unfold MarkFrom
  rw [List.getElem?_cons_succ, List.take_succ_cons, List.count_cons_of_ne plain]

/-! ### The code of a line -/

theorem not_markFrom_untilStop (quoted : Bool) (text : Text) (index : Nat) :
    ¬MarkFrom quoted (Quoted.untilStop isMark quoted text) index := by
  induction text generalizing quoted index with
  | nil => simp [Quoted.untilStop, MarkFrom]
  | cons head tail inductionHypothesis =>
      unfold Quoted.untilStop
      split
      · rename_i atQuote
        rw [atQuote]
        cases index with
        | zero =>
            rw [markFrom_zero]
            rintro ⟨_, isMark⟩
            exact absurd isMark (by decide)
        | succ index =>
            rw [markFrom_quote]
            exact inductionHypothesis (!quoted) index
      · rename_i plain
        split
        · simp [MarkFrom]
        · rename_i goesOn
          cases index with
          | zero =>
              rw [markFrom_zero]
              rintro ⟨outside, isMark⟩
              exact goesOn (by simp [outside, isMark, Comment.isMark])
          | succ index =>
              rw [markFrom_plain plain]
              exact inductionHypothesis quoted index

/-- The code of a line has no comment. -/
theorem uncommented_code (line : Text) : Uncommented (code line) := fun index isMark =>
  not_markFrom_untilStop false line index (markFrom_false.mpr isMark)

/-- A scan passes a text without semicolons outside quotes, and each quote on the way turns it
inside or out. -/
theorem untilStop_unmarked_append {quoted : Bool} {before : Text}
    (free : ∀ index, ¬MarkFrom quoted before index) (rest : Text) :
    Quoted.untilStop isMark quoted (before ++ rest) =
      before ++
        Quoted.untilStop isMark (quoted ^^ decide (before.count quoteMark % 2 = 1)) rest := by
  apply Quoted.untilStop_append_of_inside
  intro index c isC stops
  have semicolon : c = ';' := by simpa [isMark] using stops
  rw [semicolon] at isC
  have odd : ¬(quoted.toNat + (before.take index).count quoteMark) % 2 = 0 := fun even =>
    free index ⟨isC, even⟩
  omega

/-- A line without a comment is all code. -/
theorem code_of_uncommented {line : Text} (free : Uncommented line) : code line = line := by
  have passed := untilStop_unmarked_append
    (fun index isMark => free index (markFrom_false.mp isMark)) []
  simpa [code, Quoted.untilStop] using passed

theorem code_append_mark {before : Text} (free : Uncommented before)
    (closed : before.count quoteMark % 2 = 0) (comment : Text) :
    code (before ++ ';' :: comment) = before := by
  have outside : (false ^^ decide (before.count quoteMark % 2 = 1)) = false := by simp [closed]
  have stops : Quoted.untilStop isMark false (';' :: comment) = [] := rfl
  rw [code, untilStop_unmarked_append fun index isMark => free index (markFrom_false.mp isMark),
    outside, stops, List.append_nil]

/-! ### Lines that are comments -/

/-- A line is a comment as a whole if its first visible character is a semicolon. -/
theorem fillsLine_eq (line : Text) :
    fillsLine line = (line.dropWhile isWhiteSpace).head?.any isMark := by
  have started : Text.trim line = Text.trimEnd (line.dropWhile isWhiteSpace) := rfl
  unfold fillsLine
  rw [started]
  cases isRest : line.dropWhile isWhiteSpace with
  | nil => rfl
  | cons first rest =>
      have visible : isWhiteSpace first = false := by
        have checked := List.head?_dropWhile_not isWhiteSpace line
        rw [isRest] at checked
        simpa using checked
      have whole : Text.trimStart (first :: rest) = first :: rest :=
        List.dropWhile_cons_of_neg (by simp [visible])
      have sameHead := Text.head?_trim visible rest
      rw [Text.trim, whole] at sameHead
      rw [sameHead, List.head?_cons]

/-- The semicolon of such a line stands outside quotes, as only white space is in front of
it. -/
theorem markAt_of_fillsLine {line : Text} (fills : fillsLine line = true) :
    MarkAt line (line.takeWhile isWhiteSpace).length := by
  have whole : line.takeWhile isWhiteSpace ++ line.dropWhile isWhiteSpace = line :=
    List.takeWhile_append_dropWhile
  have unquoted : quoteMark ∉ line.takeWhile isWhiteSpace := fun member =>
    absurd (List.all_eq_true.mp List.all_takeWhile _ member) (by decide)
  rw [fillsLine_eq] at fills
  cases isRest : line.dropWhile isWhiteSpace with
  | nil => simp [isRest] at fills
  | cons first rest =>
      have isSemicolon : first = ';' := by simpa [isRest, isMark] using fills
      rw [isRest, isSemicolon] at whole
      generalize line.takeWhile isWhiteSpace = blanks at whole unquoted ⊢
      rw [MarkAt, ← whole]
      refine ⟨by simp, ?_⟩
      rw [List.take_left, List.count_eq_zero_of_not_mem unquoted]

theorem fillsLine_of_uncommented {line : Text} (free : Uncommented line) :
    fillsLine line = false := by
  rw [← Bool.not_eq_true]
  intro fills
  exact free _ (markAt_of_fillsLine fills)

/-- Whether a line with a semicolon is a comment as a whole is decided in front of the
semicolon. -/
theorem fillsLine_append_mark {before : Text} (free : Uncommented before) (comment : Text) :
    fillsLine (before ++ ';' :: comment) = (before.dropWhile isWhiteSpace).isEmpty := by
  have notFilled := fillsLine_of_uncommented free
  rw [fillsLine_eq] at notFilled ⊢
  rw [List.dropWhile_append]
  cases isRest : before.dropWhile isWhiteSpace with
  | nil => rfl
  | cons first rest =>
      rw [isRest] at notFilled
      exact notFilled

/-! ### Replaced comments -/

/-- What is left of a line. -/
def kept (line : Text) : Text :=
  if fillsLine line then [] else code line ++ ['\n']

theorem strip_eq_flatMap_kept (source : Text) :
    strip source = (source.splitOn '\n').flatMap kept := by
  unfold strip
  generalize source.splitOn '\n' = lines
  induction lines with
  | nil => rfl
  | cons head tail inductionHypothesis =>
      rw [List.filter_cons, List.flatMap_cons, kept, ← inductionHypothesis]
      cases fillsLine head <;> simp

/-- The text in front of a comment has no comment and closes its quotations. -/
theorem BeginsAt.front {line : Text} {index : Nat} (begins : BeginsAt line index) :
    Uncommented (line.take index) ∧ (line.take index).count quoteMark % 2 = 0 ∧
      line.take (index + 1) = line.take index ++ [';'] := by
  obtain ⟨⟨isMark, outside⟩, first⟩ := begins
  refine ⟨?_, outside, ?_⟩
  · rintro earlier ⟨isEarlier, outsideEarlier⟩
    have below : earlier < index := by
      by_contra notBelow
      rw [List.getElem?_take_eq_none (by omega)] at isEarlier
      cases isEarlier
    rw [List.getElem?_take_of_lt below] at isEarlier
    rw [List.take_take, Nat.min_eq_left (Nat.le_of_lt below)] at outsideEarlier
    exact first earlier below ⟨isEarlier, outsideEarlier⟩
  · rw [List.take_add_one, isMark]
    rfl

/-- What is left of a line does not depend on its comment. -/
theorem kept_replaced {line : Text} {index : Nat} (begins : BeginsAt line index)
    (comment : Text) : kept (line.take (index + 1) ++ comment) = kept line := by
  obtain ⟨free, closed, isCut⟩ := begins.front
  have anyComment (text : Text) : kept (line.take index ++ ';' :: text) =
      if ((line.take index).dropWhile isWhiteSpace).isEmpty then []
      else line.take index ++ ['\n'] := by
    rw [kept, fillsLine_append_mark free, code_append_mark free closed]
  have whole : line.take index ++ ';' :: line.drop (index + 1) = line := by
    rw [← List.singleton_append, ← List.append_assoc, ← isCut, List.take_append_drop]
  calc
    kept (line.take (index + 1) ++ comment) = kept (line.take index ++ ';' :: comment) := by
      rw [isCut, List.append_assoc, List.singleton_append]
    _ = kept (line.take index ++ ';' :: line.drop (index + 1)) := by
      rw [anyComment, anyComment]
    _ = kept line := by rw [whole]

/-! ### Lines of a text -/

theorem lineEnd_not_mem_of_mem_splitOn {text line : Text} (isLine : line ∈ text.splitOn '\n') :
    '\n' ∉ line := by
  induction text generalizing line with
  | nil =>
      rw [List.mem_singleton.mp isLine]
      exact List.not_mem_nil
  | cons head tail inductionHypothesis =>
      rw [List.splitOn] at isLine inductionHypothesis
      rw [List.splitOnP_cons_eq_if_modifyHead] at isLine
      split at isLine
      · rcases List.mem_cons.mp isLine with isEmpty | inTail
        · simp [isEmpty]
        · exact inductionHypothesis inTail
      · rename_i notEnd
        obtain ⟨first, rest, isSplit⟩ :=
          List.exists_cons_of_ne_nil (List.splitOnP_ne_nil (fun c => c == '\n') tail)
        rw [isSplit] at isLine inductionHypothesis
        rw [List.modifyHead_cons, List.mem_cons] at isLine
        rcases isLine with isFirst | inRest
        · have unbroken : '\n' ∉ first := inductionHypothesis (by simp)
          have different : '\n' ≠ head := fun isEnd => notEnd (beq_iff_eq.mpr isEnd.symm)
          simp [isFirst, unbroken, different]
        · exact inductionHypothesis (by simp [inRest])

theorem splitOn_flatMap_lineEnd {lines : List Text} (unbroken : ∀ line ∈ lines, '\n' ∉ line) :
    (lines.flatMap fun line => line ++ ['\n']).splitOn '\n' = lines ++ [[]] := by
  induction lines with
  | nil => rfl
  | cons head tail inductionHypothesis =>
      have noEnd : ∀ c ∈ head, (c == '\n') = false := by
        intro c member
        have unbrokenHead := unbroken head (by simp)
        simpa using fun isEnd : c = '\n' => unbrokenHead (isEnd ▸ member)
      have later := inductionHypothesis fun line member => unbroken line (by simp [member])
      rw [List.flatMap_cons, List.append_assoc, List.singleton_append]
      unfold List.splitOn at later ⊢
      rw [List.splitOnP_append_cons_of_forall_mem noEnd '\n' (by simp), later, List.cons_append]

/-- The lines of what is left of a source, each of them the code of a line. -/
theorem splitOn_strip (source : Text) :
    (strip source).splitOn '\n' =
      ((source.splitOn '\n').filter fun line => !fillsLine line).map code ++ [[]] := by
  have joined : strip source =
      (((source.splitOn '\n').filter fun line => !fillsLine line).map code).flatMap
        fun line => line ++ ['\n'] := by
    rw [List.flatMap_map]
    rfl
  rw [joined]
  apply splitOn_flatMap_lineEnd
  intro text member isEnd
  obtain ⟨line, isKept, rfl⟩ := List.mem_map.mp member
  have isLine := (List.mem_filter.mp isKept).1
  exact lineEnd_not_mem_of_mem_splitOn isLine
    ((sublist_untilStop isMark false line).subset isEnd)

theorem uncommented_of_mem_strip {source line : Text}
    (isLine : line ∈ (strip source).splitOn '\n') : Uncommented line := by
  rw [splitOn_strip, List.mem_append] at isLine
  rcases isLine with isCode | isLast
  · obtain ⟨whole, _, rfl⟩ := List.mem_map.mp isCode
    exact uncommented_code whole
  · rw [List.mem_singleton.mp isLast]
    rintro index ⟨isMark, _⟩
    cases isMark

/-- Text without comments loses nothing. -/
theorem strip_of_uncommented {text : Text}
    (free : ∀ line ∈ text.splitOn '\n', Uncommented line) : strip text = text ++ ['\n'] := by
  have whole : ∀ line ∈ text.splitOn '\n', kept line = line ++ ['\n'] := by
    intro line isLine
    rw [kept, fillsLine_of_uncommented (free line isLine), code_of_uncommented (free line isLine)]
    rfl
  rw [strip_eq_flatMap_kept, ← flatMap_splitOn text]
  exact List.flatMap_congr whole

end Asm8080.Comment

namespace Asm8080

/-- Comments have no influence. Any text can stand behind the first semicolon outside quotes of
a line without a change to what is left of the source; what is left has no comments; and so it
stays as it is, up to one more line end, when comments are taken away from it again. -/
theorem comments_have_no_influence (source : Text) :
    (∀ number line index comment, (source.splitOn '\n')[number]? = some line →
      Comment.BeginsAt line index → '\n' ∉ comment →
        Comment.strip (['\n'].intercalate
            ((source.splitOn '\n').set number (line.take (index + 1) ++ comment))) =
          Comment.strip source) ∧
      (∀ line ∈ (Comment.strip source).splitOn '\n', ∀ index, ¬Comment.MarkAt line index) ∧
      Comment.strip (Comment.strip source) = Comment.strip source ++ ['\n'] := by
  refine ⟨?_, fun line isLine => Comment.uncommented_of_mem_strip isLine,
    Comment.strip_of_uncommented fun line isLine => Comment.uncommented_of_mem_strip isLine⟩
  intro number line index comment isLine begins unbroken
  have unbrokenLines : ∀ text ∈ (source.splitOn '\n').set number
      (line.take (index + 1) ++ comment), '\n' ∉ text := by
    intro text member
    rcases List.mem_or_eq_of_mem_set member with isOld | isNew
    · exact Comment.lineEnd_not_mem_of_mem_splitOn isOld
    · have unbrokenLine :=
        Comment.lineEnd_not_mem_of_mem_splitOn (List.mem_of_getElem? isLine)
      rw [isNew, List.mem_append]
      rintro (inFront | inComment)
      · exact unbrokenLine (List.mem_of_mem_take inFront)
      · exact unbroken inComment
  have nonempty : (source.splitOn '\n').set number (line.take (index + 1) ++ comment) ≠ [] := by
    simp [List.splitOn_ne_nil]
  have sameKept : ((source.splitOn '\n').set number (line.take (index + 1) ++ comment)).map
      Comment.kept = (source.splitOn '\n').map Comment.kept := by
    obtain ⟨inside, isAt⟩ := List.getElem?_eq_some_iff.mp isLine
    rw [List.map_set, Comment.kept_replaced begins, ← isAt,
      ← List.getElem_map Comment.kept (h := by simpa using inside), List.set_getElem_self]
  rw [Comment.strip_eq_flatMap_kept, Comment.strip_eq_flatMap_kept,
    List.splitOn_intercalate _ unbrokenLines nonempty, List.flatMap_def, sameKept,
    List.flatMap_def]

private def remarked : Text :=
  " db ';', 'x' ; it's a list\n\t;\nhlt ; 'done;".toList

private def reworded : Text :=
  " db ';', 'x' ;; 'other' remark '\n\t;\nhlt ; 'done;".toList

/-- The first line has a quoted semicolon before its comment and quotes behind it. -/
theorem comments_have_no_influence_remarked :
    ((remarked.splitOn '\n')[0]? = some " db ';', 'x' ; it's a list".toList ∧
      Comment.BeginsAt " db ';', 'x' ; it's a list".toList 13 ∧
      '\n' ∉ "; 'other' remark '".toList) ∧
      Comment.strip reworded = Comment.strip remarked ∧
      Comment.strip remarked = " db ';', 'x' \nhlt \n".toList := by
  have isLine : (remarked.splitOn '\n')[0]? = some " db ';', 'x' ; it's a list".toList := by
    decide
  have begins : Comment.BeginsAt " db ';', 'x' ; it's a list".toList 13 := by decide
  have unbroken : '\n' ∉ "; 'other' remark '".toList := by decide
  have isReworded : ['\n'].intercalate ((remarked.splitOn '\n').set 0
      (" db ';', 'x' ; it's a list".toList.take (13 + 1) ++ "; 'other' remark '".toList)) =
      reworded := by decide
  refine ⟨⟨isLine, begins, unbroken⟩, ?_, by decide⟩
  rw [← isReworded]
  exact (comments_have_no_influence remarked).1 0 _ 13 _ isLine begins unbroken

end Asm8080
