import Asm8080.Proofs.ByteAccounting
import Asm8080.Proofs.DataItems

/-!
Contract: the data of a byte list reaches the image as it is written.

Owns:
- the tokens of a data line, whatever its strings hold;
- the values of the list, one for each item;
- `assembleSource_line`, which puts the text and the bytes of items together.

Does not own: labels among the values, and lists of words.
-/

namespace Asm8080

/-! ### The tokens of a data line -/

/-- No mnemonic starts with the keyword of byte lists. -/
theorem Mnemonic.match?_dataKeyword (rest : Text) :
    match? (Directive.db.keyword ++ rest) = none := by
  have table : ∀ mnemonic ∈ all,
      2 ≤ mnemonic.length ∧ mnemonic.take 2 ≠ Directive.db.keyword := by decide +kernel
  apply match?_eq_none
  intro mnemonic member
  apply Bool.eq_false_iff.mpr
  intro stands
  obtain ⟨behind, isText, _⟩ := standsAt_iff.mp stands
  obtain ⟨long, different⟩ := table mnemonic member
  apply different
  rw [← List.take_append_of_le_length long, ← isText]
  rfl

theorem Mnemonic.substitute_of_inside {head : Char} {tail : Text}
    (notUpper : head.isUpper = false) (inside : ∀ c ∈ head :: tail, isBoundary c = false) :
    substitute (head :: tail) = head :: tail := by
  have unmatched : matchIn? candidates (head :: tail) = none := match?_of_not_isUpper notUpper tail
  have later := substituteFrom_inside candidates tail [] fun c member => inside c (by simp [member])
  simp only [List.append_nil, substituteFrom] at later
  simp [substitute, substituteFrom, unmatched, inside head (by simp), later]

theorem Token.split_of_unstopped {text : Text} (nonempty : text ≠ [])
    (unstopped : Quoted.untilStop isBreak false text = text) : split text = [text] := by
  have whole := Quoted.splitFrom_of_unstopped unstopped []
  unfold split Quoted.split
  rw [whole]
  simpa using nonempty

/-- One line with visible text at its start, no part of which is a comment. -/
theorem Comment.strip_line {first : Char} {rest : Text} (visible : isWhiteSpace first = false)
    (notMark : isMark first = false) (oneLine : '\n' ∉ first :: rest)
    (whole : code (first :: rest) = first :: rest) :
    strip (first :: rest) = first :: rest ++ ['\n'] := by
  have alone : (first :: rest).splitOn '\n' = [first :: rest] :=
    List.splitOnP_eq_singleton fun c member => by
      simpa using fun isEnd : c = '\n' => oneLine (isEnd ▸ member)
  have notFilled : fillsLine (first :: rest) = false := by
    rw [fillsLine, Text.head?_trim visible]
    exact notMark
  simp [strip, alone, notFilled, whole]

namespace DataItem

theorem isWord_keyword : IsWord Directive.db.keyword :=
  ⟨by decide, List.all_eq_true.mp (by decide)⟩

theorem starts_maskedFrom (separator : Text) (index : Nat) (item : DataItem)
    (items : List DataItem) :
    ∃ first rest, maskedFrom separator index (item :: items) = first :: rest ∧
      first.isUpper = false := by
  have own : ∃ first rest, item.masked index = first :: rest ∧ first.isUpper = false := by
    cases item with
    | string characters nonempty allowed =>
        rw [masked_string]
        exact ⟨Quotation.openMark, _, rfl, by decide⟩
    | byte value digits spelled =>
        rw [masked_byte]
        exact ⟨'0', _, rfl, by decide⟩
  obtain ⟨first, rest, isMasked, notUpper⟩ := own
  cases items with
  | nil => exact ⟨first, rest, isMasked, notUpper⟩
  | cons next others => exact ⟨first, _, by rw [maskedFrom, isMasked]; rfl, notUpper⟩

theorem substitute_maskedLine {items : List DataItem} (nonempty : items ≠ []) (index : Nat) :
    Mnemonic.substitute (heading ++ maskedFrom [','] index items) =
      heading ++ maskedFrom [','] index items := by
  obtain ⟨item, others, rfl⟩ := List.exists_cons_of_ne_nil nonempty
  have inside := inert_maskedFrom index (item :: others)
  obtain ⟨first, rest, isMasked, notUpper⟩ := starts_maskedFrom [','] index item others
  rw [isMasked] at inside ⊢
  rw [heading, List.append_assoc, List.singleton_append,
    Mnemonic.substitute_word isWord_keyword (Mnemonic.match?_dataKeyword _),
    Mnemonic.substituteFrom_boundary false _ (by decide) (by decide),
    Mnemonic.substitute_of_inside notUpper inside]

/-- Preparing a masked data line puts its items in capitals and tightens its commas. -/
theorem prepare_maskedLine {items : List DataItem} (nonempty : items ≠ []) (index : Nat) :
    prepare (heading ++ maskedFrom [',', ' '] index items) =
      heading ++ maskedFrom [','] index (items.map folded) := by
  have folded : Layout.fold (heading ++ maskedFrom [',', ' '] index items) =
      heading ++ Layout.fold (maskedFrom [',', ' '] index items) := by
    obtain ⟨item, others, rfl⟩ := List.exists_cons_of_ne_nil nonempty
    rw [heading, List.append_assoc, List.append_assoc, Layout.fold,
      Layout.foldFrom_word isWord_keyword, List.singleton_append, List.singleton_append,
      ← foldFrom_maskedFrom]
    rfl
  unfold prepare
  rw [folded, Layout.tightenCommas_of_noComma (by decide), tightenCommas_maskedFrom,
    substitute_maskedLine (by simpa using nonempty)]
  -- The space behind the keyword is the only boundary, so no tab and no colon is left.
  apply Token.markLabels_of_free
  intro c member
  have inert : Mnemonic.isBoundary c = false ∨ c = ' ' := by
    rcases List.mem_append.mp member with inHeading | inside
    · rcases List.mem_append.mp inHeading with inKeyword | isSpace
      · exact Or.inl (isWord_keyword.unremarkable c inKeyword).inside
      · exact Or.inr (List.mem_singleton.mp isSpace)
    · exact Or.inl (inert_maskedFrom index (items.map DataItem.folded) c inside)
  constructor
  · intro isTab
    rw [isTab] at inert
    exact absurd inert (by decide)
  · intro isColon
    rw [isColon] at inert
    exact absurd inert (by decide)

theorem isClosed_heading : Quoted.IsClosed heading :=
  rfl

theorem protect_statement (items : List DataItem) :
    (Quotation.protect (statement items)).text = heading ++ maskedFrom [',', ' '] 0 items := by
  rw [statement, Token.protect_append isClosed_heading,
    Quotation.protect_of_unquoted (by decide), Quotation.quotations_of_unquoted (by decide),
    List.length_nil, maskFrom_joined (by decide)]

theorem quotations_statement (items : List DataItem) :
    Quoted.quotations (statement items) =
      items.flatMap fun item => Quoted.quotations item.text := by
  rw [statement, Quoted.quotations_append isClosed_heading,
    Quotation.quotations_of_unquoted (by decide), List.nil_append, quotations_joined (by decide)]

/-- The token behind the keyword: the items in capitals, with commas between them. -/
def listToken (items : List DataItem) : Token :=
  joined [','] (items.map folded)

theorem head?_listToken {items : List DataItem} (nonempty : items ≠ []) :
    (listToken items).head? = some quoteMark ∨ (listToken items).head? = some '0' :=
  head?_joined [','] (by simpa using nonempty)

theorem split_listToken {items : List DataItem} (nonempty : items ≠ []) :
    Token.split (heading ++ listToken items) = [Directive.db.keyword, listToken items] := by
  have goesOn (c : Char) (word : isWordCharacter c = true) : Token.isBreak c = false :=
    (unremarkable_of_isWordCharacter word).unbroken.2
  have filled : listToken items ≠ [] := by
    intro isEmpty
    simpa [isEmpty] using head?_listToken nonempty
  have whole : Token.split (listToken items) = [listToken items] :=
    Token.split_of_unstopped filled
      (untilStop_joined _ goesOn (List.forall_mem_singleton.mpr (by decide)))
  rw [heading, List.append_assoc, List.singleton_append,
    Token.split_append (fun c member => (isWord_keyword.unremarkable c member).unbroken)
      (by decide) isWord_keyword.1, whole]

theorem ofCode_statement {items : List DataItem} (nonempty : items ≠ [])
    (fits : (Quoted.quotations (statement items)).length ≤ Numeral.wordCeiling) :
    Token.ofCode (statement items) = [Directive.db.keyword, listToken items] := by
  have sameQuotations : Quoted.quotations (statement items) =
      (items.map folded).flatMap fun item => Quoted.quotations item.text := by
    rw [quotations_statement, List.flatMap_map]
    exact List.flatMap_congr fun item _ => item.quotations_folded.symm
  rw [Token.ofCode, Token.ofMasked, protect_statement, prepare_maskedLine nonempty,
    Quotation.restore_append _ (by decide), restore_maskedFrom fits 0 _ sameQuotations]
  exact split_listToken nonempty

theorem mem_statement {items : List DataItem} {c : Char} (member : c ∈ statement items) :
    c.toNat < 0x80 ∧ c ≠ '\n' := by
  rcases List.mem_append.mp member with inHeading | inList
  · have all : (heading.all fun c => decide (c.toNat < 0x80) && c != '\n') = true := by decide
    simpa using List.all_eq_true.mp all c inHeading
  · rcases mem_joined inList with inSeparator | ofItem
    · rcases List.mem_pair.mp inSeparator with isComma | isSpace
      · rw [isComma]
        decide
      · rw [isSpace]
        decide
    · exact ofItem

theorem strip_statement (items : List DataItem) :
    Comment.strip (statement items) = statement items ++ ['\n'] := by
  have goesOn (c : Char) (word : isWordCharacter c = true) : Comment.isMark c = false :=
    forall_ascii (fun c => isWordCharacter c = true → Comment.isMark c = false) (by decide)
      (toNat_of_isWordCharacter word) word
  have free {text : Text}
      (uncommented : (text.all fun c => c != quoteMark && !Comment.isMark c) = true) :
      ∀ c ∈ text, c ≠ quoteMark ∧ Comment.isMark c = false := by
    simpa using uncommented
  have whole : Comment.code (statement items) = statement items := by
    rw [Comment.code, statement, Comment.untilStop_append (free (by decide)),
      untilStop_joined _ goesOn (free (by decide))]
  exact Comment.strip_line (by decide) (by decide) (fun member => (mem_statement member).2 rfl)
    whole

theorem isClosed_statement (items : List DataItem) : Quoted.IsClosed (statement items) :=
  (Quoted.isClosed_append isClosed_heading).mpr (isClosed_joined (by decide) items)

/-- Whatever its strings hold, a data line has two tokens. -/
theorem tokenize_line {items : List DataItem} (nonempty : items ≠ [])
    (fits : (Quoted.quotations (statement items)).length ≤ Numeral.wordCeiling) :
    tokenize (line items) = [Directive.db.keyword, listToken items] := by
  have unmarked : Quotation.openMark ∉ statement items := fun member =>
    absurd (mem_statement member).1 (by decide)
  -- The text behind the line end counts as one more line, which is empty.
  have noMore : Token.ofCode ['\n'] = [] :=
    @Token.ofCode_lineEnd_of_unquoted [] (by simp) (by simp) []
  have stripped : Comment.strip (line items) = statement items ++ '\n' :: ['\n'] := by
    rw [line, Comment.strip_lineEnd, strip_statement, List.append_assoc]
    rfl
  have fitsBoth : (Quoted.quotations (statement items)).length +
      (Quoted.quotations ['\n']).length ≤ Numeral.wordCeiling := fits
  rw [Token.tokenize_eq_ofCode, stripped,
    Token.ofCode_lineEnd (isClosed_statement items) unmarked (by decide) fitsBoth,
    ofCode_statement nonempty fits, noMore, List.append_nil]

/-! ### The values of a data list -/

theorem trim_text (item : DataItem) : Text.trim item.text = item.text := by
  have trimmed {first last : Char} (opens : isWhiteSpace first = false)
      (closes : isWhiteSpace last = false) (middle : Text) :
      Text.trim (first :: middle ++ [last]) = first :: middle ++ [last] := by
    simp [Text.trim, Text.trimStart, Text.trimEnd, opens, closes]
  cases item with
  | string characters _ _ => exact trimmed (by decide) (by decide) characters
  | byte value digits _ => exact trimmed (by decide) (by decide) digits

theorem split_joined {items : List DataItem} (nonempty : items ≠ []) :
    Quoted.split (fun character => character == ',') (joined [','] items) = items.map text := by
  have goesOn (c : Char) (word : isWordCharacter c = true) : (c == ',') = false := by
    simpa using (unremarkable_of_isWordCharacter word).notSeparator.2
  apply Quoted.split_intercalate (by simp) (by decide) (by simpa using nonempty)
  · intro piece member
    obtain ⟨item, _, rfl⟩ := List.mem_map.mp member
    exact item.isClosed_text
  · intro piece member
    obtain ⟨item, _, rfl⟩ := List.mem_map.mp member
    have unstopped := item.untilStop_text goesOn []
    rwa [Quoted.untilStop, List.append_nil] at unstopped

theorem values_joined {items : List DataItem} (nonempty : items ≠ []) :
    ValueList.values (joined [','] items) = items.map text := by
  have trimmed : (items.map text).map Text.trim = items.map text := by
    rw [List.map_map]
    exact List.map_congr_left fun item _ => item.trim_text
  rw [ValueList.values, split_joined nonempty, trimmed]
  apply List.filter_eq_self.mpr
  intro value member
  obtain ⟨item, _, isText⟩ := List.mem_map.mp member
  rw [← isText]
  cases item <;> rfl

/-- In capitals, an item is the value of its bytes. -/
theorem bytesOfValue?_folded (item : DataItem) :
    ∃ shown, ValueList.bytesOfValue? LabelTable.empty item.folded.text =
      some ⟨item.bytes, shown⟩ := by
  cases item with
  | string characters nonempty allowed =>
      have isBody : Quoted.body? (string characters nonempty allowed).text = some characters := by
        simp [Quoted.body?, text]
      have ascii : (characters.all fun c => decide (c.toNat < 0x80)) = true := by
        simpa using fun c member => (isDataCharacter_iff.mp (allowed c member)).1
      refine ⟨(string characters nonempty allowed).text, ?_⟩
      rw [folded, ValueList.bytesOfValue?, isBody]
      dsimp only
      rw [if_pos ascii]
      rfl
  | byte value digits spelled =>
      have noBody : Quoted.body? (Argument.literal (number spelled)).token = none := by
        simp [Quoted.body?, Argument.token, Argument.text, HexNumber.text, quoteMark]
      have small : (number spelled).value < 0x100 := by
        rw [value_number]
        exact value.toNat_lt
      have isByte := HexNumber.byte_token small
      rw [value_number, UInt8.ofNat_toNat] at isByte
      refine ⟨Operand.showByte value, ?_⟩
      rw [text_folded_byte, ValueList.bytesOfValue?, noBody]
      dsimp only
      rw [Operand.byte, show LabelTable.empty.resolve? _ = none from rfl, isByte]
      rfl

theorem mapM_folded (items : List DataItem) :
    ∃ results, (items.map fun item => item.folded.text).mapM
        (ValueList.bytesOfValue? LabelTable.empty) = some results ∧
      results.map Resolved.value = items.map bytes := by
  induction items with
  | nil => exact ⟨[], rfl, rfl⟩
  | cons item items inductionHypothesis =>
      obtain ⟨shown, isBytes⟩ := item.bytesOfValue?_folded
      obtain ⟨results, areResults, sameBytes⟩ := inductionHypothesis
      refine ⟨⟨item.bytes, shown⟩ :: results, ?_, by simp [sameBytes]⟩
      simp [List.mapM_cons, isBytes, areResults]

theorem bytes?_listToken {items : List DataItem} (nonempty : items ≠ []) :
    ∃ shown, ValueList.bytes? LabelTable.empty (listToken items) =
      some ⟨items.flatMap bytes, shown⟩ := by
  obtain ⟨results, areResults, sameBytes⟩ := mapM_folded items
  have values : ValueList.values (listToken items) = items.map fun item => item.folded.text := by
    rw [listToken, values_joined (by simpa using nonempty), List.map_map]
    rfl
  have filled : (results.filter fun item => !item.value.isEmpty) = results := by
    apply List.filter_eq_self.mpr
    intro result member
    have inItems := sameBytes ▸ List.mem_map_of_mem (f := Resolved.value) member
    obtain ⟨item, _, isBytes⟩ := List.mem_map.mp inItems
    have hasBytes := item.bytes_ne_nil
    rw [isBytes] at hasBytes
    simpa using hasBytes
  have hasResults : results ≠ [] := by
    intro isEmpty
    rw [isEmpty] at sameBytes
    exact nonempty (List.map_eq_nil_iff.mp sameBytes.symm)
  refine ⟨ValueList.join (results.map Resolved.shown), ?_⟩
  rw [ValueList.bytes?, values, areResults]
  dsimp only
  rw [filled, if_neg (by simpa using hasResults), List.flatMap_def, sameBytes, ← List.flatMap_def]

/-! ### Assembling a data line -/

/-- The keyword takes the list as its operand, since no list spells a keyword. -/
theorem read_keyword {items : List DataItem} (nonempty : items ≠ []) :
    Statement.read Directive.db.keyword [listToken items] = .bytes (some (listToken items)) := by
  have notEquate : Directive.ofToken? (listToken items) ≠ some .equ := by
    intro isEquate
    have isKeyword := Directive.keyword_of_ofToken? isEquate
    have starts := head?_listToken nonempty
    rw [← isKeyword] at starts
    exact absurd starts (by decide)
  have noLabel : Statement.definesLabel Directive.db.keyword [listToken items] = false := by
    have noColon : (Directive.db.keyword.getLast? == some ':') = false := by decide
    simp [Statement.definesLabel, Statement.equateFollows, noColon, notEquate]
  simp [Statement.read, noLabel, Directive.ofToken?_keyword]

/-- A data line has one record, which holds the bytes of the items. -/
theorem records_line {items : List DataItem} (nonempty : items ≠ [])
    (bounded : (items.flatMap bytes).length ≤ Record.addressLimit) :
    ∃ entry, Record.ofTokens [Directive.db.keyword, listToken items] =
      [⟨⟨0, .bytes (some (listToken items))⟩, 0, (items.flatMap bytes).length,
        ⟨entry, items.flatMap bytes, none⟩, false⟩] := by
  obtain ⟨shown, isData⟩ := bytes?_listToken nonempty
  have statements : Located.list [Directive.db.keyword, listToken items] =
      [⟨0, .bytes (some (listToken items))⟩] := by
    simp [Located.list, Located.listFrom, read_keyword nonempty, Statement.width,
      Statement.operandWidth]
  have noSymbols : Symbols.ofTokens [Directive.db.keyword, listToken items] = Symbols.empty := by
    rw [Symbols.ofTokens, statements]
    rfl
  have emitted : Emission.ofBytes LabelTable.empty (some (listToken items)) =
      ⟨Listing.directive "db".toList shown, items.flatMap bytes, none⟩ := by
    rw [Emission.ofBytes, Option.bind_some, isData]
  have next : Counter.after LabelTable.empty 0 ⟨0, .bytes (some (listToken items))⟩ =
      (items.flatMap bytes).length := by
    have size := Emission.length_ofBytes LabelTable.empty (some (listToken items))
    rw [emitted] at size
    show Counter.advance 0 (Counter.listSize ValueList.bytesSize (some (listToken items))) = _
    rw [← size, Counter.advance, Counter.ceiling]
    unfold Record.addressLimit at bounded
    dsimp only
    omega
  have inside : (!false && decide (Record.addressLimit < (items.flatMap bytes).length)) = false := by
    rw [decide_eq_false (by omega)]
    rfl
  refine ⟨Listing.directive "db".toList shown, ?_⟩
  rw [Record.ofTokens, statements, noSymbols, Record.list, Record.list, Symbols.empty, next,
    inside]
  simp only [Emission.ofStatement, emitted]

theorem length_quotations_le (items : List DataItem) :
    (Quoted.quotations (statement items)).length ≤ (items.flatMap bytes).length := by
  rw [quotations_statement]
  induction items with
  | nil => exact Nat.le_refl 0
  | cons item items inductionHypothesis =>
      have own : (Quoted.quotations item.text).length ≤ item.bytes.length := by
        cases item with
        | string characters nonempty allowed =>
            have one := Quoted.quotations_closed (unquoted_of_allowed allowed)
            have positive := List.length_pos_iff.mpr nonempty
            show (Quoted.quotations (Quoted.Span.closed characters).text).length ≤ _
            rw [one, bytes, List.length_map, List.length_singleton]
            exact positive
        | byte value digits spelled =>
            rw [Quotation.quotations_of_unquoted (unquoted_text_byte spelled)]
            exact Nat.zero_le _
      rw [List.flatMap_cons, List.flatMap_cons, List.length_append, List.length_append]
      omega

/-- The bytes of a data line are the characters of its strings and the values of its bytes,
in order, whatever the strings hold. -/
theorem assembleSource_line {items : List DataItem} (nonempty : items ≠ [])
    (bounded : (items.flatMap bytes).length ≤ Record.addressLimit) :
    (assembleSource (line items)).success = true ∧
      (assembleSource (line items)).bytes = items.flatMap bytes := by
  have fits : (Quoted.quotations (statement items)).length ≤ Numeral.wordCeiling := by
    have few := length_quotations_le items
    unfold Record.addressLimit at bounded
    unfold Numeral.wordCeiling
    omega
  obtain ⟨entry, records⟩ := records_line nonempty bounded
  unfold assembleSource
  rw [tokenize_line nonempty fits]
  constructor
  · rw [Assembly.success_iff, records]
    simp
  · rw [Assembly.bytes, ObjectCode.bytes, cells_assemble, records]
    simp [Record.cells, Cell.map_byte_place]

private def greeting : List DataItem :=
  [.string "; It: Mov a,  b".toList (by decide) (List.all_eq_true.mp (by decide)),
    .byte 0x0D "0d".toList (by decide),
    .string "\t,".toList (by decide) (List.all_eq_true.mp (by decide)),
    .byte 0xFF "fF".toList (by decide)]

/-- Strings with a comment's semicolon, a colon, commas, a mnemonic and blanks at either end. -/
theorem assembleSource_line_greeting :
    (greeting ≠ [] ∧ (greeting.flatMap bytes).length ≤ Record.addressLimit) ∧
      line greeting = "DB '; It: Mov a,  b', 00dH, '\t,', 0fFH\n".toList ∧
      (assembleSource (line greeting)).success = true ∧
      (assembleSource (line greeting)).bytes =
        "; It: Mov a,  b".toList.map (fun c => UInt8.ofNat c.toNat) ++ [0x0D, 0x09, 0x2C, 0xFF] := by
  have nonempty : greeting ≠ [] := by decide
  have bounded : (greeting.flatMap bytes).length ≤ Record.addressLimit := by decide
  obtain ⟨succeeds, sameBytes⟩ := assembleSource_line nonempty bounded
  refine ⟨⟨nonempty, bounded⟩, by decide, succeeds, ?_⟩
  rw [sameBytes]
  decide

end DataItem

end Asm8080
