import Asm8080.Machine.Panel
import Asm8080.Proofs.ColumnMentions

/-!
Contract: the mark at the listing lines of the current address.

Owns:
- the mark as a replacement of the address column, line by line;
- the marked listing as the rows of the records, each with its own mark and with the marks that
  its entry gets;
- `highlight_marks_columns_iff`: just the address columns are marked, unless a statement
  mentions the column.

Does not own: the replacement of a pattern, and which statements mention the column.
-/

namespace Asm8080

/-! ### The mark -/

theorem Numeral.digit_inj {left right : Nat} (leftSmall : left < 16) (rightSmall : right < 16)
    (same : digit left = digit right) : left = right := by
  have weights : ∀ value < 16, digitWeight? (digit value) = some value := by decide
  have weight := weights left leftSmall
  rw [same, weights right rightSmall] at weight
  exact (Option.some.inj weight).symm

theorem Numeral.hexWord_inj {left right : UInt16} (same : hexWord left = hexWord right) :
    left = right := by
  have leftBound := left.toNat_lt
  have rightBound := right.toNat_lt
  simp only [hexWord, List.cons.injEq, and_true] at same
  obtain ⟨first, second, third, fourth⟩ := same
  have first' := digit_inj (by omega) (by omega) first
  have second' := digit_inj (by omega) (by omega) second
  have third' := digit_inj (by omega) (by omega) third
  have fourth' := digit_inj (by omega) (by omega) fourth
  apply UInt16.toNat_inj.mp
  omega

namespace Listing

/-- The address column at `pc` with an arrow in place of its space. -/
def arrow (pc : UInt16) : Text :=
  Numeral.hexWord pc ++ [':', '>']

/-- The address column of a row, with an arrow if it is the one at `pc`. -/
def markedAddress (pc : UInt16) (start : Nat) : Text :=
  if UInt16.ofNat start = pc then arrow pc else address start

variable {pc : UInt16}

theorem length_arrow : (arrow pc).length = (column pc).length :=
  rfl

theorem arrow_ne_column : arrow pc ≠ column pc := by
  intro same
  exact absurd (List.append_cancel_left same) (by decide)

end Listing

/-! ### Marking -/

theorem highlight_eq (text : Text) (pc : UInt16) :
    highlight text pc = Text.replaceAll (Listing.column pc) (Listing.arrow pc) text := by
  have isColumn : Listing.address pc.toNat = Listing.column pc := by
    rw [Listing.address_eq_column, UInt16.ofNat_toNat]
  rw [highlight, isColumn]
  rfl

theorem highlight_eq_self_iff (text : Text) (pc : UInt16) :
    highlight text pc = text ↔ ¬Listing.column pc <:+: text := by
  rw [highlight_eq]
  exact Text.replaceAll_eq_self_iff Listing.column_ne_nil Listing.length_arrow
    Listing.arrow_ne_column text

theorem length_highlight (text : Text) (pc : UInt16) :
    (highlight text pc).length = text.length := by
  rw [highlight_eq]
  exact Text.length_replaceAll Listing.column_ne_nil Listing.length_arrow text

theorem highlight_lineEnd (left right : Text) (pc : UInt16) :
    highlight (left ++ '\n' :: right) pc = highlight left pc ++ '\n' :: highlight right pc := by
  simp only [highlight_eq]
  exact Text.replaceAll_append_cons Listing.column_ne_nil
    (Listing.not_mem_column (by decide)) left right

/-- The address column of a row is marked just if it is the one at `pc`, and no mark reaches from
there into the entry. -/
theorem highlight_address (start : Nat) (entry : Text) (pc : UInt16) :
    highlight (Listing.address start ++ entry) pc =
      Listing.markedAddress pc start ++ highlight entry pc := by
  simp only [highlight_eq, Listing.markedAddress]
  split
  · rename_i atPc
    rw [Listing.address_eq_column, atPc, Text.replaceAll_append Listing.column_ne_nil]
  · rename_i elsewhere
    have notHere : ¬Listing.column pc <+: Listing.address start ++ entry := by
      rintro ⟨rest, isText⟩
      rw [Listing.address_eq_column] at isText
      have same : Listing.column pc = Listing.column (UInt16.ofNat start) :=
        List.append_inj_left isText rfl
      exact elsewhere (Numeral.hexWord_inj (List.append_cancel_right same)).symm
    have colon : Numeral.isUpperDigit ':' = false := by decide
    have space : Numeral.isUpperDigit ' ' = false := by decide
    obtain ⟨first, second, third, fourth, isAddress⟩ : ∃ first second third fourth,
        Listing.address start = [first, second, third, fourth, ':', ' '] := ⟨_, _, _, _, rfl⟩
    -- Behind the first digit the colon comes too early, and then there is no digit.
    rw [isAddress] at notHere ⊢
    simp only [List.cons_append, List.nil_append] at notHere ⊢
    rw [Text.replaceAll_cons notHere,
      Text.replaceAll_cons (Listing.not_column_prefix_of_noDigit 3 (by decide) rfl colon),
      Text.replaceAll_cons (Listing.not_column_prefix_of_noDigit 2 (by decide) rfl colon),
      Text.replaceAll_cons (Listing.not_column_prefix_of_noDigit 1 (by decide) rfl colon),
      Text.replaceAll_cons (Listing.not_column_prefix_of_noDigit 0 (by decide) rfl colon),
      Text.replaceAll_cons (Listing.not_column_prefix_of_noDigit 0 (by decide) rfl space)]

/-! ### Rows -/

namespace Record

/-- The row of a record with its address column marked, if that is the one at `pc`. -/
def marked (pc : UInt16) (record : Record) : Text :=
  Listing.markedAddress pc record.start ++ record.emission.entry

/-- The row of a record with every mark that it gets. -/
def highlighted (pc : UInt16) (record : Record) : Text :=
  Listing.markedAddress pc record.start ++ highlight record.emission.entry pc

/-- The record writes its row, which is ended as its statement has it. -/
structure IsPlain (record : Record) : Prop where
  text : record.text = Listing.address record.start ++ record.emission.entry
  ended : ∃ stem, record.emission.entry = stem ++ record.located.statement.lineEnd

variable {record : Record} {pc : UInt16}

theorem highlight_unended_row (plain : record.IsPlain) (rest : Text) :
    highlight (record.text ++ '\n' :: rest) pc =
      record.highlighted pc ++ '\n' :: highlight rest pc := by
  rw [plain.text, List.append_assoc, highlight_address, highlight_lineEnd, highlighted,
    List.append_assoc]

theorem highlight_ended_row (plain : record.IsPlain)
    (unfinished : record.located.statement ≠ .finish) (rest : Text) :
    highlight (record.text ++ rest) pc = record.highlighted pc ++ highlight rest pc := by
  obtain ⟨stem, isEntry⟩ := plain.ended
  rw [Statement.lineEnd_of_ne_finish unfinished] at isEntry
  have own : highlight record.emission.entry pc = highlight stem pc ++ ['\n'] := by
    rw [isEntry, highlight_lineEnd]
    rfl
  have both : highlight (record.emission.entry ++ rest) pc =
      highlight record.emission.entry pc ++ highlight rest pc := by
    rw [own, isEntry, List.append_assoc, List.append_assoc]
    exact highlight_lineEnd stem rest pc
  rw [plain.text, List.append_assoc, highlight_address, both, highlighted, List.append_assoc]

/-- The rows of a listing are marked one by one. -/
theorem highlight_rows {records : List Record} (plain : ∀ record ∈ records, record.IsPlain)
    (nothingBehind : ∀ before record later, records = before ++ record :: later →
      record.located.statement = .finish → later = [])
    {remark : Text} (unmarked : highlight remark pc = remark) :
    highlight (records.flatMap text ++ '\n' :: remark) pc =
      records.flatMap (highlighted pc) ++ '\n' :: remark := by
  induction records with
  | nil =>
      have alone := highlight_lineEnd [] remark pc
      rw [unmarked] at alone
      exact alone
  | cons head tail inductionHypothesis =>
      have later := inductionHypothesis
        (fun record member => plain record (List.mem_cons_of_mem head member))
        (fun before record rest isSplit => nothingBehind (head :: before) record rest
          (by rw [isSplit, List.cons_append]))
      have headPlain := plain head List.mem_cons_self
      rw [List.flatMap_cons, List.flatMap_cons]
      by_cases finishes : head.located.statement = .finish
      · -- The end directive is the last one, and the remark ends its row.
        obtain rfl := nothingBehind [] head tail rfl finishes
        rw [List.flatMap_nil, List.flatMap_nil, List.append_nil, List.append_nil,
          highlight_unended_row headPlain, unmarked]
      · rw [List.append_assoc, List.append_assoc, highlight_ended_row headPlain finishes, later]

/-- Rows that are all marked alike have no mark but that of the address column. -/
theorem highlighted_eq_marked_iff (records : List Record) :
    records.flatMap (highlighted pc) = records.flatMap (marked pc) ↔
      ∀ record ∈ records, ¬Listing.column pc <:+: record.emission.entry := by
  induction records with
  | nil => simp
  | cons head tail inductionHypothesis =>
      have sameLength : (head.highlighted pc).length = (head.marked pc).length := by
        simp only [highlighted, marked, List.length_append, length_highlight]
      have rows : head.highlighted pc = head.marked pc ↔
          ¬Listing.column pc <:+: head.emission.entry := by
        rw [← highlight_eq_self_iff]
        exact List.append_right_inj _
      rw [List.flatMap_cons, List.flatMap_cons, List.forall_mem_cons, ← inductionHypothesis,
        ← rows]
      constructor
      · intro same
        exact List.append_inj same sameLength
      · rintro ⟨here, behind⟩
        rw [here, behind]

variable {tokens : List Token}

theorem entry_of_mem (member : record ∈ ofTokens tokens)
    (faultless : record.emission.fault = none) :
    record.located.statement.Entry (Symbols.ofTokens tokens).labels record.emission.entry := by
  have isEmission := (eq_of_mem_list member).2
  rw [isEmission] at faultless ⊢
  exact Emission.entry_ofStatement faultless

theorem isPlain_of_mem (member : record ∈ ofTokens tokens)
    (succeeds : (assemble tokens).success = true) : record.IsPlain := by
  obtain ⟨keepsLimit, faultless⟩ := (Assembly.success_iff tokens).mp succeeds record member
  constructor
  · simp [text, keepsLimit]
  · exact (entry_of_mem member faultless).ended

theorem column_infix_of_mem (member : record ∈ ofTokens tokens)
    (succeeds : (assemble tokens).success = true) :
    Listing.column pc <:+: record.emission.entry ↔
      record.located.statement.mentions (Listing.column pc) = true := by
  obtain ⟨_, faultless⟩ := (Assembly.success_iff tokens).mp succeeds record member
  obtain ⟨token, rest, _, isRead⟩ := Located.exists_read_of_mem_list (located_mem_of_mem member)
  apply (entry_of_mem member faultless).column_infix_iff
  rw [isRead]
  exact Statement.isSound_read token rest

end Record

/-! ### The marked listing -/

/-- What closes the listing of an accepted program. -/
def Listing.closing (tokens : List Token) : Text :=
  if tokens = [] then noCode else noErrors

theorem listing_of_success {tokens : List Token} (succeeds : (assemble tokens).success = true) :
    (assemble tokens).listing =
      (Record.ofTokens tokens).flatMap Record.text ++ Listing.closing tokens := by
  unfold Listing.closing
  split
  · rename_i isEmpty
    rw [isEmpty]
    rfl
  · rename_i nonempty
    rw [listing_assemble nonempty, if_pos succeeds]

theorem highlight_listing {tokens : List Token} (succeeds : (assemble tokens).success = true)
    (pc : UInt16) :
    highlight (assemble tokens).listing pc =
      (Record.ofTokens tokens).flatMap (Record.highlighted pc) ++ Listing.closing tokens := by
  obtain ⟨remark, isClosing, noColon⟩ : ∃ remark, Listing.closing tokens = '\n' :: remark ∧
      ':' ∉ remark := by
    unfold Listing.closing
    split
    · exact ⟨_, rfl, by decide⟩
    · exact ⟨_, rfl, by decide⟩
  rw [listing_of_success succeeds, isClosing]
  apply Record.highlight_rows
  · exact fun record member => Record.isPlain_of_mem member succeeds
  · exact fun _ _ _ isSplit => Record.eq_nil_of_finish isSplit
  · exact (highlight_eq_self_iff remark pc).mpr (Listing.no_column_of_noColon noColon)

/-- Highlighting marks the address columns at `pc`, and the column of `pc` wherever else the
listing shows it. Take a source that is accepted. Its listing has a row for each statement of the
walk, and a closing remark. In the marked listing the row of a statement at `pc` has an arrow for
the space of its address column, and the row of any other statement keeps its address column.
Apart from that nothing is changed just if no statement mentions the column: none has it in a
quotation of a byte list or in a name as the listing shows it, where the space behind the name of
an equate counts. -/
theorem highlight_marks_columns_iff {source : Text}
    (succeeds : (assembleSource source).success = true) (pc : UInt16) :
    (Record.ofTokens (tokenize source)).map Record.located = Located.list (tokenize source) ∧
    (assembleSource source).listing =
      (Record.ofTokens (tokenize source)).flatMap (fun record =>
        Listing.address record.start ++ record.emission.entry) ++
          Listing.closing (tokenize source) ∧
    highlight (assembleSource source).listing pc =
      (Record.ofTokens (tokenize source)).flatMap (Record.highlighted pc) ++
        Listing.closing (tokenize source) ∧
    (highlight (assembleSource source).listing pc =
        (Record.ofTokens (tokenize source)).flatMap (Record.marked pc) ++
          Listing.closing (tokenize source) ↔
      ∀ located ∈ Located.list (tokenize source),
        located.statement.mentions (Listing.column pc) = false) := by
  have walked : (Record.ofTokens (tokenize source)).map Record.located =
      Located.list (tokenize source) := Record.map_located_list _ _ _ _
  refine ⟨walked, ?_, highlight_listing succeeds pc, ?_⟩
  · rw [assembleSource, listing_of_success succeeds, List.append_left_inj]
    exact List.flatMap_congr fun record member => (Record.isPlain_of_mem member succeeds).text
  · rw [assembleSource, highlight_listing succeeds, List.append_left_inj,
      Record.highlighted_eq_marked_iff, ← walked, List.forall_mem_map]
    apply forall₂_congr
    intro record member
    rw [Record.column_infix_of_mem member succeeds, Bool.not_eq_true]

/-- A program with the address column of its first statement in a quotation. -/
private def columnQuote : Text :=
  "NOP\nDB '0000: '\n".toList

private theorem tokenize_columnQuote :
    tokenize columnQuote = ["00", "DB", "'0000: '"].map String.toList := by
  simp only [tokenize, Tokenized.ofSource, prepare, Mnemonic.substitute_eq_defined]
  decide +kernel

/-- At the second statement, whose column no statement mentions. -/
theorem highlight_marks_columns_iff_second :
    (assembleSource columnQuote).success = true ∧
      highlight (assembleSource columnQuote).listing 1 =
        "0000: 00    \t\t\tnop\n0001:>\t\t\t\tdb '0000: '\n\n\n; No errors found.".toList := by
  have succeeds : (assembleSource columnQuote).success = true := by
    rw [assembleSource, tokenize_columnQuote]
    decide +kernel
  obtain ⟨_, _, _, onlyColumns⟩ := highlight_marks_columns_iff succeeds 1
  have unmentioned : ∀ located ∈ Located.list (tokenize columnQuote),
      located.statement.mentions (Listing.column 1) = false := by
    rw [tokenize_columnQuote]
    decide +kernel
  refine ⟨succeeds, (onlyColumns.mpr unmentioned).trans ?_⟩
  rw [tokenize_columnQuote]
  decide +kernel

/-- At the first statement the quotation in the row of the second one is marked as well. -/
theorem highlight_marks_quotation :
    (assembleSource columnQuote).success = true ∧
      highlight (assembleSource columnQuote).listing 0 =
        "0000:>00    \t\t\tnop\n0001: \t\t\t\tdb '0000:>'\n\n\n; No errors found.".toList ∧
      highlight (assembleSource columnQuote).listing 0 ≠
        (Record.ofTokens (tokenize columnQuote)).flatMap (Record.marked 0) ++
          Listing.closing (tokenize columnQuote) := by
  rw [assembleSource, tokenize_columnQuote]
  decide +kernel

end Asm8080
