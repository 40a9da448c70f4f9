import Asm8080.Proofs.AddressSpace

/-!
Contract: the diagnostics of a program and the listing lines that they belong to.

Owns:
- the overflow report in terms of the walk: it stands behind the first statement that
  leaves the counter behind the limit;
- the diagnostics of a record: the fault of its statement, if there is one, and the
  overflow report, if it is due; the text of the record holds the wording of both;
- `diagnostics_agree_with_listing`: these facts for assemblies.

Does not own: which statements are faulty.
-/

namespace Asm8080

namespace Record

variable {symbols : Symbols} {statements : List Located} {before later : List Record}
  {record : Record}

/-- An overflow is reported by the first record that leaves the counter behind the limit,
unless it has been reported before. -/
theorem overflows_iff {overflowed : Bool} {pc : Nat}
    (isList : list symbols overflowed pc statements = before ++ record :: later) :
    record.overflows = true ↔
      overflowed = false ∧ (∀ earlier ∈ before, earlier.next ≤ addressLimit) ∧
        addressLimit < record.next := by
  induction before generalizing statements overflowed pc with
  | nil =>
      cases statements with
      | nil => cases isList
      | cons head tail =>
          obtain ⟨isRecord, _⟩ := List.cons.inj isList
          rw [← isRecord]
          simp
  | cons first front inductionHypothesis =>
      cases statements with
      | nil => cases isList
      | cons head tail =>
          obtain ⟨isFirst, rest⟩ := List.cons.inj isList
          rw [inductionHypothesis rest, ← isFirst]
          -- The flag that the tail starts with is down just if it was and this record kept to
          -- the limit.
          cases overflowed <;> simp [and_assoc]

/-! ### The text of a record -/

theorem address_prefix_text (record : Record) :
    Numeral.hexWord (UInt16.ofNat record.start) ++ ": ".toList <+: record.text := by
  unfold text
  rw [List.append_assoc]
  exact List.prefix_append _ _

theorem entry_infix_text (record : Record) : record.emission.entry <:+: record.text :=
  List.infix_append _ _ _

theorem overflow_infix_text (overflows : record.overflows = true) :
    Fault.addressOverflow.message <:+: record.text := by
  have shown : Fault.addressOverflow.message <:+: Listing.badToken .addressOverflow :=
    List.infix_append _ _ _
  unfold text
  rw [if_pos overflows]
  exact shown.trans (List.suffix_append _ _).isInfix

/-! ### The diagnostics of a record -/

/-- The fault of the record's own statement, at the place where the statement starts. -/
def ownDiagnostic? (record : Record) : Option Diagnostic :=
  record.emission.fault.map fun fault => ⟨record.start, fault⟩

theorem diagnostics_eq_own_append (record : Record) :
    record.diagnostics = record.ownDiagnostic?.toList ++
      if record.overflows then [⟨record.next, .addressOverflow⟩] else [] := by
  unfold diagnostics ownDiagnostic?
  cases record.emission.fault <;> rfl

/-- The fault of a statement is no overflow, and the record's text holds its wording. -/
theorem ownDiagnostic?_shown {overflowed : Bool} {pc : Nat}
    (member : record ∈ list symbols overflowed pc statements) {diagnostic : Diagnostic}
    (isOwn : diagnostic ∈ record.ownDiagnostic?) :
    diagnostic.pc = record.start ∧ diagnostic.fault ≠ .addressOverflow ∧
      diagnostic.fault.message <:+: record.text := by
  obtain ⟨fault, isFault, rfl⟩ := Option.map_eq_some_iff.mp isOwn
  have shown := entry_infix_text record
  rw [(eq_of_mem_list member).2] at isFault shown
  refine ⟨rfl, ?_, ?_⟩
  · rintro rfl
    exact Emission.fault_ne_addressOverflow symbols record.located isFault
  · have reported := Emission.reports_ofStatement symbols record.located fault isFault
    exact reported.2.trans shown

/-- The text of a record holds the wording of each of its diagnostics. -/
theorem message_infix_text {overflowed : Bool} {pc : Nat}
    (member : record ∈ list symbols overflowed pc statements) {diagnostic : Diagnostic}
    (reported : diagnostic ∈ record.diagnostics) : diagnostic.fault.message <:+: record.text := by
  rw [diagnostics_eq_own_append, List.mem_append, Option.mem_toList] at reported
  rcases reported with isOwn | isOverflow
  · exact (ownDiagnostic?_shown member isOwn).2.2
  · split at isOverflow
    · rename_i overflows
      rw [List.mem_singleton.mp isOverflow]
      exact overflow_infix_text overflows
    · cases isOverflow

end Record

theorem message_infix_listing {tokens : List Token} {diagnostic : Diagnostic}
    (reported : diagnostic ∈ (assemble tokens).diagnostics) :
    diagnostic.fault.message <:+: (assemble tokens).listing := by
  rw [diagnostics_assemble] at reported
  obtain ⟨record, member, inRecord⟩ := List.mem_flatMap.mp reported
  have nonempty : tokens ≠ [] := by
    rintro rfl
    cases member
  have inText : record.text <:+: (Record.ofTokens tokens).flatMap Record.text :=
    List.infix_of_mem_flatten (List.mem_map_of_mem member)
  rw [listing_assemble nonempty]
  exact (Record.message_infix_text member inRecord).trans
    (inText.trans (List.prefix_append _ _).isInfix)

/-- Diagnostics and listing agree. The diagnostics of an assembly are those of the records of
its walk, in that order, and the listing is what the records write, with a remark behind it. A
record has at most one diagnostic of its own, which carries the address where its statement
starts; the text of the record begins with that address. Directly behind it stands the overflow
report, once in a run: at the first statement that leaves the counter above 10000h. The text of
the record holds the wording of each of its diagnostics. The first pass has none, and a program
is accepted just if there are none. -/
theorem diagnostics_agree_with_listing (tokens : List Token) :
    (assemble tokens).diagnostics = (Record.ofTokens tokens).flatMap Record.diagnostics ∧
      (tokens ≠ [] → ∃ remark, (assemble tokens).listing =
        (Record.ofTokens tokens).flatMap Record.text ++ remark) ∧
      (∀ before record later, Record.ofTokens tokens = before ++ record :: later →
        ∃ own : Option Diagnostic,
          record.diagnostics = own.toList ++
            (if (∀ earlier ∈ before, earlier.next ≤ 0x10000) ∧ 0x10000 < record.next then
              [⟨record.next, .addressOverflow⟩] else []) ∧
          (∀ diagnostic ∈ own, diagnostic.address = UInt16.ofNat record.start ∧
            diagnostic.fault ≠ .addressOverflow) ∧
          Numeral.hexWord (UInt16.ofNat record.start) ++ ": ".toList <+: record.text ∧
          ∀ diagnostic ∈ record.diagnostics, diagnostic.fault.message <:+: record.text) ∧
      (assemble tokens).diagnostics.countP Diagnostic.isOverflow ≤ 1 ∧
      (∀ assembler : Assembler,
        (assembler.runPass .first tokens).2.output.diagnostics = assembler.output.diagnostics) ∧
      ((assemble tokens).success = true ↔ (assemble tokens).diagnostics = []) := by
  refine ⟨diagnostics_assemble tokens, fun nonempty => ⟨_, listing_assemble nonempty⟩, ?_, ?_,
    fun _ => rfl, List.isEmpty_iff⟩
  · intro before record later isSplit
    have member : record ∈ Record.ofTokens tokens := by simp [isSplit]
    have due := Record.overflows_iff isSplit
    have diagnostics := record.diagnostics_eq_own_append
    refine ⟨record.ownDiagnostic?, ?_, ?_, record.address_prefix_text, ?_⟩
    · rw [diagnostics]
      congr 1
      simp only [due, true_and]
      rfl
    · intro diagnostic isOwn
      obtain ⟨atStart, noOverflow, _⟩ := Record.ownDiagnostic?_shown member isOwn
      exact ⟨congrArg UInt16.ofNat atStart, noOverflow⟩
    · exact fun diagnostic reported => Record.message_infix_text member reported
  · rw [diagnostics_assemble, Record.countP_isOverflow]
    · rw [Record.ofTokens, Record.countP_overflows (Nat.zero_le _)]
      split <;> decide
    · intro record member
      rw [(Record.eq_of_mem_list member).2]
      exact Emission.fault_ne_addressOverflow _ _

private def overrun : List Token :=
  ["ORG", "0FFFFH", "C3", "NOWHERE", "DS", "2", "X", "EQU"].map String.toList

/-- The jump is faulty and is the first statement to pass the limit. Two statements later there
is another fault, and no second overflow report. -/
theorem diagnostics_agree_with_listing_overrun :
    ∃ origin jump later, Record.ofTokens overrun = [origin] ++ jump :: later ∧
      (∀ earlier ∈ [origin], earlier.next ≤ 0x10000) ∧ 0x10000 < jump.next ∧
      (∀ diagnostic ∈ jump.diagnostics, diagnostic.fault.message <:+: jump.text) ∧
      (assemble overrun).diagnostics =
        [⟨0xFFFF, .labelNotFound⟩, ⟨0x10002, .addressOverflow⟩, ⟨0x10004, .missingEquValue⟩] := by
  have isSplit : Record.ofTokens overrun =
      [(Record.ofTokens overrun).get ⟨0, by decide +kernel⟩] ++
        (Record.ofTokens overrun).get ⟨1, by decide +kernel⟩ ::
          (Record.ofTokens overrun).drop 2 := by
    decide +kernel
  have agree := diagnostics_agree_with_listing overrun
  obtain ⟨_, _, _, _, shown⟩ := agree.2.2.1 _ _ _ isSplit
  exact ⟨_, _, _, isSplit, by decide +kernel, by decide +kernel, shown,
    agree.1.trans (by decide +kernel)⟩

end Asm8080
