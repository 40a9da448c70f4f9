import Asm8080.Proofs.FaultReports
import Asm8080.Proofs.LoadedImage
import Asm8080.Proofs.PassAgreement

/-!
Contract: the bytes of a program and the 64 KiB in which they have to lie.

Owns:
- the limit of the address space in terms of bytes: a statement leaves the counter
  behind the limit just if it places a byte there;
- the report of an overflow, which a walk makes once if any byte lies behind the
  limit, and otherwise not at all;
- the value of a label that repeats no other, which is the counter at its definition;
- `address_space_overflow_reported_once`: both facts for assemblies.

Does not own: the counter's own ceiling, which is far behind the limit.
-/

namespace Asm8080

/-! ### Bytes behind the limit -/

theorem Cell.exists_place_iff {address limit : Nat} (below : address ≤ limit)
    (bytes : List UInt8) :
    (∃ cell ∈ place address bytes, limit ≤ cell.address) ↔ limit < address + bytes.length := by
  have addresses (here : Nat) :
      (∃ cell ∈ place address bytes, cell.address = here) ↔
        address ≤ here ∧ here < address + bytes.length := by
    rw [← List.mem_map, map_address_place, List.mem_range'_1]
  constructor
  · rintro ⟨cell, member, atLeast⟩
    have inside := (addresses cell.address).mp ⟨cell, member, rfl⟩
    omega
  · intro passes
    obtain ⟨cell, member, isHere⟩ :=
      (addresses (address + bytes.length - 1)).mpr ⟨by omega, by omega⟩
    exact ⟨cell, member, by omega⟩

/-- A statement that starts within the limit passes it just if it places a byte behind it. -/
theorem Counter.limit_lt_after_iff (symbols : Symbols) (located : Located) {pc : Nat}
    (below : pc ≤ Record.addressLimit) :
    Record.addressLimit < after symbols.labels pc located ↔
      ∃ cell ∈ Cell.place pc (Emission.ofStatement symbols located).bytes,
        Record.addressLimit ≤ cell.address := by
  have limit : Record.addressLimit < ceiling := by decide
  rw [Cell.exists_place_iff below, Emission.length_ofStatement]
  cases sets : target? symbols.labels located with
  | none =>
      rw [after_eq_advance sets (by omega), advance]
      omega
  | some target =>
      have isOrigin := isOrigin_of_target? (Option.isSome_of_eq_some sets)
      have small : target.toNat < Record.addressLimit := target.toNat_lt
      rw [after_of_target? sets, size_of_isOrigin isOrigin]
      omega

/-! ### The report -/

namespace Record

variable {symbols : Symbols} {pc : Nat} {statements : List Located}

/-- Behind a report there is no other. -/
theorem overflows_of_overflowed :
    ∀ record ∈ list symbols true pc statements, record.overflows = false := by
  induction statements generalizing pc with
  | nil => simp [list]
  | cons head tail inductionHypothesis =>
      intro record member
      rcases List.mem_cons.mp member with isHead | inTail
      · rw [isHead]
        rfl
      · exact inductionHypothesis record inTail

/-- A walk that starts within the limit reports one overflow if a byte lies behind the limit,
and none otherwise. -/
theorem countP_overflows (below : pc ≤ addressLimit) :
    (list symbols false pc statements).countP overflows =
      if ∃ cell ∈ (list symbols false pc statements).flatMap cells, addressLimit ≤ cell.address
      then 1 else 0 := by
  induction statements generalizing pc with
  | nil => simp [list]
  | cons head tail inductionHypothesis =>
      have passes := Counter.limit_lt_after_iff symbols head below
      rw [list]
      by_cases beyond : addressLimit < Counter.after symbols.labels pc head
      · obtain ⟨cell, member, behind⟩ := passes.mp beyond
        have noMore : (list symbols true (Counter.after symbols.labels pc head) tail).countP
            overflows = 0 := by
          apply List.countP_eq_zero.mpr
          intro record inTail
          simp [overflows_of_overflowed record inTail]
        simp only [beyond, Bool.not_false, decide_true, Bool.and_self, Bool.or_true]
        rw [List.countP_cons_of_pos rfl, noMore, if_pos]
        exact ⟨cell, List.mem_flatMap.mpr ⟨_, List.mem_cons_self, member⟩, behind⟩
      · have within : Counter.after symbols.labels pc head ≤ addressLimit := by omega
        simp only [beyond, decide_false, Bool.and_false, Bool.or_false]
        rw [List.countP_cons_of_neg (by simp), inductionHypothesis within, List.flatMap_cons]
        congr 1
        apply propext
        constructor
        · rintro ⟨cell, inTail, behind⟩
          exact ⟨cell, List.mem_append_right _ inTail, behind⟩
        · rintro ⟨cell, member, behind⟩
          rcases List.mem_append.mp member with inHead | inTail
          · exact absurd (passes.mpr ⟨cell, inHead, behind⟩) beyond
          · exact ⟨cell, inTail, behind⟩

/-- As long as no overflow is reported, every statement starts within the limit. -/
theorem start_le_of_not_overflows (below : pc ≤ addressLimit)
    (none : ∀ record ∈ list symbols false pc statements, record.overflows = false) :
    ∀ record ∈ list symbols false pc statements, record.start ≤ addressLimit := by
  induction statements generalizing pc with
  | nil => simp [list]
  | cons head tail inductionHypothesis =>
      have within : Counter.after symbols.labels pc head ≤ addressLimit := by
        have own := none _ List.mem_cons_self
        simpa using own
      have goesOn : decide (addressLimit < Counter.after symbols.labels pc head) = false := by
        simpa using within
      simp only [list, goesOn, Bool.and_false, Bool.or_false] at none ⊢
      intro record member
      rcases List.mem_cons.mp member with isHead | inTail
      · rw [isHead]
        exact below
      · exact inductionHypothesis within (fun record inTail => none record (by simp [inTail]))
          record inTail

end Record

/-! ### Faults of statements -/

namespace Emission

/-- No statement reports an overflow as a fault of its own. -/
theorem fault_ne_addressOverflow (symbols : Symbols) (located : Located) :
    (ofStatement symbols located).fault ≠ some .addressOverflow := by
  intro isOverflow
  have listed := (reports_ofStatement symbols located _ isOverflow).1
  cases kind : located.statement <;> simp [kind, Statement.faults] at listed

end Emission

/-- Whether a diagnostic reports that a byte lies behind the limit. -/
def Diagnostic.isOverflow (diagnostic : Diagnostic) : Bool :=
  diagnostic.fault == .addressOverflow

theorem Record.countP_isOverflow {records : List Record}
    (own : ∀ record ∈ records, record.emission.fault ≠ some .addressOverflow) :
    (records.flatMap diagnostics).countP Diagnostic.isOverflow = records.countP overflows := by
  induction records with
  | nil => rfl
  | cons head tail inductionHypothesis =>
      have here : head.diagnostics.countP Diagnostic.isOverflow =
          if head.overflows then 1 else 0 := by
        have headOwn := own head (by simp)
        unfold diagnostics
        cases fault : head.emission.fault with
        | none => cases head.overflows <;> rfl
        | some other =>
            have different : (other == Fault.addressOverflow) = false := by
              rw [beq_eq_false_iff_ne]
              rintro rfl
              exact headOwn fault
            cases head.overflows <;> simp [Diagnostic.isOverflow, different]
      have later := inductionHypothesis fun record member => own record (by simp [member])
      rw [List.flatMap_cons, List.countP_append, here, later, List.countP_cons, Nat.add_comm]

/-! ### The values of labels -/

namespace Survey.Underway

variable {index : Nat} {survey : Survey} {located : Located} {statements : List Located}
  {name : Text}

/-- A label that repeats no other has the counter at its definition for its value. -/
theorem find?_of_label {final : Symbols}
    (underway : Underway final.labels index survey (located :: statements))
    (ends : ((located :: statements).foldl Survey.step survey).symbols = final)
    (isLabel : located.statement = .label name)
    (unrepeated : final.isRepetition located.index = false) :
    final.labels.find? name = some ⟨name, UInt16.ofNat survey.pc, located.index⟩ := by
  have defined : (survey.step located).symbols =
      survey.symbols.define located.index name (UInt16.ofNat survey.pc) := by
    simp [Survey.step, symbolsAfter, isLabel]
  have noneNoted : (survey.step located).symbols.isRepetition located.index = false := by
    rw [← underway.isRepetition_eq ends]
    exact unrepeated
  have fresh : survey.symbols.labels.find? name = none := by
    rw [defined] at noneNoted
    unfold Symbols.define LabelTable.define LabelTable.contains at noneNoted
    cases known : survey.symbols.labels.find? name with
    | none => rfl
    | some label => simp [known, Symbols.isRepetition] at noneNoted
  have here : (survey.step located).symbols.labels.find? name =
      some ⟨name, UInt16.ofNat survey.pc, located.index⟩ := by
    rw [defined, Symbols.find?_define, fresh]
    simp
  rcases underway.step.extendsFrom name with kept | ⟨absent, _⟩
  · rw [kept, here]
  · rw [here] at absent
    cases absent

/-- The same for the records of the second pass. -/
theorem find?_of_record (final : Symbols) (underway : Underway final.labels index survey statements)
    (ends : (statements.foldl Survey.step survey).symbols = final) {overflowed : Bool}
    {record : Record} (member : record ∈ Record.list final overflowed survey.pc statements)
    (isLabel : record.located.statement = .label name)
    (unrepeated : final.isRepetition record.located.index = false) :
    final.labels.find? name =
      some ⟨name, UInt16.ofNat record.start, record.located.index⟩ := by
  induction statements generalizing index survey overflowed with
  | nil => cases member
  | cons head tail inductionHypothesis =>
      rcases List.mem_cons.mp member with isHead | inTail
      · rw [isHead] at isLabel unrepeated ⊢
        exact underway.find?_of_label ends isLabel unrepeated
      · have sameNext : Counter.after final.labels survey.pc head = (survey.step head).pc :=
          underway.after_eq survey.pc
        rw [sameNext] at inTail
        exact inductionHypothesis underway.step ends inTail

end Survey.Underway

/-- In a program that is accepted every label has the counter at its definition for its
value, as far as that fits in sixteen bits. -/
theorem Symbols.get?_of_accepted {tokens : List Token}
    (succeeds : (assemble tokens).success = true) {record : Record}
    (member : record ∈ Record.ofTokens tokens) {name : Text}
    (isLabel : record.located.statement = .label name) :
    (Symbols.ofTokens tokens).labels.get? name = some (UInt16.ofNat record.start) := by
  have faultless := ((Assembly.success_iff tokens).mp succeeds record member).2
  have unrepeated : (Symbols.ofTokens tokens).isRepetition record.located.index = false := by
    rw [(Record.eq_of_mem_list member).2, Emission.ofStatement, isLabel] at faultless
    dsimp only at faultless
    split at faultless
    · cases faultless
    · rename_i notRepeated
      exact Bool.eq_false_iff.mpr notRepeated
  have found := (Survey.Underway.start tokens).find?_of_record (Symbols.ofTokens tokens) rfl member
    isLabel unrepeated
  rw [LabelTable.get?, found]
  rfl

/-! ### Assemblies -/

/-- The address space is kept. An overflow is reported just if the second pass emits a byte
at 10000h or above, and then once, however many bytes and statements lie there. So in a
program that is accepted every byte lies at FFFFh or below, every statement starts at 10000h
or below, and every plain label has the counter at its definition for its value, except that
a label at 10000h has the value zero. -/
theorem address_space_overflow_reported_once (tokens : List Token) :
    (assemble tokens).diagnostics.countP Diagnostic.isOverflow =
        (if ∃ cell ∈ (assemble tokens).object.cells, 0x10000 ≤ cell.address then 1 else 0) ∧
      ((assemble tokens).success = true →
        (∀ cell ∈ (assemble tokens).object.cells, cell.address ≤ 0xFFFF) ∧
          ∀ record ∈ Record.ofTokens tokens, record.start ≤ 0x10000 ∧
            ∀ name, record.located.statement = .label name →
              ∃ value, (Symbols.ofTokens tokens).labels.get? name = some value ∧
                value.toNat = if record.start = 0x10000 then 0 else record.start) := by
  have reported : (assemble tokens).diagnostics.countP Diagnostic.isOverflow =
      if ∃ cell ∈ (assemble tokens).object.cells, 0x10000 ≤ cell.address then 1 else 0 := by
    rw [diagnostics_assemble, cells_assemble, Record.countP_isOverflow]
    · exact Record.countP_overflows (Nat.zero_le _)
    · intro record member
      rw [(Record.eq_of_mem_list member).2]
      exact Emission.fault_ne_addressOverflow _ _
  refine ⟨reported, fun succeeds => ⟨?_, ?_⟩⟩
  · have noDiagnostics : (assemble tokens).diagnostics = [] := List.isEmpty_iff.mp succeeds
    intro cell member
    rw [noDiagnostics, List.countP_nil] at reported
    apply Nat.le_of_lt_succ
    apply Nat.lt_of_not_le
    intro beyond
    rw [if_pos ⟨cell, member, beyond⟩] at reported
    cases reported
  · intro record member
    have accepted := (Assembly.success_iff tokens).mp succeeds
    have starts : record.start ≤ 0x10000 := Record.start_le_of_not_overflows (Nat.zero_le _)
      (fun record member => (accepted record member).1) record member
    refine ⟨starts, fun name isLabel => ?_⟩
    refine ⟨_, Symbols.get?_of_accepted succeeds member isLabel, ?_⟩
    rw [UInt16.toNat_ofNat']
    split <;> omega

private def filledSpace : List Token :=
  ["ORG", "FFFEH", "DS", "2", "TOP:", "ORG", "0", "BOTTOM:"].map String.toList

/-- A program that fills the space up to its last address, with a label behind that. -/
theorem address_space_overflow_reported_once_filledSpace :
    (assemble filledSpace).success = true ∧
      (∀ cell ∈ (assemble filledSpace).object.cells, cell.address ≤ 0xFFFF) ∧
        ∃ value, (Symbols.ofTokens filledSpace).labels.get? "TOP:".toList = some value ∧
          value.toNat = 0 := by
  have succeeds : (assemble filledSpace).success = true := by decide +kernel
  obtain ⟨bytes, statements⟩ := (address_space_overflow_reported_once filledSpace).2 succeeds
  have member := List.get_mem (Record.ofTokens filledSpace) ⟨2, by decide +kernel⟩
  obtain ⟨value, found, isValue⟩ := (statements _ member).2 "TOP:".toList (by decide +kernel)
  exact ⟨succeeds, bytes, value, found, isValue.trans (by decide +kernel)⟩

end Asm8080
