import Mathlib.Logic.Basic
import Asm8080.Assembler

/-!
Contract: a run of the assembler, taken apart.

Owns:
- the symbols and the records that a token list gives rise to;
- the state behind both passes in terms of these two;
- the bytes, listing, diagnostics, origin and success of an assembly in terms of these
  two.

Does not own: any property of symbols or records.
-/

namespace Asm8080

/-- The symbols that the first pass finds in a token list. -/
def Symbols.ofTokens (tokens : List Token) : Symbols :=
  (Survey.run Symbols.empty (Located.list tokens)).symbols

/-- The records that the second pass makes of a token list. -/
def Record.ofTokens (tokens : List Token) : List Record :=
  Record.list (Symbols.ofTokens tokens) false 0 (Located.list tokens)

theorem Record.map_located_list (symbols : Symbols) (overflowed : Bool) (pc : Nat)
    (statements : List Located) :
    (Record.list symbols overflowed pc statements).map Record.located = statements := by
  induction statements generalizing overflowed pc with
  | nil => rfl
  | cons head tail inductionHypothesis =>
      simp only [Record.list, List.map_cons]
      rw [inductionHypothesis]

theorem Record.located_mem_of_mem {tokens : List Token} {record : Record}
    (member : record ∈ Record.ofTokens tokens) : record.located ∈ Located.list tokens := by
  have walked := Record.map_located_list (Symbols.ofTokens tokens) false 0 (Located.list tokens)
  rw [← walked]
  exact List.mem_map_of_mem member

theorem Record.eq_of_mem_list {symbols : Symbols} {overflowed : Bool} {pc : Nat}
    {statements : List Located} {record : Record}
    (member : record ∈ Record.list symbols overflowed pc statements) :
    record.next = Counter.after symbols.labels record.start record.located ∧
      record.emission = Emission.ofStatement symbols record.located := by
  induction statements generalizing overflowed pc with
  | nil => cases member
  | cons head tail inductionHypothesis =>
      simp only [Record.list, List.mem_cons] at member
      rcases member with isHead | inTail
      · rw [isHead]
        exact ⟨rfl, rfl⟩
      · exact inductionHypothesis inTail

theorem Record.finalCounter_list (symbols : Symbols) (overflowed : Bool)
    (statements : List Located) :
    Record.finalCounter (Record.list symbols overflowed 0 statements) =
      statements.foldl (Counter.after symbols.labels) 0 := by
  have fromAnywhere (overflowed : Bool) (pc : Nat) :
      ((Record.list symbols overflowed pc statements).getLast?.map Record.next).getD pc =
        statements.foldl (Counter.after symbols.labels) pc := by
    induction statements generalizing overflowed pc with
    | nil => rfl
    | cons head tail inductionHypothesis =>
        simp only [Record.list, List.foldl_cons, List.getLast?_cons, Option.map_some,
          Option.getD_some]
        rw [← inductionHypothesis _ (Counter.after symbols.labels pc head)]
        cases (Record.list symbols _ (Counter.after symbols.labels pc head) tail).getLast? with
        | none => rfl
        | some last => rfl
  rw [← fromAnywhere overflowed 0]
  unfold Record.finalCounter
  cases (Record.list symbols overflowed 0 statements).getLast? with
  | none => rfl
  | some last => rfl

namespace Assembler

/-- Behind a run the state holds the symbols, the output of the records and a
summary of each pass. -/
theorem passes_eq (assembler : Assembler) {tokens : List Token} (nonempty : tokens ≠ []) :
    assembler.passes tokens =
      ⟨Symbols.ofTokens tokens, Output.empty.append (Record.ofTokens tokens),
        [summarize .first (Survey.run Symbols.empty (Located.list tokens)).pc
            (Located.list tokens),
          summarize .second (Record.finalCounter (Record.ofTokens tokens))
            (Located.list tokens)]⟩ := by
  have notEmpty : tokens.isEmpty = false := List.isEmpty_eq_false_iff.mpr nonempty
  unfold passes
  rw [notEmpty]
  rfl

theorem symbols_assemble (assembler : Assembler) (tokens : List Token) :
    (assembler.assemble tokens).2.symbols = Symbols.ofTokens tokens := by
  show (assembler.passes tokens).symbols = _
  by_cases isEmpty : tokens = []
  · rw [isEmpty]
    rfl
  · rw [passes_eq assembler isEmpty]

end Assembler

namespace Assembly

/-! ### Closing the output -/

theorem cells_ofOutput (origin : Option UInt16) (output : Output) :
    (ofOutput origin output).object.cells = output.object.cells := by
  unfold ofOutput
  split <;> rfl

theorem diagnostics_ofOutput (origin : Option UInt16) (output : Output) :
    (ofOutput origin output).diagnostics = output.diagnostics := by
  unfold ofOutput
  by_cases clean : output.diagnostics.isEmpty
  · rw [if_pos clean]
    exact (List.isEmpty_iff.mp clean).symm
  · rw [if_neg clean]

theorem listing_ofOutput (origin : Option UInt16) (output : Output) :
    (ofOutput origin output).listing =
      output.listing ++
        if output.diagnostics.isEmpty then Listing.noErrors else Listing.warning := by
  unfold ofOutput
  split <;> rfl

theorem origin_ofOutput (origin : Option UInt16) (output : Output) :
    (ofOutput origin output).origin = origin.getD 0 := by
  unfold ofOutput
  split <;> rfl

end Assembly

/-! ### The assembly of a token list -/

theorem Cell.map_byte_place (address : Nat) (bytes : List UInt8) :
    (Cell.place address bytes).map Cell.byte = bytes := by
  unfold Cell.place
  rw [List.map_map]
  exact List.zipIdx_map_fst address bytes

theorem assemble_eq_ofOutput {tokens : List Token} (nonempty : tokens ≠ []) :
    assemble tokens = Assembly.ofOutput (Symbols.ofTokens tokens).origin
      (Output.empty.append (Record.ofTokens tokens)) := by
  have notEmpty : tokens.isEmpty = false := List.isEmpty_eq_false_iff.mpr nonempty
  unfold assemble Assembler.assemble Assembler.result
  rw [notEmpty, Assembler.passes_eq _ nonempty]
  rfl

/-- The bytes of an assembly, with their addresses, are those of the records. -/
theorem cells_assemble (tokens : List Token) :
    (assemble tokens).object.cells = (Record.ofTokens tokens).flatMap Record.cells := by
  by_cases isEmpty : tokens = []
  · rw [isEmpty]
    rfl
  · rw [assemble_eq_ofOutput isEmpty, Assembly.cells_ofOutput]
    exact ObjectCode.cells_append ObjectCode.empty _

theorem bytes_assemble (tokens : List Token) :
    (assemble tokens).bytes =
      (Record.ofTokens tokens).flatMap fun record => record.emission.bytes := by
  show (assemble tokens).object.cells.map Cell.byte = _
  rw [cells_assemble, List.map_flatMap]
  simp only [Record.cells, Cell.map_byte_place]

theorem diagnostics_assemble (tokens : List Token) :
    (assemble tokens).diagnostics = (Record.ofTokens tokens).flatMap Record.diagnostics := by
  by_cases isEmpty : tokens = []
  · rw [isEmpty]
    rfl
  · rw [assemble_eq_ofOutput isEmpty, Assembly.diagnostics_ofOutput]
    rfl

/-- The listing of an assembly is what the records write, and a closing remark. -/
theorem listing_assemble {tokens : List Token} (nonempty : tokens ≠ []) :
    (assemble tokens).listing =
      (Record.ofTokens tokens).flatMap Record.text ++
        if (assemble tokens).success then Listing.noErrors else Listing.warning := by
  have sameDiagnostics : (assemble tokens).diagnostics =
      (Output.empty.append (Record.ofTokens tokens)).diagnostics := by
    rw [diagnostics_assemble]
    rfl
  rw [Assembly.success, sameDiagnostics, assemble_eq_ofOutput nonempty, Assembly.listing_ofOutput]
  rfl

theorem origin_assemble (tokens : List Token) :
    (assemble tokens).origin = (Symbols.ofTokens tokens).origin.getD 0 := by
  by_cases isEmpty : tokens = []
  · rw [isEmpty]
    rfl
  · rw [assemble_eq_ofOutput isEmpty, Assembly.origin_ofOutput]

/-! ### Success -/

theorem Record.diagnostics_eq_nil_iff (record : Record) :
    record.diagnostics = [] ↔ record.overflows = false ∧ record.emission.fault = none := by
  unfold Record.diagnostics
  cases record.emission.fault <;> cases record.overflows <;> simp

/-- A program is accepted if no statement is faulty and the address space suffices. -/
theorem Assembly.success_iff (tokens : List Token) :
    (assemble tokens).success = true ↔
      ∀ record ∈ Record.ofTokens tokens,
        record.overflows = false ∧ record.emission.fault = none := by
  rw [Assembly.success, diagnostics_assemble, List.isEmpty_iff, List.flatMap_eq_nil_iff]
  simp only [Record.diagnostics_eq_nil_iff]

theorem Assembly.success_eq_false_iff (tokens : List Token) :
    (assemble tokens).success = false ↔
      ∃ record ∈ Record.ofTokens tokens,
        record.overflows = true ∨ record.emission.fault.isSome = true := by
  rw [← Bool.not_eq_true, Assembly.success_iff]
  simp only [not_forall, not_and_or, Bool.not_eq_false, exists_prop, Option.isSome_iff_ne_none,
    ne_eq]

end Asm8080
