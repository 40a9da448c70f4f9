import Asm8080.Proofs.ByteAccounting
import Asm8080.Proofs.Diagnostics
import Asm8080.Proofs.PassAgreement

/-!
Contract: what the operand of an instruction can change.

Owns:
- the reading of an instruction;
- the walk over two token lists that differ in the operand of one instruction: the same
  statements, but for that operand;
- the first pass, which passes over operands, and the records of both lists;
- `operand_exchange_keeps_layout`: the operand changes its own bytes and its own diagnostic,
  and nothing else.

Does not own: which value an operand has.
-/

namespace Asm8080

/-! ### Reading -/

namespace Statement

/-- What is read as an instruction: the hexadecimal text of a defined opcode, which no equate
follows. -/
theorem read_eq_instruction_iff {token : Token} {rest : List Token} {byte : UInt8}
    {opcode : Opcode} {operand : Option Token} :
    read token rest = .instruction byte opcode operand ↔
      (definesLabel token rest = false ∧ Directive.ofToken? token = none ∧
        Literal.isHex token = true) ∧
      (Opcode.lookup? (hexValue token) = some opcode ∧ UInt8.ofNat (hexValue token) = byte) ∧
      (if opcode.operand = .none then none else rest.head?) = operand := by
  unfold read ofHex
  constructor
  · intro isRead
    split at isRead
    · split at isRead <;> cases isRead
    · rename_i undefining
      split at isRead
      case h_7 noDirective =>
        split at isRead
        · rename_i isHex
          split at isRead
          · rename_i found isFound
            cases isRead
            exact ⟨⟨by simpa using undefining, noDirective, isHex⟩, ⟨isFound, rfl⟩, rfl⟩
          · cases isRead
        · cases isRead
      all_goals cases isRead
  · rintro ⟨⟨undefining, noDirective, isHex⟩, ⟨isFound, isByte⟩, isOperand⟩
    rw [undefining, noDirective, isHex, isFound, ← isByte, ← isOperand]
    rfl

/-- An instruction stays one when another token takes the place of its operand, unless that is
an equate. -/
theorem read_exchanged {token operand replacement : Token} {rest : List Token} {byte : UInt8}
    {opcode : Opcode} {own : Option Token}
    (isRead : read token (operand :: rest) = .instruction byte opcode own)
    (takes : opcode.operand ≠ .none) (notEquate : replacement ≠ Directive.equ.keyword) :
    own = some operand ∧
      read token (replacement :: rest) = .instruction byte opcode (some replacement) := by
  obtain ⟨⟨undefining, undirected⟩, isOpcode, isOwn⟩ := read_eq_instruction_iff.mp isRead
  rw [if_neg takes] at isOwn
  have noEquate : equateFollows (replacement :: rest) = false := by
    apply Bool.eq_false_iff.mpr
    intro follows
    exact notEquate (Option.some.inj (equateFollows_iff.mp follows))
  have stillUndefining : definesLabel token (replacement :: rest) = false := by
    unfold definesLabel at undefining ⊢
    rw [noEquate, Bool.or_false]
    revert undefining
    cases token.getLast? == some ':' <;> simp
  exact ⟨isOwn.symm, read_eq_instruction_iff.mpr
    ⟨⟨stillUndefining, undirected⟩, isOpcode, if_neg takes⟩⟩

end Statement

/-! ### The two walks -/

namespace Located

variable {token operand replacement : Token} {rest : List Token} {byte : UInt8} {opcode : Opcode}

/-- A walk that comes to the instruction meets the same statements before it and behind it, with
one operand or the other. -/
theorem listFrom_exchanged
    (isRead : Statement.read token (operand :: rest) = .instruction byte opcode (some operand))
    (isExchanged : Statement.read token (replacement :: rest) =
      .instruction byte opcode (some replacement))
    (front : List Token) (index skip : Nat)
    (comes : ∃ located ∈ listFrom index skip (front ++ token :: operand :: rest),
      located.index = index + front.length) :
    ∃ before later,
      listFrom index skip (front ++ token :: operand :: rest) =
        before ++ ⟨index + front.length, .instruction byte opcode (some operand)⟩ :: later ∧
      listFrom index skip (front ++ token :: replacement :: rest) =
        before ++ ⟨index + front.length, .instruction byte opcode (some replacement)⟩ :: later := by
  obtain ⟨located, member, atToken⟩ := comes
  induction front generalizing index skip with
  | nil =>
      cases skip with
      | succ skip =>
          -- A walk that passes over the token starts nothing there.
          have behind := (adjacentFrom_listFrom (index + 1) skip (operand :: rest)).index_le
            located member
          simp only [List.length_nil] at atToken
          omega
      | zero =>
          refine ⟨[], listFrom (index + 1) 1 (operand :: rest), ?_, ?_⟩
          · simp only [List.nil_append, listFrom, isRead]
            rfl
          · simp only [List.nil_append, listFrom, isExchanged]
            rfl
  | cons head front inductionHypothesis =>
      have shifted : index + 1 + front.length = index + (head :: front).length := by
        rw [List.length_cons]
        omega
      cases skip with
      | succ skip =>
          have later := inductionHypothesis (index + 1) skip member (atToken.trans shifted.symm)
          rwa [shifted] at later
      | zero =>
          have isHex := (Statement.read_eq_instruction_iff.mp isRead).1.2.2
          have notEquate : token ≠ Directive.equ.keyword := fun same =>
            absurd (same ▸ isHex) (by decide)
          have sameStatement := Statement.read_before notEquate head front (operand :: rest)
            (replacement :: rest)
          rw [List.cons_append, listFrom] at member ⊢
          rw [List.cons_append, listFrom, ← sameStatement]
          split at member
          · -- The walk ends here and does not come to the instruction.
            rw [List.mem_singleton.mp member, List.length_cons] at atToken
            dsimp only at atToken
            omega
          · rename_i unfinished
            rw [if_neg unfinished, if_neg unfinished]
            rcases List.mem_cons.mp member with isHead | inTail
            · rw [isHead, List.length_cons] at atToken
              dsimp only at atToken
              omega
            · obtain ⟨before, later, walked, exchanged⟩ :=
                inductionHypothesis (index + 1) _ inTail (atToken.trans shifted.symm)
              rw [shifted] at walked exchanged
              exact ⟨_ :: before, later, by rw [walked]; rfl, by rw [exchanged]; rfl⟩

/-- The statements of a program in which another token takes the place of an operand. -/
theorem list_set_operand {tokens : List Token} {index : Nat} {operand : Option Token}
    (starts : ⟨index, .instruction byte opcode operand⟩ ∈ list tokens)
    (takes : opcode.operand ≠ .none) (follows : index + 1 < tokens.length)
    (notEquate : replacement ≠ Directive.equ.keyword) :
    ∃ own before later, operand = some own ∧
      list tokens = before ++ ⟨index, .instruction byte opcode (some own)⟩ :: later ∧
      list (tokens.set (index + 1) replacement) =
        before ++ ⟨index, .instruction byte opcode (some replacement)⟩ :: later := by
  obtain ⟨token, behind, dropped, isRead⟩ := exists_read_of_mem_list starts
  dsimp only at dropped isRead
  obtain ⟨next, rest, isBehind⟩ : ∃ next rest, behind = next :: rest := by
    apply List.exists_cons_of_ne_nil
    intro isEmpty
    have lengths := congrArg List.length dropped
    rw [isEmpty, List.length_drop, List.length_singleton] at lengths
    omega
  rw [isBehind] at dropped isRead
  obtain ⟨isOperand, isExchanged⟩ := Statement.read_exchanged isRead.symm takes notEquate
  rw [isOperand] at isRead starts ⊢
  have frontLength : (tokens.take index).length = index := by
    rw [List.length_take]
    omega
  have isTokens : tokens = tokens.take index ++ token :: next :: rest := by
    rw [← dropped, List.take_append_drop]
  have isSet : tokens.set (index + 1) replacement =
      tokens.take index ++ token :: replacement :: rest := by
    conv => lhs; rw [isTokens]
    rw [List.set_append_right _ _ (by omega), frontLength, Nat.add_sub_cancel_left]
    rfl
  have comes : ∃ located ∈ listFrom 0 0 (tokens.take index ++ token :: next :: rest),
      located.index = 0 + (tokens.take index).length := by
    rw [← isTokens, frontLength, Nat.zero_add]
    exact ⟨_, starts, rfl⟩
  obtain ⟨before, later, walked, exchanged⟩ :=
    listFrom_exchanged isRead.symm isExchanged (tokens.take index) 0 0 comes
  rw [frontLength, Nat.zero_add] at walked exchanged
  refine ⟨next, before, later, rfl, ?_, ?_⟩
  · rw [list, isTokens]
    exact walked
  · rw [list, isSet]
    exact exchanged

end Located

/-! ### The two runs -/

section Exchange

variable {byte : UInt8} {opcode : Opcode} {index : Nat}

theorem Assembler.summarize_exchanged (pass : Pass) (endPc : Nat) (before later : List Located)
    (operand replacement : Token) :
    summarize pass endPc
        (before ++ ⟨index, .instruction byte opcode (some replacement)⟩ :: later) =
      summarize pass endPc
        (before ++ ⟨index, .instruction byte opcode (some operand)⟩ :: later) := by
  have sameWidth : Located.totalWidth
        (before ++ ⟨index, .instruction byte opcode (some replacement)⟩ :: later) =
      Located.totalWidth
        (before ++ ⟨index, .instruction byte opcode (some operand)⟩ :: later) := by
    unfold Located.totalWidth
    rw [List.foldr_append, List.foldr_append]
    rfl
  have sameEnd : Located.ended
        (before ++ ⟨index, .instruction byte opcode (some replacement)⟩ :: later) =
      Located.ended
        (before ++ ⟨index, .instruction byte opcode (some operand)⟩ :: later) := by
    unfold Located.ended
    rw [List.getLast?_append, List.getLast?_append, List.getLast?_cons, List.getLast?_cons]
    cases later.getLast? <;> rfl
  unfold summarize
  rw [sameWidth, sameEnd]

/-- The first pass passes over the operand. -/
theorem Survey.run_exchanged (symbols : Symbols) (before later : List Located)
    (operand replacement : Option Token) :
    run symbols (before ++ ⟨index, .instruction byte opcode replacement⟩ :: later) =
      run symbols (before ++ ⟨index, .instruction byte opcode operand⟩ :: later) := by
  unfold run
  rw [List.foldl_append, List.foldl_append]
  rfl

namespace Record

/-- What stands before some statements decides where their records start, and nothing else. -/
theorem list_append (symbols : Symbols) (overflowed : Bool) (pc : Nat) (before : List Located) :
    ∃ overflowedThen pcThen, ∀ later, list symbols overflowed pc (before ++ later) =
      list symbols overflowed pc before ++ list symbols overflowedThen pcThen later := by
  induction before generalizing overflowed pc with
  | nil => exact ⟨overflowed, pc, fun _ => rfl⟩
  | cons head tail inductionHypothesis =>
      obtain ⟨overflowedThen, pcThen, behind⟩ := inductionHypothesis
        (overflowed ||
          (!overflowed && decide (addressLimit < Counter.after symbols.labels pc head)))
        (Counter.after symbols.labels pc head)
      refine ⟨overflowedThen, pcThen, fun later => ?_⟩
      rw [List.cons_append, list, behind, list, List.cons_append]

/-- The record of the same instruction with another operand, where the labels are as given. -/
def withOperand (record : Record) (labels : LabelTable) (byte : UInt8) (opcode : Opcode)
    (operand : Token) : Record :=
  { record with
    located := ⟨record.located.index, .instruction byte opcode (some operand)⟩
    emission := Emission.ofInstruction labels byte opcode (some operand) }

/-- The records of both runs are the same, but for that of the instruction. -/
theorem list_exchanged (symbols : Symbols) (before later : List Located)
    (operand replacement : Token) :
    ∃ earlier record behind,
      list symbols false 0 (before ++ ⟨index, .instruction byte opcode (some operand)⟩ :: later) =
        earlier ++ record :: behind ∧
      list symbols false 0
          (before ++ ⟨index, .instruction byte opcode (some replacement)⟩ :: later) =
        earlier ++ record.withOperand symbols.labels byte opcode replacement :: behind ∧
      record.located = ⟨index, .instruction byte opcode (some operand)⟩ := by
  obtain ⟨overflowedThen, pcThen, behind⟩ := list_append symbols false 0 before
  exact ⟨_, _, _, behind _, behind _, rfl⟩

end Record

/-- An instruction emits its opcode byte and the bytes of its operand. -/
theorem Emission.exists_bytes_ofInstruction (labels : LabelTable) (byte : UInt8)
    (opcode : Opcode) (operand : Option Token) :
    ∃ own, (ofInstruction labels byte opcode operand).bytes = byte :: own ∧
      own.length = opcode.operand.size := by
  have length := length_ofInstruction labels byte opcode operand
  have leads : (ofInstruction labels byte opcode operand).bytes.head? = some byte := by
    unfold ofInstruction
    cases opcode.operand with
    | none => rfl
    | byte => cases byteOperand labels operand <;> rfl
    | word => cases wordOperand labels operand <;> rfl
  obtain ⟨own, isOwn⟩ := List.head?_eq_some_iff.mp leads
  rw [isOwn, List.length_cons, Opcode.length, Nat.add_comm] at length
  exact ⟨own, isOwn, Nat.add_left_cancel length⟩

/-- Both runs find the same symbols, and their records differ in that of the instruction only. -/
theorem Record.ofTokens_exchanged {tokens : List Token} {operand : Option Token}
    (starts : ⟨index, .instruction byte opcode operand⟩ ∈ Located.list tokens)
    (takes : opcode.operand ≠ .none) (follows : index + 1 < tokens.length)
    {replacement : Token} (notEquate : replacement ≠ Directive.equ.keyword) :
    Symbols.ofTokens (tokens.set (index + 1) replacement) = Symbols.ofTokens tokens ∧
      ∃ earlier record later,
        ofTokens tokens = earlier ++ record :: later ∧
        ofTokens (tokens.set (index + 1) replacement) =
          earlier ++ record.withOperand (Symbols.ofTokens tokens).labels byte opcode replacement ::
            later ∧
        record.located = ⟨index, .instruction byte opcode operand⟩ := by
  obtain ⟨own, before, later, isOwn, walked, exchanged⟩ :=
    Located.list_set_operand starts takes follows notEquate
  have sameSymbols : Symbols.ofTokens (tokens.set (index + 1) replacement) =
      Symbols.ofTokens tokens := by
    unfold Symbols.ofTokens
    rw [walked, exchanged, Survey.run_exchanged]
  refine ⟨sameSymbols, ?_⟩
  unfold ofTokens
  rw [sameSymbols, walked, exchanged, isOwn]
  exact list_exchanged (Symbols.ofTokens tokens) before later own replacement

theorem Assembler.summaries_exchanged (assembler : Assembler) {tokens : List Token}
    {operand : Option Token}
    (starts : ⟨index, .instruction byte opcode operand⟩ ∈ Located.list tokens)
    (takes : opcode.operand ≠ .none) (follows : index + 1 < tokens.length)
    {replacement : Token} (notEquate : replacement ≠ Directive.equ.keyword) :
    (assembler.assemble (tokens.set (index + 1) replacement)).2.summaries =
      (assembler.assemble tokens).2.summaries := by
  have nonempty : tokens ≠ [] := fun isEmpty => by
    rw [isEmpty] at follows
    exact Nat.not_lt_zero _ follows
  have stillNonempty : tokens.set (index + 1) replacement ≠ [] := by
    simpa using nonempty
  obtain ⟨own, before, later, _, walked, exchanged⟩ :=
    Located.list_set_operand starts takes follows notEquate
  show (assembler.passes (tokens.set (index + 1) replacement)).summaries =
    (assembler.passes tokens).summaries
  rw [passes_eq assembler nonempty, passes_eq assembler stillNonempty]
  dsimp only
  rw [← Survey.pc_run, ← Survey.pc_run, walked, exchanged,
    Survey.run_exchanged _ before later (some own) (some replacement)]
  simp only [summarize_exchanged _ _ before later own replacement]

end Exchange

/-! ### Output cut at a statement -/

section Cut

variable {tokens : List Token} {earlier later : List Record} {record : Record}

theorem bytes_of_cut (records : Record.ofTokens tokens = earlier ++ record :: later) :
    (assemble tokens).bytes =
      earlier.flatMap (fun record => record.emission.bytes) ++ record.emission.bytes ++
        later.flatMap (fun record => record.emission.bytes) := by
  rw [bytes_assemble, records, List.flatMap_append, List.flatMap_cons, List.append_assoc]

theorem diagnostics_of_cut (records : Record.ofTokens tokens = earlier ++ record :: later) :
    (assemble tokens).diagnostics =
      earlier.flatMap Record.diagnostics ++ record.ownDiagnostic?.toList ++
        ((if record.overflows then [⟨record.next, .addressOverflow⟩] else []) ++
          later.flatMap Record.diagnostics) := by
  rw [diagnostics_assemble, records, List.flatMap_append, List.flatMap_cons,
    Record.diagnostics_eq_own_append, List.append_assoc, List.append_assoc]

theorem ownDiagnostic?_of_cut (records : Record.ofTokens tokens = earlier ++ record :: later)
    {diagnostic : Diagnostic} (isOwn : diagnostic ∈ record.ownDiagnostic?) :
    diagnostic.pc = record.start ∧ diagnostic.fault ≠ .addressOverflow := by
  have member : record ∈ Record.ofTokens tokens := by simp [records]
  obtain ⟨atStart, noOverflow, _⟩ := Record.ownDiagnostic?_shown member isOwn
  exact ⟨atStart, noOverflow⟩

end Cut

/-- Operands do not affect layout. Take a statement of the walk that is an instruction with one
or two operand bytes and has a token behind it, and put any token but an equate in the place of
that token. Both passes end as before, with the same labels and the same origin. Among the bytes
only those of the operand can change, behind the opcode byte and behind the bytes of the earlier
statements, and their number stays. Among the diagnostics only the one of the statement itself
can come, go or change, which carries the address of the statement. -/
theorem operand_exchange_keeps_layout (assembler : Assembler) {tokens : List Token} {index : Nat}
    {byte : UInt8} {opcode : Opcode} {operand : Option Token}
    (starts : ⟨index, .instruction byte opcode operand⟩ ∈ Located.list tokens)
    (length : opcode.length = 2 ∨ opcode.length = 3) (follows : index + 1 < tokens.length)
    {replacement : Token} (notEquate : replacement ≠ "EQU".toList) :
    (assembler.assemble (tokens.set (index + 1) replacement)).2.summaries =
        (assembler.assemble tokens).2.summaries ∧
      (assembler.assemble (tokens.set (index + 1) replacement)).2.symbols =
        (assembler.assemble tokens).2.symbols ∧
      (assemble (tokens.set (index + 1) replacement)).origin = (assemble tokens).origin ∧
      (assemble (tokens.set (index + 1) replacement)).bytes.length =
        (assemble tokens).bytes.length ∧
      ∃ earlier record later, Record.ofTokens tokens = earlier ++ record :: later ∧
        record.located.index = index ∧
        (∃ own other : List UInt8,
          own.length = opcode.length - 1 ∧ other.length = opcode.length - 1 ∧
          (assemble tokens).bytes =
            earlier.flatMap (fun record => record.emission.bytes) ++ byte :: own ++
              later.flatMap (fun record => record.emission.bytes) ∧
          (assemble (tokens.set (index + 1) replacement)).bytes =
            earlier.flatMap (fun record => record.emission.bytes) ++ byte :: other ++
              later.flatMap (fun record => record.emission.bytes)) ∧
        ∃ (own other : Option Diagnostic) (behind : List Diagnostic),
          (∀ diagnostic, diagnostic ∈ own ∨ diagnostic ∈ other →
            diagnostic.pc = record.start ∧ diagnostic.fault ≠ .addressOverflow) ∧
          (assemble tokens).diagnostics =
            earlier.flatMap Record.diagnostics ++ own.toList ++ behind ∧
          (assemble (tokens.set (index + 1) replacement)).diagnostics =
            earlier.flatMap Record.diagnostics ++ other.toList ++ behind := by
  have takes : opcode.operand ≠ .none := by
    intro isNone
    rw [Opcode.length, isNone] at length
    exact absurd length (by decide)
  obtain ⟨sameSymbols, earlier, record, later, records, exchanged, isLocated⟩ :=
    Record.ofTokens_exchanged starts takes follows notEquate
  have member : record ∈ Record.ofTokens tokens := by simp [records]
  have emits : record.emission =
      Emission.ofInstruction (Symbols.ofTokens tokens).labels byte opcode operand := by
    rw [(Record.eq_of_mem_list member).2, isLocated]
    rfl
  obtain ⟨own, isOwn, ownLength⟩ := Emission.exists_bytes_ofInstruction
    (Symbols.ofTokens tokens).labels byte opcode operand
  obtain ⟨other, isOther, otherLength⟩ := Emission.exists_bytes_ofInstruction
    (Symbols.ofTokens tokens).labels byte opcode (some replacement)
  have size : opcode.operand.size = opcode.length - 1 := by
    rw [Opcode.length]
    omega
  have bytes : (assemble tokens).bytes =
      earlier.flatMap (fun record => record.emission.bytes) ++ byte :: own ++
        later.flatMap (fun record => record.emission.bytes) := by
    rw [bytes_of_cut records, emits, isOwn]
  have otherBytes : (assemble (tokens.set (index + 1) replacement)).bytes =
      earlier.flatMap (fun record => record.emission.bytes) ++ byte :: other ++
        later.flatMap (fun record => record.emission.bytes) := by
    rw [bytes_of_cut exchanged, ← isOther]
    rfl
  refine ⟨assembler.summaries_exchanged starts takes follows notEquate, ?_, ?_, ?_, earlier,
    record, later, records, by rw [isLocated], ?_, ?_⟩
  · rw [Assembler.symbols_assemble, Assembler.symbols_assemble, sameSymbols]
  · rw [origin_assemble, origin_assemble, sameSymbols]
  · rw [bytes, otherBytes]
    simp only [List.length_append, List.length_cons, ownLength, otherLength]
  · exact ⟨own, other, ownLength.trans size, otherLength.trans size, bytes, otherBytes⟩
  · refine ⟨record.ownDiagnostic?,
      (record.withOperand (Symbols.ofTokens tokens).labels byte opcode
        replacement).ownDiagnostic?,
      (if record.overflows then [⟨record.next, .addressOverflow⟩] else []) ++
        later.flatMap Record.diagnostics, ?_, ?_, ?_⟩
    · rintro diagnostic (isOwn | isOther)
      · exact ownDiagnostic?_of_cut records isOwn
      · exact ownDiagnostic?_of_cut exchanged isOther
    · exact diagnostics_of_cut records
    · exact diagnostics_of_cut exchanged

private def jumpThenLabel : List Token :=
  ["3E", "5", "C3", "DONE", "DONE:", "CD", "DONE"].map String.toList

/-- The target of the jump is exchanged for a token that defines a label anywhere else. -/
theorem operand_exchange_keeps_layout_jump :
    (⟨2, .instruction 0xC3 ⟨"JMP".toList, .word⟩ (some "DONE".toList)⟩ : Located) ∈
        Located.list jumpThenLabel ∧
      (assemble jumpThenLabel).bytes = [0x3E, 5, 0xC3, 5, 0, 0xCD, 5, 0] ∧
      (assemble (jumpThenLabel.set 3 "NOWHERE:".toList)).bytes =
        [0x3E, 5, 0xC3, 0, 0, 0xCD, 5, 0] ∧
      (Assembler.initial.assemble (jumpThenLabel.set 3 "NOWHERE:".toList)).2.symbols =
        (Assembler.initial.assemble jumpThenLabel).2.symbols := by
  have starts : (⟨2, .instruction 0xC3 ⟨"JMP".toList, .word⟩ (some "DONE".toList)⟩ : Located) ∈
      Located.list jumpThenLabel := by decide +kernel
  obtain ⟨_, sameSymbols, _⟩ := operand_exchange_keeps_layout Assembler.initial starts
    (Or.inr rfl) (by decide) (by decide : "NOWHERE:".toList ≠ "EQU".toList)
  exact ⟨starts, by decide +kernel, by decide +kernel, sameSymbols⟩

end Asm8080
