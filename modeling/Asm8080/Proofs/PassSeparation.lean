import Asm8080.Proofs.Diagnostics

/-!
Contract: each pass keeps to its own part of the assembler's state.

Owns:
- one walk for both passes, in which every statement works on the whole state by single effects
  and every branch asks which pass it is in;
- what a statement does to the whole state in either pass, branch by branch;
- that this walk is the pass as it is run;
- `passes_keep_apart`: the first pass leaves the output alone and the second the symbols, at
  every point of the walk.

Does not own: what the passes find out and write.
-/

namespace Asm8080

theorem Output.append_cons (output : Output) (record : Record) (rest : List Record) :
    output.append (record :: rest) = (output.append [record]).append rest := by
  simp [Output.append, ObjectCode.append, Bool.or_assoc]

theorem Output.overflowed_append (output : Output) (record : Record) :
    (output.append [record]).overflowed = (output.overflowed || record.overflows) := by
  simp [Output.append]

/-- A pass under way: the assembler that it works on, and its program counter. -/
structure Sweep where
  assembler : Assembler
  pc : Nat
deriving DecidableEq, Repr

namespace Sweep

/-! ### Single effects -/

/-- Emits a byte, at a distance from the counter. -/
def emit (sweep : Sweep) (offset : Nat) (byte : UInt8) : Sweep :=
  { sweep with
    assembler.output.object := sweep.assembler.output.object.push ⟨sweep.pc + offset, byte⟩ }

def emitFrom (sweep : Sweep) (offset : Nat) : List UInt8 → Sweep
  | [] => sweep
  | byte :: rest => (sweep.emit offset byte).emitFrom (offset + 1) rest

def write (sweep : Sweep) (text : Text) : Sweep :=
  { sweep with assembler.output.listing := sweep.assembler.output.listing ++ text }

def fail (sweep : Sweep) (fault : Fault) : Sweep :=
  { sweep with
    assembler.output.diagnostics := sweep.assembler.output.diagnostics ++ [⟨sweep.pc, fault⟩] }

/-- Shows a fault in the listing, and keeps it. -/
def refuse (sweep : Sweep) (text : Text) (fault : Fault) : Sweep :=
  (sweep.write text).fail fault

def define (sweep : Sweep) (index : Nat) (name : Text) (value : UInt16) : Sweep :=
  { sweep with assembler.symbols := sweep.assembler.symbols.define index name value }

def defineNothing (sweep : Sweep) (index : Nat) (name : Text) : Sweep :=
  { sweep with assembler.symbols := sweep.assembler.symbols.defineNothing index name }

def originAt (sweep : Sweep) (value : UInt16) : Sweep :=
  { sweep with assembler.symbols := sweep.assembler.symbols.originAt value }

def advance (sweep : Sweep) (size : Nat) : Sweep :=
  { sweep with pc := Counter.advance sweep.pc size }

/-! ### Statements of both passes -/

abbrev labels (sweep : Sweep) : LabelTable :=
  sweep.assembler.symbols.labels

def label (sweep : Sweep) (pass : Pass) (index : Nat) (name : Text) : Sweep :=
  match pass with
  | .first => sweep.define index name (UInt16.ofNat sweep.pc)
  | .second =>
      if sweep.assembler.symbols.isRepetition index then
        sweep.refuse (Listing.duplicate (.duplicateLabel name)) (.duplicateLabel name)
      else sweep.write (Listing.label name)

def equate (sweep : Sweep) (pass : Pass) (index : Nat) (name : Text) (operand : Option Token) :
    Sweep :=
  let value? := Counter.operandValue? sweep.labels index operand
  match pass with
  | .first =>
      match value? with
      | some value => sweep.define index name value
      | none => sweep.defineNothing index name
  | .second =>
      if sweep.assembler.symbols.isRepetition index then
        sweep.refuse (Listing.duplicate (.duplicateLabel name)) (.duplicateLabel name)
      else
        match value? with
        | some value => sweep.write (Listing.equate name value)
        | none => sweep.refuse (Listing.badEquate name .missingEquValue) .missingEquValue

def origin (sweep : Sweep) (pass : Pass) (index : Nat) (operand : Option Token) : Sweep :=
  match Counter.operandValue? sweep.labels index operand with
  | some value =>
      let moved := { sweep with pc := value.toNat }
      match pass with
      | .first => moved.originAt value
      | .second => moved.write (Listing.origin value)
  | none =>
      match pass with
      | .first => sweep
      | .second => sweep.refuse (Listing.badDirective "org".toList .missingOrigin) .missingOrigin

/-- A list of values, which has a size even if it has no bytes. -/
def data (sweep : Sweep) (pass : Pass) (keyword : Text) (size : Nat)
    (decoded : Option (Resolved (List UInt8))) : Sweep :=
  let written :=
    match pass with
    | .first => sweep
    | .second =>
        match decoded with
        | some data => (sweep.write (Listing.directive keyword data.shown)).emitFrom 0 data.value
        | none =>
            (sweep.refuse (Listing.badDirective keyword .invalidData) .invalidData).emitFrom 0
              (List.replicate size 0)
  written.advance size

def reserve (sweep : Sweep) (pass : Pass) (index : Nat) (operand : Option Token) : Sweep :=
  match Counter.operandValue? sweep.labels index operand with
  | some count =>
      let written :=
        match pass with
        | .first => sweep
        | .second =>
            (sweep.write (Listing.directive "ds".toList (Numeral.decimal count.toNat))).emitFrom 0
              (List.replicate count.toNat 0)
      written.advance count.toNat
  | none =>
      match pass with
      | .first => sweep
      | .second => sweep.refuse (Listing.badDirective "ds".toList .missingCount) .missingCount

def instruction (sweep : Sweep) (pass : Pass) (byte : UInt8) (opcode : Opcode)
    (operand : Option Token) : Sweep :=
  let written :=
    match pass with
    | .first => sweep
    | .second =>
        match opcode.operand with
        | .none => (sweep.emit 0 byte).write (Listing.instruction [byte] opcode.mnemonic none)
        | .byte =>
            let begun := sweep.emit 0 byte
            match Emission.byteOperand sweep.labels operand with
            | .ok resolved =>
                (begun.emit 1 resolved.value).write
                  (Listing.instruction [byte, resolved.value] opcode.mnemonic
                    (some resolved.shown))
            | .error fault =>
                (begun.emit 1 0).refuse (Listing.badByte byte opcode.mnemonic fault) fault
        | .word =>
            let begun := sweep.emit 0 byte
            match Emission.wordOperand sweep.labels operand with
            | .ok resolved =>
                (begun.emitFrom 1 (Emission.wordBytes resolved.value)).write
                  (Listing.instruction (byte :: Emission.wordBytes resolved.value) opcode.mnemonic
                    (some resolved.shown))
            | .error fault =>
                (begun.emitFrom 1 [0, 0]).refuse (Listing.badWord byte opcode.mnemonic fault) fault
  written.advance opcode.length

def mention (sweep : Sweep) (pass : Pass) (token : Token) : Sweep :=
  match pass with
  | .first => sweep
  | .second =>
      if (sweep.labels.resolve? token).isSome then sweep.write (Listing.label token)
      else sweep.refuse (Listing.badToken (.unknownOpcode token)) (.unknownOpcode token)

/-- A statement that is a fault in itself. -/
def mistake (sweep : Sweep) (pass : Pass) (text : Text) (fault : Fault) : Sweep :=
  match pass with
  | .first => sweep
  | .second => sweep.refuse text fault

def handle (sweep : Sweep) (pass : Pass) (located : Located) : Sweep :=
  match located.statement with
  | .label name => sweep.label pass located.index name
  | .equate name operand => sweep.equate pass located.index name operand
  | .origin operand => sweep.origin pass located.index operand
  | .bytes operand =>
      sweep.data pass "db".toList (Counter.listSize ValueList.bytesSize operand)
        (operand.bind (ValueList.bytes? sweep.labels))
  | .reserve operand => sweep.reserve pass located.index operand
  | .words operand =>
      sweep.data pass "dw".toList (Counter.listSize ValueList.wordsSize operand)
        ((operand.bind (ValueList.words? sweep.labels)).map fun data =>
          ⟨data.value.flatMap Emission.wordBytes, data.shown⟩)
  | .strayEquate _ =>
      sweep.mistake pass (Listing.badDirective "equ".toList .missingEquLabel) .missingEquLabel
  | .finish =>
      match pass with
      | .first => sweep
      | .second => sweep.write Listing.finish
  | .instruction byte opcode operand => sweep.instruction pass byte opcode operand
  | .undefined token =>
      sweep.mistake pass (Listing.badToken (.unknownInstruction token)) (.unknownInstruction token)
  | .mention token => sweep.mention pass token

/-! ### The walk of both passes -/

def openRow (sweep : Sweep) (pass : Pass) : Sweep :=
  match pass with
  | .first => sweep
  | .second => sweep.write (Listing.address sweep.pc)

/-- Reports a counter behind the address space, once. -/
def checkLimit (sweep : Sweep) (pass : Pass) : Sweep :=
  match pass with
  | .first => sweep
  | .second =>
      if sweep.assembler.output.overflowed = false ∧ Record.addressLimit < sweep.pc then
        let reported := sweep.refuse (Listing.badToken .addressOverflow) .addressOverflow
        { reported with assembler.output.overflowed := true }
      else sweep

def visit (pass : Pass) (sweep : Sweep) (located : Located) : Sweep :=
  ((sweep.openRow pass).handle pass located).checkLimit pass

def run (pass : Pass) (assembler : Assembler) (statements : List Located) : Sweep :=
  statements.foldl (visit pass) ⟨assembler, 0⟩

/-! ### What a statement does -/

/-- In the first pass a statement changes the symbols and the counter only. -/
theorem visit_first (sweep : Sweep) (located : Located) :
    sweep.visit .first located =
      ⟨{ sweep.assembler with
          symbols := Survey.symbolsAfter sweep.assembler.symbols sweep.pc located },
        Counter.after sweep.labels sweep.pc located⟩ := by
  obtain ⟨index, statement⟩ := located
  cases statement with
  | equate name operand =>
    simp only [visit, openRow, handle, equate, checkLimit, Survey.symbolsAfter, Counter.after]
    cases Counter.operandValue? sweep.labels index operand <;> rfl
  | origin operand =>
    simp only [visit, openRow, handle, origin, checkLimit, Survey.symbolsAfter, Counter.after]
    cases Counter.operandValue? sweep.labels index operand <;> rfl
  | reserve operand =>
    simp only [visit, openRow, handle, reserve, checkLimit, Survey.symbolsAfter, Counter.after]
    cases Counter.operandValue? sweep.labels index operand <;> rfl
  | label | bytes | words | strayEquate | finish | instruction | undefined | mention => rfl

theorem emitFrom_eq (sweep : Sweep) (offset : Nat) (bytes : List UInt8) :
    sweep.emitFrom offset bytes =
      { sweep with
        assembler.output.object :=
          sweep.assembler.output.object.append (Cell.place (sweep.pc + offset) bytes) } := by
  induction bytes generalizing sweep offset with
  | nil => rfl
  | cons byte rest inductionHypothesis =>
    rw [emitFrom, inductionHypothesis]
    rfl

/-- All effects of an emission at once. -/
def put (sweep : Sweep) (emission : Emission) : Sweep :=
  { sweep with
    assembler.output.object :=
      sweep.assembler.output.object.append (Cell.place sweep.pc emission.bytes)
    assembler.output.listing := sweep.assembler.output.listing ++ emission.entry
    assembler.output.diagnostics :=
      sweep.assembler.output.diagnostics ++ (emission.fault.map (⟨sweep.pc, ·⟩)).toList }

theorem emitFrom_write (sweep : Sweep) (entry : Text) (bytes : List UInt8) :
    (sweep.write entry).emitFrom 0 bytes = sweep.put ⟨entry, bytes, none⟩ := by
  simp [emitFrom_eq, write, put]

theorem emitFrom_refuse (sweep : Sweep) (entry : Text) (bytes : List UInt8) (fault : Fault) :
    (sweep.refuse entry fault).emitFrom 0 bytes = sweep.put ⟨entry, bytes, some fault⟩ := by
  simp [emitFrom_eq, refuse, write, fail, put]

theorem write_emitFrom (sweep : Sweep) (entry : Text) (bytes : List UInt8) :
    (sweep.emitFrom 0 bytes).write entry = sweep.put ⟨entry, bytes, none⟩ := by
  simp [emitFrom_eq, write, put]

theorem refuse_emitFrom (sweep : Sweep) (entry : Text) (bytes : List UInt8) (fault : Fault) :
    (sweep.emitFrom 0 bytes).refuse entry fault = sweep.put ⟨entry, bytes, some fault⟩ := by
  simp [emitFrom_eq, refuse, write, fail, put]

theorem data_second_some (sweep : Sweep) (keyword : Text) (size : Nat)
    (decoded : Resolved (List UInt8)) :
    sweep.data .second keyword size (some decoded) =
      (sweep.put ⟨Listing.directive keyword decoded.shown, decoded.value, none⟩).advance size :=
  congrArg (advance · size) (emitFrom_write sweep _ decoded.value)

theorem data_second_none (sweep : Sweep) (keyword : Text) (size : Nat) :
    sweep.data .second keyword size none =
      (sweep.put (.failure (Listing.badDirective keyword .invalidData) size .invalidData)).advance
        size :=
  congrArg (advance · size) (emitFrom_refuse sweep _ (List.replicate size 0) _)

theorem instruction_second (sweep : Sweep) (byte : UInt8) (opcode : Opcode)
    (operand : Option Token) :
    sweep.instruction .second byte opcode operand =
      (sweep.put (Emission.ofInstruction sweep.labels byte opcode operand)).advance
        opcode.length := by
  simp only [instruction, Emission.ofInstruction]
  cases opcode.operand with
  | none => exact congrArg (advance · opcode.length) (write_emitFrom sweep _ [byte])
  | byte =>
    cases Emission.byteOperand sweep.labels operand with
    | ok resolved =>
      exact congrArg (advance · opcode.length) (write_emitFrom sweep _ [byte, resolved.value])
    | error fault =>
      exact congrArg (advance · opcode.length) (refuse_emitFrom sweep _ [byte, 0] fault)
  | word =>
    cases Emission.wordOperand sweep.labels operand with
    | ok resolved =>
      exact congrArg (advance · opcode.length)
        (write_emitFrom sweep _ (byte :: Emission.wordBytes resolved.value))
    | error fault =>
      exact congrArg (advance · opcode.length) (refuse_emitFrom sweep _ [byte, 0, 0] fault)

/-- In the second pass a handler makes the statement's emission and moves the counter. -/
theorem handle_second (sweep : Sweep) (located : Located) :
    sweep.handle .second located =
      { sweep.put (Emission.ofStatement sweep.assembler.symbols located) with
        pc := Counter.after sweep.labels sweep.pc located } := by
  obtain ⟨index, statement⟩ := located
  cases statement with
  | label name =>
    simp only [handle, label, Emission.ofStatement, Counter.after]
    split
    · exact emitFrom_refuse sweep _ [] _
    · exact emitFrom_write sweep _ []
  | equate name operand =>
    simp only [handle, equate, Emission.ofStatement, Counter.after]
    split
    · exact emitFrom_refuse sweep _ [] _
    · cases Counter.operandValue? sweep.labels index operand with
      | some value => exact emitFrom_write sweep _ []
      | none => exact emitFrom_refuse sweep _ [] _
  | origin operand =>
    simp only [handle, origin, Emission.ofStatement, Counter.after]
    cases Counter.operandValue? sweep.labels index operand with
    | some value =>
      exact congrArg (fun written : Sweep => { written with pc := value.toNat })
        (emitFrom_write sweep _ [])
    | none => exact emitFrom_refuse sweep _ [] _
  | bytes operand =>
    simp only [handle, Emission.ofStatement, Emission.ofBytes, Counter.after]
    cases operand.bind (ValueList.bytes? sweep.labels) with
    | some decoded => exact data_second_some sweep _ _ decoded
    | none => exact data_second_none sweep _ _
  | words operand =>
    simp only [handle, Emission.ofStatement, Emission.ofWords, Counter.after]
    cases operand.bind (ValueList.words? sweep.labels) with
    | some decoded => exact data_second_some sweep _ _ _
    | none => exact data_second_none sweep _ _
  | reserve operand =>
    simp only [handle, reserve, Emission.ofStatement, Counter.after]
    cases Counter.operandValue? sweep.labels index operand with
    | some count =>
      exact congrArg (advance · count.toNat)
        (emitFrom_write sweep _ (List.replicate count.toNat 0))
    | none => exact emitFrom_refuse sweep _ [] _
  | instruction byte opcode operand => exact instruction_second sweep byte opcode operand
  | strayEquate operand => exact emitFrom_refuse sweep _ [] _
  | undefined token => exact emitFrom_refuse sweep _ [] _
  | finish => exact emitFrom_write sweep _ []
  | mention token =>
    simp only [handle, mention, Emission.ofStatement, Emission.ofMention, Counter.after]
    by_cases known : (sweep.labels.resolve? token).isSome = true
    · rw [if_pos known, if_pos known]
      exact emitFrom_write sweep _ []
    · rw [if_neg known, if_neg known]
      exact emitFrom_refuse sweep _ [] _

/-- The record that the second pass makes of a statement. -/
def recordOf (sweep : Sweep) (located : Located) : Record :=
  let next := Counter.after sweep.labels sweep.pc located
  ⟨located, sweep.pc, next, Emission.ofStatement sweep.assembler.symbols located,
    !sweep.assembler.output.overflowed && decide (Record.addressLimit < next)⟩

/-- In the second pass a statement adds its record to the output, and moves the counter. -/
theorem visit_second (sweep : Sweep) (located : Located) :
    sweep.visit .second located =
      ⟨{ sweep.assembler with
          output := sweep.assembler.output.append [sweep.recordOf located] },
        (sweep.recordOf located).next⟩ := by
  rw [visit, handle_second (sweep.openRow .second) located, checkLimit]
  by_cases overflows : sweep.assembler.output.overflowed = false ∧
      Record.addressLimit < Counter.after sweep.labels sweep.pc located
  · refine (if_pos overflows).trans ?_
    simp [Output.append, Record.diagnostics_eq_own_append, Record.ownDiagnostic?, Record.text,
      Record.cells, recordOf, openRow, put, write, refuse, fail, overflows]
  · have quiet : (!sweep.assembler.output.overflowed &&
        decide (Record.addressLimit < Counter.after sweep.labels sweep.pc located)) = false := by
      simpa using overflows
    refine (if_neg overflows).trans ?_
    simp [Output.append, Record.diagnostics_eq_own_append, Record.ownDiagnostic?, Record.text,
      Record.cells, recordOf, openRow, put, write, quiet]

/-! ### What a walk does -/

theorem foldl_visit_first (sweep : Sweep) (statements : List Located) :
    statements.foldl (visit .first) sweep =
      let survey := statements.foldl Survey.step ⟨sweep.pc, sweep.assembler.symbols⟩
      ⟨{ sweep.assembler with symbols := survey.symbols }, survey.pc⟩ := by
  induction statements generalizing sweep with
  | nil => rfl
  | cons head tail inductionHypothesis =>
    rw [List.foldl_cons, visit_first, inductionHypothesis]
    rfl

theorem foldl_visit_second (sweep : Sweep) (statements : List Located) :
    statements.foldl (visit .second) sweep =
      ⟨{ sweep.assembler with
          output := sweep.assembler.output.append (Record.list sweep.assembler.symbols
            sweep.assembler.output.overflowed sweep.pc statements) },
        statements.foldl (Counter.after sweep.labels) sweep.pc⟩ := by
  induction statements generalizing sweep with
  | nil => simp [Record.list, Output.append, ObjectCode.append]
  | cons head tail inductionHypothesis =>
    rw [Record.list, Output.append_cons, List.foldl_cons, visit_second, inductionHypothesis]
    simp only [Output.overflowed_append]
    rfl

/-- The walk is the pass: it ends in the state and at the counter that the pass ends in. -/
theorem runPass_eq_run (pass : Pass) (assembler : Assembler) (tokens : List Token) :
    assembler.runPass pass tokens =
      (Assembler.summarize pass (run pass assembler (Located.list tokens)).pc (Located.list tokens),
        (run pass assembler (Located.list tokens)).assembler) := by
  cases pass with
  | first =>
    rw [run, foldl_visit_first]
    rfl
  | second =>
    rw [run, foldl_visit_second, Assembler.runPass, Record.finalCounter_list]

theorem output_run_first (assembler : Assembler) (statements : List Located) :
    (run .first assembler statements).assembler.output = assembler.output := by
  rw [run, foldl_visit_first]

theorem symbols_run_second (assembler : Assembler) (statements : List Located) :
    (run .second assembler statements).assembler.symbols = assembler.symbols := by
  rw [run, foldl_visit_second]

end Sweep

/-- Both passes are one walk, in which every statement works on the whole state. After any number
of statements the walk has left the output as it was in the first pass, and the symbols in the
second. So for every state and every token list the first pass keeps object code, listing,
diagnostics and the overflow mark, and the second the labels, the origin and the repeated
definitions. -/
theorem passes_keep_apart (assembler : Assembler) (tokens : List Token) :
    let first := (assembler.runPass .first tokens).2
    let second := (assembler.runPass .second tokens).2
    let statements := Located.list tokens
    (∀ pass, assembler.runPass pass tokens =
      (Assembler.summarize pass (Sweep.run pass assembler statements).pc statements,
        (Sweep.run pass assembler statements).assembler)) ∧
    (∀ count,
      (Sweep.run .first assembler (statements.take count)).assembler.output = assembler.output ∧
      (Sweep.run .second assembler (statements.take count)).assembler.symbols =
        assembler.symbols) ∧
    (first.output.object = assembler.output.object ∧
      first.output.listing = assembler.output.listing ∧
      first.output.diagnostics = assembler.output.diagnostics ∧
      first.output.overflowed = assembler.output.overflowed) ∧
    (second.symbols.labels = assembler.symbols.labels ∧
      second.symbols.origin = assembler.symbols.origin ∧
      second.symbols.repetitions = assembler.symbols.repetitions) := by
  refine ⟨fun pass => Sweep.runPass_eq_run pass assembler tokens, fun count => ⟨?_, ?_⟩, ?_, ?_⟩
  · exact Sweep.output_run_first assembler _
  · exact Sweep.symbols_run_second assembler _
  · rw [Sweep.runPass_eq_run, Sweep.output_run_first]
    exact ⟨rfl, rfl, rfl, rfl⟩
  · rw [Sweep.runPass_eq_run, Sweep.symbols_run_second]
    exact ⟨rfl, rfl, rfl⟩

end Asm8080
