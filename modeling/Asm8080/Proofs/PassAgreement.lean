import Asm8080.Proofs.LabelView
import Asm8080.Proofs.Run

/-!
Contract: both passes walk the same statements at the same places.

Owns:
- the places of a pass: token index and program counter before each statement;
- agreement of the places, although the first pass reads a table that is still
  being built and the second pass the finished one;
- agreement of the summaries that follows from it;
- the finished table in terms of the second pass: each name has the label of the
  first record that binds it.

Does not own: what the passes do at these places.
-/

namespace Asm8080

/-- The token index and the program counter that a pass stands at before each
statement, in the order of the walk. -/
def Assembler.places (assembler : Assembler) (pass : Pass) (tokens : List Token) :
    List (Nat × Nat) :=
  let statements := Located.list tokens
  match pass with
  | .first =>
      List.zipWith (fun located survey => (located.index, survey.pc)) statements
        (statements.scanl Survey.step ⟨0, assembler.symbols⟩)
  | .second =>
      (Record.list assembler.symbols assembler.output.overflowed 0 statements).map fun record =>
        (record.located.index, record.start)

namespace Survey.Underway

variable {final : LabelTable} {index : Nat} {survey : Survey} {statements : List Located}

/-- From any point of the first pass on, its places are those of the records. -/
theorem places_eq (underway : Underway final index survey statements) (symbols : Symbols)
    (finished : symbols.labels = final) (overflowed : Bool) :
    List.zipWith (fun located survey => (located.index, survey.pc)) statements
        (statements.scanl Survey.step survey) =
      (Record.list symbols overflowed survey.pc statements).map fun record =>
        (record.located.index, record.start) := by
  induction statements generalizing index survey overflowed with
  | nil => rfl
  | cons head tail inductionHypothesis =>
      have sameNext : Counter.after symbols.labels survey.pc head = (survey.step head).pc := by
        rw [finished]
        exact underway.after_eq survey.pc
      simp only [List.scanl_cons, List.zipWith_cons_cons, Record.list, List.map_cons, sameNext]
      rw [inductionHypothesis underway.step]

theorem pc_foldl (underway : Underway final index survey statements) :
    (statements.foldl Survey.step survey).pc =
      statements.foldl (Counter.after final) survey.pc := by
  induction statements generalizing index survey with
  | nil => rfl
  | cons head tail inductionHypothesis =>
      simp only [List.foldl_cons]
      rw [inductionHypothesis underway.step, underway.after_eq survey.pc]
      rfl

/-- A name that has no label yet gets that of the first record to bind it. -/
theorem find?_eq_or_findSome? (underway : Underway final index survey statements)
    (symbols : Symbols) (finished : symbols.labels = final) (overflowed : Bool) (name : Text) :
    final.find? name =
      (survey.symbols.labels.find? name).or
        ((Record.list symbols overflowed survey.pc statements).findSome? fun record =>
          record.located.bindingOf? final record.start name) := by
  induction statements generalizing index survey overflowed with
  | nil =>
      rw [← underway.ends]
      simp [Record.list]
  | cons head tail inductionHypothesis =>
      have sameNext : Counter.after symbols.labels survey.pc head = (survey.step head).pc := by
        rw [finished]
        exact underway.after_eq survey.pc
      have behind : (survey.step head).symbols.labels.find? name =
          (survey.symbols.labels.find? name).or (head.bindingOf? final survey.pc name) := by
        rw [underway.bindingOf?_eq survey.pc name]
        exact Survey.find?_symbolsAfter survey.symbols survey.pc head name
      rw [inductionHypothesis underway.step (overflowed ||
        (!overflowed && decide (Record.addressLimit < (survey.step head).pc))), behind]
      simp only [Record.list, List.findSome?_cons, sameNext]
      cases survey.symbols.labels.find? name with
      | some label => simp
      | none =>
          cases head.bindingOf? final survey.pc name with
          | some label => simp
          | none => simp

end Survey.Underway

/-- The finished table knows a name by the first record that binds it. -/
theorem Symbols.find?_ofTokens (tokens : List Token) (name : Text) :
    (Symbols.ofTokens tokens).labels.find? name =
      (Record.ofTokens tokens).findSome? fun record =>
        record.located.bindingOf? (Symbols.ofTokens tokens).labels record.start name := by
  have walked := (Survey.Underway.start tokens).find?_eq_or_findSome?
    (Symbols.ofTokens tokens) rfl false name
  have nothingYet : (Symbols.empty).labels.find? name = none := rfl
  rw [nothingYet, Option.none_or] at walked
  exact walked

theorem Survey.pc_run (tokens : List Token) :
    (Survey.run Symbols.empty (Located.list tokens)).pc =
      Record.finalCounter (Record.ofTokens tokens) := by
  unfold Record.ofTokens
  rw [Record.finalCounter_list]
  exact (Survey.Underway.start tokens).pc_foldl

/-- The second pass meets every statement at the token and the counter at which the
first pass met it, and the two summaries agree on counter, tokens and end. -/
theorem Assembler.passes_walk_alike (assembler : Assembler) {tokens : List Token}
    (nonempty : tokens ≠ []) :
    (assembler.reset.perform .first tokens).places .second tokens =
        assembler.reset.places .first tokens ∧
      ∃ endPc tokensConsumed ended,
        (assembler.assemble tokens).2.summaries =
          [⟨.first, endPc, tokensConsumed, ended⟩, ⟨.second, endPc, tokensConsumed, ended⟩] := by
  constructor
  · exact ((Survey.Underway.start tokens).places_eq (Symbols.ofTokens tokens) rfl false).symm
  · refine ⟨Record.finalCounter (Record.ofTokens tokens),
      Located.totalWidth (Located.list tokens), Located.ended (Located.list tokens), ?_⟩
    show (assembler.passes tokens).summaries = _
    rw [Assembler.passes_eq assembler nonempty, Survey.pc_run tokens]
    rfl

private def lateName : List Token :=
  ["DS", "N", "N", "EQU", "2", "DS", "N", "A:"].map String.toList

/-- The first use of a late name has no value in either pass, although the second pass
knows the name. -/
theorem Assembler.passes_walk_alike_lateName :
    lateName ≠ [] ∧
      (initial.perform .first lateName).places .second lateName =
        [(0, 0), (2, 0), (5, 0), (7, 2)] :=
  ⟨by decide, (passes_walk_alike initial (by decide)).1.trans (by decide +kernel)⟩

end Asm8080
