import Asm8080.Proofs.Run
import Asm8080.Proofs.Walk

/-!
Contract: what stands behind an end directive.

Owns:
- the reading of the end keyword: an end directive, or the name of an equate;
- a walk that ends, which comes to its end directive in the same way whatever follows;
- a run in terms of its walk: token lists with the same statements are assembled alike;
- `tokens_behind_end_ignored_iff`: other tokens may take the place of those behind the end
  directive, just if they do not begin with an equate.

Does not own: a program without an end directive, which ends with its tokens.
-/

namespace Asm8080

/-! ### The end keyword -/

namespace Statement

/-- The end keyword is an end directive, unless an equate makes it a name. -/
theorem read_eq_finish_iff {token : Token} {rest : List Token} :
    read token rest = .finish ↔
      token = Directive.end_.keyword ∧ equateFollows rest = false := by
  constructor
  · intro isRead
    unfold read at isRead
    split at isRead
    · split at isRead <;> cases isRead
    · rename_i undefining
      split at isRead
      case h_2 isEnd =>
        have isKeyword := (Directive.keyword_of_ofToken? isEnd).symm
        rw [isKeyword] at undefining
        refine ⟨isKeyword, Bool.eq_false_iff.mpr fun follows => undefining ?_⟩
        rw [definesLabel, follows]
        rfl
      case h_7 =>
        split at isRead
        · unfold ofHex at isRead
          split at isRead <;> cases isRead
        · cases isRead
      all_goals cases isRead
  · rintro ⟨rfl, noEquate⟩
    rw [read, definesLabel, noEquate]
    rfl

theorem read_end_of_equateFollows {rest : List Token} (follows : equateFollows rest = true) :
    read Directive.end_.keyword rest =
      .equate (Label.fullName Directive.end_.keyword) rest.tail.head? := by
  rw [read, definesLabel, follows]
  rfl

end Statement

/-! ### Walks that end -/

namespace Located

theorem ended_cons {located : Located} (unfinished : located.statement ≠ .finish)
    (later : List Located) : ended (located :: later) = ended later := by
  unfold ended
  cases later with
  | nil => simpa using unfinished
  | cons next behind => rw [List.getLast?_cons_cons]

theorem totalWidth_append (left right : List Located) :
    totalWidth (left ++ right) = totalWidth left + totalWidth right := by
  induction left with
  | nil => exact (Nat.zero_add _).symm
  | cons head tail inductionHypothesis =>
      show head.statement.width + totalWidth (tail ++ right) =
        head.statement.width + totalWidth tail + totalWidth right
      rw [inductionHypothesis, Nat.add_assoc]

theorem listFrom_end {rest : List Token} (noEquate : Statement.equateFollows rest = false)
    (index : Nat) :
    listFrom index 0 (Directive.end_.keyword :: rest) = [⟨index, .finish⟩] := by
  rw [listFrom, Statement.read_eq_finish_iff.mpr ⟨rfl, noEquate⟩]
  rfl

/-- Where an equate follows the end keyword, the walk goes on behind the equate. -/
theorem two_le_totalWidth_listFrom {rest : List Token}
    (follows : Statement.equateFollows rest = true) (index : Nat) :
    2 ≤ totalWidth (listFrom index 0 (Directive.end_.keyword :: rest)) := by
  rw [listFrom, Statement.read_end_of_equateFollows follows, if_neg (by simp)]
  show 2 ≤ 2 + Statement.operandWidth rest.tail.head? + totalWidth _
  omega

/-- A walk that ends comes to its end directive past some tokens in front, and meets the same
statements there whatever stands behind the end keyword. -/
theorem exists_front_of_ended {index skip : Nat} {tokens : List Token}
    (isEnded : ended (listFrom index skip tokens) = true) :
    ∃ front behind before,
      tokens = front ++ Directive.end_.keyword :: behind ∧
      Statement.equateFollows behind = false ∧
      front.length = skip + totalWidth before ∧
      ∀ others, listFrom index skip (front ++ Directive.end_.keyword :: others) =
        before ++ listFrom (index + front.length) 0 (Directive.end_.keyword :: others) := by
  induction tokens generalizing index skip with
  | nil => simp [listFrom, ended] at isEnded
  | cons head tail inductionHypothesis =>
      have shifted (front : List Token) :
          index + 1 + front.length = index + (head :: front).length := by
        rw [List.length_cons]
        omega
      cases skip with
      | succ skip =>
          obtain ⟨front, behind, before, isTail, noEquate, length, walks⟩ :=
            inductionHypothesis isEnded
          refine ⟨head :: front, behind, before, by rw [isTail]; rfl, noEquate, ?_, ?_⟩
          · rw [List.length_cons, length]
            omega
          · intro others
            rw [← shifted]
            exact walks others
      | zero =>
          by_cases finished : Statement.read head tail = .finish
          · obtain ⟨isEnd, noEquate⟩ := Statement.read_eq_finish_iff.mp finished
            exact ⟨[], tail, [], by rw [isEnd]; rfl, noEquate, rfl, fun _ => rfl⟩
          · rw [listFrom, if_neg finished, ended_cons finished] at isEnded
            obtain ⟨front, behind, before, isTail, noEquate, length, walks⟩ :=
              inductionHypothesis isEnded
            refine ⟨head :: front, behind, ⟨index, Statement.read head tail⟩ :: before,
              by rw [isTail]; rfl, noEquate, ?_, ?_⟩
            · have positive := (Statement.width_bounds (Statement.read head tail)).1
              rw [List.length_cons, length]
              show _ = 0 + ((Statement.read head tail).width + totalWidth before)
              omega
            · intro others
              have sameStatement : Statement.read head (front ++ Directive.end_.keyword :: others) =
                  Statement.read head tail := by
                rw [isTail]
                exact Statement.read_before (by decide) head front others behind
              rw [List.cons_append, listFrom, sameStatement, if_neg finished, walks, ← shifted]
              rfl

end Located

/-! ### Runs and walks -/

namespace Assembler

/-- A run asks the tokens for their statements only. -/
theorem assemble_congr (assembler : Assembler) {tokens others : List Token}
    (nonempty : tokens ≠ []) (othersNonempty : others ≠ [])
    (sameWalk : Located.list tokens = Located.list others) :
    assembler.assemble tokens = assembler.assemble others := by
  have notEmpty := List.isEmpty_eq_false_iff.mpr nonempty
  have othersNotEmpty := List.isEmpty_eq_false_iff.mpr othersNonempty
  unfold assemble passes result perform runPass
  rw [notEmpty, othersNotEmpty, sameWalk]

theorem summary_of_mem (assembler : Assembler) {tokens : List Token} {summary : PassSummary}
    (member : summary ∈ (assembler.assemble tokens).2.summaries) :
    tokens ≠ [] ∧ summary.tokensConsumed = Located.totalWidth (Located.list tokens) ∧
      summary.ended = Located.ended (Located.list tokens) := by
  have nonempty : tokens ≠ [] := by
    rintro rfl
    cases member
  rw [assemble, passes_eq assembler nonempty] at member
  simp only [List.mem_cons, List.not_mem_nil, or_false] at member
  rcases member with isFirst | isSecond
  · rw [isFirst]
    exact ⟨nonempty, rfl, rfl⟩
  · rw [isSecond]
    exact ⟨nonempty, rfl, rfl⟩

end Assembler

/-- Nothing behind an end directive matters. Where a run ended at an end directive, keep the
tokens that its passes walked and put any others behind them. The run over these gives the same
assembly and leaves the same state, labels and summaries included, just if the others do not
begin with an equate, which would make the end keyword a name. -/
theorem tokens_behind_end_ignored_iff (assembler : Assembler) {tokens : List Token}
    {summary : PassSummary} (isSummary : summary ∈ (assembler.assemble tokens).2.summaries)
    (isEnded : summary.ended = true) (others : List Token) :
    assembler.assemble (tokens.take summary.tokensConsumed ++ others) =
        assembler.assemble tokens ↔
      others.head? ≠ some "EQU".toList := by
  obtain ⟨nonempty, consumed, ends⟩ := assembler.summary_of_mem isSummary
  obtain ⟨front, behind, before, isTokens, noEquate, length, walks⟩ :=
    Located.exists_front_of_ended (ends.symm.trans isEnded)
  have walked : Located.list tokens = before ++ [⟨front.length, .finish⟩] := by
    rw [Located.list, isTokens, walks, Located.listFrom_end noEquate, Nat.zero_add]
  have width : summary.tokensConsumed = front.length + 1 := by
    rw [consumed, walked, Located.totalWidth_append, length, Nat.zero_add]
    rfl
  have isCut : tokens.take summary.tokensConsumed ++ others =
      front ++ Directive.end_.keyword :: others := by
    rw [width, isTokens, List.take_append, List.take_of_length_le (Nat.le_succ _),
      Nat.add_sub_cancel_left]
    simp
  have cutNonempty : front ++ Directive.end_.keyword :: others ≠ [] := by simp
  have equate : Statement.equateFollows others = false ↔ others.head? ≠ some "EQU".toList := by
    rw [← Bool.not_eq_true, Statement.equateFollows_iff]
    rfl
  rw [isCut, ← equate]
  constructor
  · intro same
    apply Bool.eq_false_iff.mpr
    intro follows
    -- The walk goes past the end keyword, so that its passes walk more tokens.
    rw [← same] at isSummary
    have farther := (assembler.summary_of_mem isSummary).2.1
    have past := Located.two_le_totalWidth_listFrom follows (0 + front.length)
    rw [Located.list, walks, Located.totalWidth_append] at farther
    omega
  · intro unnamed
    apply assembler.assemble_congr cutNonempty nonempty
    rw [walked, Located.list, walks, Located.listFrom_end unnamed, Nat.zero_add]

private def namedEnd : List Token :=
  ["ORG", "END", "END", "EQU", "5", "C3", "END", "END", "LATE:", "C3", "LATE"].map String.toList

/-- The end keyword as an operand without a value, as a name, as an operand with a value, and as
the end of the program, before a label that the program does not know. -/
theorem tokens_behind_end_ignored_iff_named :
    (⟨.first, 3, 8, true⟩ ∈ (Assembler.initial.assemble namedEnd).2.summaries ∧
        ["ORG".toList, "9".toList].head? ≠ some "EQU".toList) ∧
      (assemble namedEnd).bytes = [0xC3, 5, 0] ∧
      Assembler.initial.assemble (namedEnd.take 8 ++ ["ORG".toList, "9".toList]) =
        Assembler.initial.assemble namedEnd := by
  have isSummary :
      ⟨.first, 3, 8, true⟩ ∈ (Assembler.initial.assemble namedEnd).2.summaries := by
    decide +kernel
  have unnamed : ["ORG".toList, "9".toList].head? ≠ some "EQU".toList := by decide
  exact ⟨⟨isSummary, unnamed⟩, by decide +kernel,
    (tokens_behind_end_ignored_iff Assembler.initial isSummary rfl _).mpr unnamed⟩

end Asm8080
