import Asm8080.Statement

/-!
Contract: the walk over a token list as a sequence of adjacent statements.

Owns:
- adjacency: each statement starts where the tokens of the one before it end;
- the order of statement indices, which follows from adjacency;
- that nothing follows an end directive;
- the token that each statement of a walk is read from, and the tokens behind it that its
  reading asks for;
- the names that a walk can define, none of which starts with a quote.

Does not own: values and addresses, for which the passes are responsible.
-/

namespace Asm8080.Located

/-! ### Adjacent statements -/

/-- The statements stand one behind the other, the first of them at `index`. -/
def AdjacentFrom : Nat → List Located → Prop
  | _, [] => True
  | index, located :: tail =>
      located.index = index ∧ AdjacentFrom (index + located.statement.width) tail

/-- The walk leaves no token out between two statements and reads none twice. -/
theorem adjacentFrom_listFrom (index skip : Nat) (tokens : List Token) :
    AdjacentFrom (index + skip) (listFrom index skip tokens) := by
  induction tokens generalizing index skip with
  | nil => simp [listFrom, AdjacentFrom]
  | cons head tail inductionHypothesis =>
      cases skip with
      | succ skip =>
          have shifted : index + (skip + 1) = index + 1 + skip := by omega
          rw [shifted]
          exact inductionHypothesis (index + 1) skip
      | zero =>
          have behind : index + 1 + ((Statement.read head tail).width - 1) =
              index + (Statement.read head tail).width := by
            have positive := (Statement.width_bounds (Statement.read head tail)).1
            omega
          have rest := inductionHypothesis (index + 1) ((Statement.read head tail).width - 1)
          rw [behind] at rest
          by_cases finished : Statement.read head tail = .finish
          · simp [listFrom, finished, AdjacentFrom]
          · simp only [listFrom, finished, ↓reduceIte, AdjacentFrom]
            exact ⟨by omega, rest⟩

theorem adjacentFrom_list (tokens : List Token) : AdjacentFrom 0 (list tokens) :=
  adjacentFrom_listFrom 0 0 tokens

theorem AdjacentFrom.index_le {index : Nat} {statements : List Located}
    (adjacent : AdjacentFrom index statements) :
    ∀ located ∈ statements, index ≤ located.index := by
  induction statements generalizing index with
  | nil => simp
  | cons head tail inductionHypothesis =>
      obtain ⟨atIndex, rest⟩ := adjacent
      intro located member
      rcases List.mem_cons.mp member with isHead | inTail
      · exact Nat.le_of_eq (by rw [isHead, atIndex])
      · have later := inductionHypothesis rest located inTail
        omega

/-- The walk ends with the end directive, if there is one. -/
theorem eq_nil_of_finish {index skip : Nat} {tokens : List Token} {before later : List Located}
    {located : Located} (isWalk : listFrom index skip tokens = before ++ located :: later)
    (finishes : located.statement = .finish) : later = [] := by
  induction tokens generalizing index skip before with
  | nil => simp [listFrom] at isWalk
  | cons head tail inductionHypothesis =>
      cases skip with
      | succ skip => exact inductionHypothesis isWalk
      | zero =>
          rw [listFrom] at isWalk
          split at isWalk
          · cases before with
            | nil => exact (List.cons.inj isWalk).2.symm
            | cons first front => simp at isWalk
          · rename_i unfinished
            cases before with
            | nil =>
                rw [← (List.cons.inj isWalk).1] at finishes
                exact absurd finishes unfinished
            | cons first front => exact inductionHypothesis (List.cons.inj isWalk).2

/-! ### The tokens of a statement -/

theorem exists_read_of_mem_listFrom (index skip : Nat) (tokens : List Token) :
    ∀ located ∈ listFrom index skip tokens, ∃ offset token rest,
      located.index = index + offset ∧ tokens.drop offset = token :: rest ∧
        located.statement = Statement.read token rest := by
  induction tokens generalizing index skip with
  | nil => simp [listFrom]
  | cons head tail inductionHypothesis =>
      have fromTail (skip : Nat) : ∀ located ∈ listFrom (index + 1) skip tail,
          ∃ offset token rest, located.index = index + offset ∧
            (head :: tail).drop offset = token :: rest ∧
              located.statement = Statement.read token rest := by
        intro located member
        obtain ⟨offset, token, rest, atOffset, dropped, isRead⟩ :=
          inductionHypothesis (index + 1) skip located member
        exact ⟨offset + 1, token, rest, by omega, by simpa using dropped, isRead⟩
      intro located member
      cases skip with
      | succ skip => exact fromTail skip located member
      | zero =>
          have atHead (isHead : located = ⟨index, Statement.read head tail⟩) :
              ∃ offset token rest, located.index = index + offset ∧
                (head :: tail).drop offset = token :: rest ∧
                  located.statement = Statement.read token rest :=
            ⟨0, head, tail, by simp [isHead], rfl, by rw [isHead]⟩
          by_cases finished : Statement.read head tail = .finish
          · apply atHead
            simpa [listFrom, finished] using member
          · simp only [listFrom, finished, ↓reduceIte, List.mem_cons] at member
            rcases member with isHead | inTail
            · exact atHead isHead
            · exact fromTail _ located inTail

/-- Each statement of a program is read at its own token. -/
theorem exists_read_of_mem_list {tokens : List Token} {located : Located}
    (member : located ∈ list tokens) : ∃ token rest,
      tokens.drop located.index = token :: rest ∧
        located.statement = Statement.read token rest := by
  obtain ⟨offset, token, rest, atOffset, dropped, isRead⟩ :=
    exists_read_of_mem_listFrom 0 0 tokens located member
  have sameIndex : located.index = offset := by omega
  exact ⟨token, rest, by rw [sameIndex, dropped], isRead⟩

end Asm8080.Located

namespace Asm8080.Statement

/-! ### The tokens that a statement is read from -/

theorem equateFollows_iff {rest : List Token} :
    equateFollows rest = true ↔ rest.head? = some Directive.equ.keyword := by
  unfold equateFollows
  cases rest.head? with
  | none => simp
  | some token =>
      rw [Option.any_some, beq_iff_eq, Option.some.injEq]
      constructor
      · intro isEquate
        exact (Directive.keyword_of_ofToken? isEquate).symm
      · rintro rfl
        exact Directive.ofToken?_keyword .equ

/-- A statement is read from its token and the next one, and from a third one only if an equate
stands between. -/
theorem read_congr (token : Token) {rest other : List Token} (sameNext : rest.head? = other.head?)
    (sameThird : equateFollows rest = true → rest.tail.head? = other.tail.head?) :
    read token rest = read token other := by
  have sameEquate : equateFollows rest = equateFollows other := by
    unfold equateFollows
    rw [sameNext]
  have sameDefinition : definesLabel token rest = definesLabel token other := by
    unfold definesLabel
    rw [sameEquate]
  have sameInstruction : ofHex token rest = ofHex token other := by
    unfold ofHex
    rw [sameNext]
  unfold read
  rw [← sameEquate, ← sameDefinition, ← sameInstruction, ← sameNext]
  by_cases equate : equateFollows rest = true
  · rw [sameThird equate]
  · simp only [equate, Bool.false_eq_true, ↓reduceIte]

/-- A statement before a token that is no equate does not ask for what stands behind that
token. -/
theorem read_before {token : Token} (notEquate : token ≠ Directive.equ.keyword) (head : Token)
    (front rest other : List Token) :
    read head (front ++ token :: rest) = read head (front ++ token :: other) := by
  apply read_congr
  · cases front <;> rfl
  · intro follows
    cases front with
    | nil => exact absurd (Option.some.inj (equateFollows_iff.mp follows)) notEquate
    | cons first others => cases others <;> rfl

/-! ### Names that can be defined -/

def definedName? : Statement → Option Text
  | .label name => some name
  | .equate name _ => some name
  | _ => none

theorem head?_fullName_ne_quote {token : Token} (unquoted : isQuoted token = false) :
    (Label.fullName token).head? ≠ some quoteMark := by
  unfold Label.fullName
  cases token with
  | nil => decide
  | cons head tail =>
      have different : head ≠ quoteMark := by simpa [isQuoted] using unquoted
      split <;> simpa using different

/-- A definition is read only from a token without a leading quote. -/
theorem definedName?_read {token : Token} {rest : List Token} {name : Text}
    (defines : (read token rest).definedName? = some name) :
    name = Label.fullName token ∧ isQuoted token = false := by
  unfold read at defines
  split at defines
  · rename_i defining
    have unquoted : isQuoted token = false := by
      simp only [definesLabel, Bool.and_eq_true, Bool.not_eq_true'] at defining
      exact defining.2
    split at defines
    · exact ⟨(Option.some.inj defines).symm, unquoted⟩
    · exact ⟨(Option.some.inj defines).symm, unquoted⟩
  · split at defines
    case h_7 =>
      split at defines
      · unfold ofHex at defines
        split at defines <;> cases defines
      · cases defines
    all_goals cases defines

end Asm8080.Statement

namespace Asm8080.Located

/-- No walk defines a name that starts with a quote. -/
theorem definedName_unquoted {tokens : List Token} {located : Located} {name : Text}
    (member : located ∈ list tokens)
    (defines : located.statement.definedName? = some name) :
    name.head? ≠ some quoteMark := by
  obtain ⟨token, rest, _, isRead⟩ := exists_read_of_mem_list member
  rw [isRead] at defines
  obtain ⟨isName, unquoted⟩ := Statement.definedName?_read defines
  rw [isName]
  exact Statement.head?_fullName_ne_quote unquoted

end Asm8080.Located
