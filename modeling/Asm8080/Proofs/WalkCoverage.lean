import Mathlib.Data.List.Forall2
import Asm8080.Proofs.EndDirective
import Asm8080.Proofs.PassSeparation

/-!
Contract: a pass comes to an end, and its statements cover the tokens that it walked.

Owns:
- a pass as a loop over a cursor, in which every kind of statement takes its own tokens and moves
  the cursor by itself, also past the last token;
- what one round of the loop does: the cursor moves by one, two or three tokens, so that the
  tokens before it are a measure that ends the loop;
- that the loop is the pass as it is run;
- the tokens of a statement, and that those of adjacent statements make up one stretch;
- `walk_covers_tokens`, which puts these together.

Does not own: what a statement does to the state of the assembler.
-/

namespace Asm8080

/-! ### Statements at a cursor -/

namespace Cursor

/-- The operand at the cursor, if a token is left, and the cursor behind it. -/
def takeOperand (tokens : List Token) (cursor : Nat) : Option Token × Nat :=
  match tokens[cursor]? with
  | some token => (some token, cursor + 1)
  | none => (none, cursor)

/-- A statement of the given kind, whose operand may stand at the cursor. -/
def takeWith (kind : Option Token → Statement) (tokens : List Token) (cursor : Nat) :
    Statement × Nat :=
  let (operand, behind) := takeOperand tokens cursor
  (kind operand, behind)

/-- The instruction that a hexadecimal token at the cursor names. It passes over the place of its
operand, even if no token stands there. -/
def takeInstruction (tokens : List Token) (cursor : Nat) (token : Token) : Statement × Nat :=
  let value := Statement.hexValue token
  match Opcode.lookup? value with
  | some opcode =>
      if opcode.operand = .none then (.instruction (UInt8.ofNat value) opcode none, cursor + 1)
      else (.instruction (UInt8.ofNat value) opcode tokens[cursor + 1]?, cursor + 2)
  | none => (.undefined token, cursor + 1)

/-- The statement whose first token stands at the cursor, and the cursor behind it. -/
def take (tokens : List Token) (cursor : Nat) (token : Token) : Statement × Nat :=
  let rest := tokens.drop (cursor + 1)
  if Statement.definesLabel token rest then
    if Statement.equateFollows rest then
      takeWith (.equate (Label.fullName token)) tokens (cursor + 2)
    else (.label (Label.fullName token), cursor + 1)
  else
    match Directive.ofToken? token with
    | some .org => takeWith .origin tokens (cursor + 1)
    | some .end_ => (.finish, cursor + 1)
    | some .db => takeWith .bytes tokens (cursor + 1)
    | some .ds => takeWith .reserve tokens (cursor + 1)
    | some .dw => takeWith .words tokens (cursor + 1)
    | some .equ => takeWith .strayEquate tokens (cursor + 1)
    | none =>
        if Literal.isHex token then takeInstruction tokens cursor token
        else (.mention token, cursor + 1)

/-- What is taken at a cursor: the statement that is read there, and a cursor that is farther by
one, two or three tokens. Up to the last token it stands right behind the statement. -/
structure IsTaken (tokens : List Token) (cursor : Nat) (statement : Statement)
    (taken : Statement × Nat) : Prop where
  reads : taken.1 = statement
  moves : cursor + 1 ≤ taken.2 ∧ taken.2 ≤ cursor + 3
  behind : min taken.2 tokens.length = cursor + statement.width

section

variable {tokens rest : List Token} {cursor : Nat} {token : Token}

theorem length_of_drop (dropped : tokens.drop cursor = token :: rest) :
    tokens.length = cursor + 1 + rest.length := by
  have length := congrArg List.length dropped
  rw [List.length_drop, List.length_cons] at length
  omega

theorem isTaken_single (dropped : tokens.drop cursor = token :: rest) {statement : Statement}
    (single : statement.width = 1) : IsTaken tokens cursor statement (statement, cursor + 1) where
  reads := rfl
  moves := by dsimp only; omega
  behind := by
    have length := length_of_drop dropped
    rw [single]
    omega

/-- An operand is taken if there is one, so that the cursor stays within the tokens. -/
theorem isTaken_with (keywords : Nat) (few : 1 ≤ keywords ∧ keywords ≤ 2)
    (inside : cursor + keywords ≤ tokens.length) {kind : Option Token → Statement}
    (width : ∀ operand, (kind operand).width = keywords + Statement.operandWidth operand) :
    IsTaken tokens cursor (kind tokens[cursor + keywords]?)
      (takeWith kind tokens (cursor + keywords)) := by
  unfold takeWith takeOperand
  cases found : tokens[cursor + keywords]? with
  | none =>
      refine ⟨rfl, by dsimp only; omega, ?_⟩
      rw [width]
      exact Nat.min_eq_left inside
  | some operand =>
      obtain ⟨within, _⟩ := List.getElem?_eq_some_iff.mp found
      refine ⟨rfl, by dsimp only; omega, ?_⟩
      rw [width]
      exact Nat.min_eq_left within

theorem isTaken_instruction (dropped : tokens.drop cursor = token :: rest) :
    IsTaken tokens cursor (Statement.ofHex token rest) (takeInstruction tokens cursor token) := by
  have length := length_of_drop dropped
  have next : tokens[cursor + 1]? = rest.head? := by
    rw [← List.getElem?_drop, dropped, List.getElem?_cons_succ, List.head?_eq_getElem?]
  unfold Statement.ofHex takeInstruction
  dsimp only
  cases Opcode.lookup? (Statement.hexValue token) with
  | none => exact isTaken_single dropped rfl
  | some opcode =>
      dsimp only
      by_cases plain : opcode.operand = .none
      · rw [if_pos plain, if_pos plain]
        exact isTaken_single dropped rfl
      · rw [if_neg plain, if_neg plain, next]
        refine ⟨rfl, by dsimp only; omega, ?_⟩
        -- Behind the last token the operand's place is passed over all the same.
        cases rest with
        | nil =>
            rw [List.length_nil] at length
            show min (cursor + 2) tokens.length = cursor + 1
            omega
        | cons operand later =>
            rw [List.length_cons] at length
            show min (cursor + 2) tokens.length = cursor + 2
            omega

theorem isTaken_take (dropped : tokens.drop cursor = token :: rest) :
    IsTaken tokens cursor (Statement.read token rest) (take tokens cursor token) := by
  have length := length_of_drop dropped
  have behind : tokens.drop (cursor + 1) = rest := by
    rw [← List.drop_drop, dropped]
    rfl
  have next : rest.head? = tokens[cursor + 1]? := by
    rw [← behind, List.head?_drop]
  have third : rest.tail.head? = tokens[cursor + 2]? := by
    rw [← behind, List.tail_drop, List.head?_drop]
  have directive {kind : Option Token → Statement}
      (width : ∀ operand, (kind operand).width = 1 + Statement.operandWidth operand) :
      IsTaken tokens cursor (kind rest.head?) (takeWith kind tokens (cursor + 1)) := by
    rw [next]
    exact isTaken_with 1 (by decide) (by omega) width
  unfold Statement.read take
  simp only [behind]
  by_cases defines : Statement.definesLabel token rest = true
  · rw [if_pos defines, if_pos defines]
    by_cases equate : Statement.equateFollows rest = true
    · have hasNext : rest ≠ [] := by
        rintro rfl
        cases equate
      have positive := List.length_pos_iff.mpr hasNext
      rw [if_pos equate, if_pos equate, third]
      exact isTaken_with 2 (by decide) (by omega) fun _ => rfl
    · rw [if_neg equate, if_neg equate]
      exact isTaken_single dropped rfl
  · rw [if_neg defines, if_neg defines]
    cases Directive.ofToken? token with
    | some keyword =>
        cases keyword with
        | org | db | ds | dw | equ => exact directive fun _ => rfl
        | end_ => exact isTaken_single dropped rfl
    | none =>
        by_cases hexadecimal : Literal.isHex token = true
        · simp only [hexadecimal, ↓reduceIte]
          exact isTaken_instruction dropped
        · simp only [hexadecimal, Bool.false_eq_true, ↓reduceIte]
          exact isTaken_single dropped rfl

end

/-- An instruction without its operand moves the cursor past the last token. -/
example : take (["NEXT:", "C3"].map String.toList) 1 "C3".toList =
    (.instruction 0xC3 ⟨"JMP".toList, .word⟩ none, 3) := by decide

end Cursor

/-! ### Walks from a cursor on -/

namespace Located

/-- Walks agree on what remains, if their cursors agree up to the last token. -/
theorem listFrom_drop_congr {tokens : List Token} {left right : Nat}
    (same : min left tokens.length = min right tokens.length) :
    listFrom left 0 (tokens.drop left) = listFrom right 0 (tokens.drop right) := by
  by_cases equal : left = right
  · rw [equal]
  · rw [List.drop_eq_nil_of_le (by omega), List.drop_eq_nil_of_le (by omega)]
    rfl

/-- Behind a statement that does not end it, the walk goes on with the tokens behind. -/
theorem listFrom_drop_of_read {tokens rest : List Token} {cursor : Nat} {token : Token}
    (dropped : tokens.drop cursor = token :: rest)
    (unfinished : Statement.read token rest ≠ .finish) :
    listFrom cursor 0 (tokens.drop cursor) =
      ⟨cursor, Statement.read token rest⟩ ::
        listFrom (cursor + (Statement.read token rest).width) 0
          (tokens.drop (cursor + (Statement.read token rest).width)) := by
  have positive := (Statement.width_bounds (Statement.read token rest)).1
  have skipped : rest.drop ((Statement.read token rest).width - 1) =
      tokens.drop (cursor + (Statement.read token rest).width) := by
    rw [← List.drop_drop, dropped, ← List.drop_succ_cons, Nat.sub_add_cancel positive]
  have farther : cursor + 1 + ((Statement.read token rest).width - 1) =
      cursor + (Statement.read token rest).width := by omega
  rw [← skipped, ← farther, ← listFrom_skip, dropped, listFrom, if_neg unfinished]

end Located

/-! ### The loop of a pass -/

/-- A pass between two statements: the cursor, the assembler with its program counter, and
whether an end directive was met. -/
structure Walker where
  cursor : Nat
  sweep : Sweep
  ended : Bool
deriving DecidableEq, Repr

namespace Walker

def start (assembler : Assembler) : Walker :=
  ⟨0, ⟨assembler, 0⟩, false⟩

/-- One round of the loop, which is over behind the last token and behind an end directive. -/
def step (pass : Pass) (tokens : List Token) (walker : Walker) : Option Walker :=
  if walker.ended then none
  else
    match tokens[walker.cursor]? with
    | none => none
    | some token =>
        let (statement, behind) := Cursor.take tokens walker.cursor token
        some ⟨behind, walker.sweep.visit pass ⟨walker.cursor, statement⟩, statement == .finish⟩

/-- The statements that a walk has still to come to. -/
def remaining (tokens : List Token) (walker : Walker) : List Located :=
  if walker.ended then [] else Located.listFrom walker.cursor 0 (tokens.drop walker.cursor)

/-- A round takes a statement: the cursor stands at its first token and moves by one, two or three
tokens. Up to the last token it stands right behind the statement. -/
structure Takes (tokens : List Token) (walker next : Walker) (located : Located) : Prop where
  index : located.index = walker.cursor
  moves : walker.cursor + 1 ≤ next.cursor ∧ next.cursor ≤ walker.cursor + 3
  behind : min next.cursor tokens.length = located.index + located.statement.width

variable {pass : Pass} {tokens : List Token} {walker next : Walker}

/-- Where the loop is over, the walk is at its end. -/
theorem stopped_of_step_eq_none (stopped : walker.step pass tokens = none) :
    walker.remaining tokens = [] ∧ (walker.ended = true ∨ tokens.length ≤ walker.cursor) := by
  unfold step at stopped
  unfold remaining
  by_cases ended : walker.ended = true
  · rw [if_pos ended]
    exact ⟨rfl, Or.inl ended⟩
  · rw [if_neg ended] at stopped ⊢
    cases found : tokens[walker.cursor]? with
    | some token =>
        rw [found] at stopped
        cases stopped
    | none =>
        have past := List.getElem?_eq_none_iff.mp found
        rw [List.drop_eq_nil_of_le past]
        exact ⟨rfl, Or.inr past⟩

/-- What a round does: it takes the first of the remaining statements, and the others remain. -/
theorem exists_of_step_eq_some (moved : walker.step pass tokens = some next) :
    ∃ located, walker.remaining tokens = located :: next.remaining tokens ∧
      Takes tokens walker next located ∧ walker.ended = false ∧
      next.ended = (located.statement == .finish) ∧
      next.sweep = walker.sweep.visit pass located := by
  unfold step at moved
  by_cases ended : walker.ended = true
  · rw [if_pos ended] at moved
    cases moved
  · rw [if_neg ended] at moved
    cases found : tokens[walker.cursor]? with
    | none =>
        rw [found] at moved
        cases moved
    | some token =>
        obtain ⟨within, isToken⟩ := List.getElem?_eq_some_iff.mp found
        have dropped : tokens.drop walker.cursor = token :: tokens.drop (walker.cursor + 1) := by
          rw [List.drop_eq_getElem_cons within, isToken]
        have taken := Cursor.isTaken_take dropped
        rw [found] at moved
        dsimp only at moved
        rw [Option.some.injEq, taken.reads] at moved
        subst moved
        refine ⟨⟨walker.cursor, Statement.read token (tokens.drop (walker.cursor + 1))⟩, ?_,
          ⟨rfl, taken.moves, taken.behind⟩, Bool.eq_false_iff.mpr ended, rfl, rfl⟩
        unfold remaining
        rw [if_neg ended]
        -- Behind an end directive nothing remains, and otherwise the walk from the new cursor on.
        by_cases finishes : Statement.read token (tokens.drop (walker.cursor + 1)) = .finish
        · rw [dropped, Located.listFrom, if_pos finishes, if_pos (beq_iff_eq.mpr finishes)]
        · rw [Located.listFrom_drop_of_read dropped finishes, if_neg (by simpa using finishes)]
          have within := Nat.min_le_right (Cursor.take tokens walker.cursor token).2 tokens.length
          rw [taken.behind] at within
          apply congrArg
          apply Located.listFrom_drop_congr
          rw [taken.behind, Nat.min_eq_left within]

theorem Takes.cursor_lt {located : Located} (takes : Takes tokens walker next located) :
    walker.cursor < tokens.length := by
  have behind := takes.behind
  have positive := (Statement.width_bounds located.statement).1
  rw [takes.index] at behind
  omega

/-- Each round leaves fewer tokens, which is why the loop ends. -/
theorem left_lt_of_step_eq_some (moved : walker.step pass tokens = some next) :
    tokens.length - next.cursor < tokens.length - walker.cursor := by
  obtain ⟨located, _, takes, _⟩ := exists_of_step_eq_some moved
  have inside := takes.cursor_lt
  have farther := takes.moves.1
  omega

/-- The states of the loop, up to the one in which it is over. -/
def states (pass : Pass) (tokens : List Token) (walker : Walker) : List Walker :=
  match moved : walker.step pass tokens with
  | none => [walker]
  | some next =>
      have _fewer := left_lt_of_step_eq_some moved
      walker :: states pass tokens next
termination_by tokens.length - walker.cursor

theorem states_of_stopped (stopped : walker.step pass tokens = none) :
    walker.states pass tokens = [walker] := by
  rw [states]
  split
  · rfl
  · rename_i moved
    rw [stopped] at moved
    cases moved

theorem states_of_moved (moved : walker.step pass tokens = some next) :
    walker.states pass tokens = walker :: next.states pass tokens := by
  rw [states]
  split
  · rename_i stopped
    rw [moved] at stopped
    cases stopped
  · rename_i other isOther
    rw [moved] at isOther
    cases isOther
    rfl

/-- The loop makes its rounds and is over: each round takes one of the remaining statements, and
the last state is what these statements make of the first one. -/
structure Completes (pass : Pass) (tokens : List Token) (walker : Walker) (rounds : List Walker)
    (last : Walker) : Prop where
  states : walker.states pass tokens = rounds ++ [last]
  stops : last.step pass tokens = none
  takes : List.Forall₂
    (fun round located => ∃ next, round.step pass tokens = some next ∧
      round.Takes tokens next located) rounds (walker.remaining tokens)
  sweep : last.sweep = (walker.remaining tokens).foldl (Sweep.visit pass) walker.sweep
  ended : last.ended = (walker.ended || Located.ended (walker.remaining tokens))
  cursor : min last.cursor tokens.length =
    min walker.cursor tokens.length + Located.totalWidth (walker.remaining tokens)

theorem Completes.of_stopped (stopped : walker.step pass tokens = none) :
    Completes pass tokens walker [] walker := by
  have nothing := (stopped_of_step_eq_none stopped).1
  refine ⟨states_of_stopped stopped, stopped, ?_, ?_, ?_, ?_⟩
  all_goals rw [nothing]
  · exact List.Forall₂.nil
  · rfl
  · exact (Bool.or_false _).symm
  · rfl

theorem Completes.of_moved {rounds : List Walker} {last : Walker}
    (moved : walker.step pass tokens = some next)
    (completes : Completes pass tokens next rounds last) :
    Completes pass tokens walker (walker :: rounds) last := by
  obtain ⟨located, isRemaining, takes, goesOn, ends, visited⟩ := exists_of_step_eq_some moved
  refine ⟨by rw [states_of_moved moved, completes.states]; rfl, completes.stops, ?_, ?_, ?_, ?_⟩
  all_goals rw [isRemaining]
  · exact List.Forall₂.cons ⟨next, moved, takes⟩ completes.takes
  · rw [completes.sweep, visited, List.foldl_cons]
  · rw [completes.ended, goesOn, ends, Bool.false_or]
    -- The end directive is the last statement, since nothing remains behind it.
    by_cases finishes : located.statement = .finish
    · have nothing : next.remaining tokens = [] := by
        rw [remaining, ends, if_pos (beq_iff_eq.mpr finishes)]
      simp [nothing, Located.ended, finishes]
    · rw [Located.ended_cons finishes, beq_eq_false_iff_ne.mpr finishes, Bool.false_or]
  · have inside := takes.cursor_lt
    rw [completes.cursor, takes.behind, takes.index]
    show _ = _ + (located.statement.width + Located.totalWidth (next.remaining tokens))
    omega

theorem exists_completes (pass : Pass) (tokens : List Token) (walker : Walker) :
    ∃ rounds last, Completes pass tokens walker rounds last := by
  fun_induction states pass tokens walker with
  | case1 walker stopped => exact ⟨[], walker, .of_stopped stopped⟩
  | case2 walker next moved _ inductionHypothesis =>
      obtain ⟨rounds, last, completes⟩ := inductionHypothesis
      exact ⟨walker :: rounds, last, .of_moved moved completes⟩

end Walker

/-! ### The tokens of statements -/

namespace Located

/-- The tokens that a statement takes up. -/
def range (tokens : List Token) (located : Located) : List Token :=
  (tokens.drop located.index).take located.statement.width

/-- Adjacent statements take up one stretch of the tokens. -/
theorem flatten_range (tokens : List Token) {index : Nat} {statements : List Located}
    (adjacent : AdjacentFrom index statements) :
    (statements.map (range tokens)).flatten =
      (tokens.drop index).take (totalWidth statements) := by
  induction statements generalizing index with
  | nil => simp [totalWidth]
  | cons head tail inductionHypothesis =>
      obtain ⟨atIndex, rest⟩ := adjacent
      have total : totalWidth (head :: tail) = head.statement.width + totalWidth tail := rfl
      rw [List.map_cons, List.flatten_cons, inductionHypothesis rest, range, atIndex, total,
        List.take_add, List.drop_drop]

theorem AdjacentFrom.behind_le {index : Nat} {statements : List Located}
    (adjacent : AdjacentFrom index statements) :
    ∀ located ∈ statements,
      located.index + located.statement.width ≤ index + totalWidth statements := by
  induction statements generalizing index with
  | nil => simp
  | cons head tail inductionHypothesis =>
      obtain ⟨atIndex, rest⟩ := adjacent
      have total : totalWidth (head :: tail) = head.statement.width + totalWidth tail := rfl
      intro located member
      rcases List.mem_cons.mp member with isHead | inTail
      · rw [isHead, atIndex, total]
        omega
      · have within := inductionHypothesis rest located inTail
        omega

theorem length_le_totalWidth (statements : List Located) :
    statements.length ≤ totalWidth statements := by
  induction statements with
  | nil => exact Nat.le_refl 0
  | cons head tail inductionHypothesis =>
      have positive := (Statement.width_bounds head.statement).1
      show tail.length + 1 ≤ head.statement.width + totalWidth tail
      omega

/-- Where a walk ended, the last token that it took up is the end keyword. -/
theorem getLast?_of_ended {tokens : List Token} (isEnded : ended (list tokens) = true) :
    (tokens.take (totalWidth (list tokens))).getLast? = some Directive.end_.keyword := by
  obtain ⟨front, behind, before, isTokens, noEquate, length, walks⟩ := exists_front_of_ended isEnded
  have walked : list tokens = before ++ [⟨0 + front.length, .finish⟩] := by
    rw [list, isTokens, walks, listFrom_end noEquate]
  have width : totalWidth (list tokens) = front.length + 1 := by
    rw [walked, totalWidth_append, length, Nat.zero_add, Nat.zero_add]
    rfl
  rw [width, List.take_add_one, isTokens]
  simp

end Located

/-- A pass ends and covers the tokens. For every state, either pass and every token list, the pass
is a loop over a cursor. In each round the cursor moves forward by one, two or three tokens, so
that there are at most as many rounds as tokens. Each round takes a statement. The statements
stand one behind the other, each has all of its tokens, and together they take up exactly the
tokens that the pass consumed. These are all tokens if no end directive was met, and otherwise the
last of them is the end keyword. -/
theorem walk_covers_tokens (assembler : Assembler) (pass : Pass) (tokens : List Token) :
    let summary := (assembler.runPass pass tokens).1
    let statements := Located.list tokens
    (∃ rounds last, (Walker.start assembler).states pass tokens = rounds ++ [last] ∧
      last.step pass tokens = none ∧
      assembler.runPass pass tokens =
        (⟨pass, last.sweep.pc, min last.cursor tokens.length, last.ended⟩,
          last.sweep.assembler) ∧
      List.Forall₂
        (fun round located => ∃ next, round.step pass tokens = some next ∧
          round.Takes tokens next located) rounds statements ∧
      rounds.length ≤ tokens.length) ∧
    Located.AdjacentFrom 0 statements ∧
    (∀ located ∈ statements, (located.range tokens).length = located.statement.width) ∧
    summary.tokensConsumed ≤ tokens.length ∧
    (statements.map (Located.range tokens)).flatten = tokens.take summary.tokensConsumed ∧
    (summary.ended = false → summary.tokensConsumed = tokens.length) ∧
    (summary.ended = true →
      (tokens.take summary.tokensConsumed).getLast? = some "END".toList) := by
  obtain ⟨rounds, last, completes⟩ :=
    Walker.exists_completes pass tokens (Walker.start assembler)
  have remaining : (Walker.start assembler).remaining tokens = Located.list tokens := rfl
  have consumed : min last.cursor tokens.length = Located.totalWidth (Located.list tokens) := by
    rw [completes.cursor, remaining]
    exact Nat.zero_add _
  have isEnded : last.ended = Located.ended (Located.list tokens) := by
    rw [completes.ended, remaining]
    rfl
  have isPass := Sweep.runPass_eq_run pass assembler tokens
  have summaryConsumed : (assembler.runPass pass tokens).1.tokensConsumed =
      Located.totalWidth (Located.list tokens) := by
    rw [isPass]
    rfl
  have summaryEnded : (assembler.runPass pass tokens).1.ended =
      Located.ended (Located.list tokens) := by
    rw [isPass]
    rfl
  have bounded : Located.totalWidth (Located.list tokens) ≤ tokens.length := by omega
  have adjacent := Located.adjacentFrom_list tokens
  dsimp only
  rw [summaryConsumed, summaryEnded]
  refine ⟨⟨rounds, last, completes.states, completes.stops, ?_, completes.takes, ?_⟩, adjacent, ?_,
    bounded, Located.flatten_range tokens adjacent, ?_, Located.getLast?_of_ended⟩
  · rw [isPass, consumed, isEnded, completes.sweep]
    rfl
  · rw [completes.takes.length_eq]
    exact Nat.le_trans (Located.length_le_totalWidth _) bounded
  · intro located member
    have within := adjacent.behind_le located member
    rw [Located.range, List.length_take, List.length_drop]
    omega
  · intro goesOn
    rcases (Walker.stopped_of_step_eq_none completes.stops).2 with ended | past
    · rw [isEnded, goesOn] at ended
      cases ended
    · omega

end Asm8080
