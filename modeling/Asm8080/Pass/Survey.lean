import Asm8080.Pass.Counter

/-!
Contract: the first pass, which gives labels their values.

Owns:
- the symbols of a program: label table, origin and repeated definitions;
- the effect of each statement on symbols and program counter;
- the run over all statements.

Does not own: bytes, listing and diagnostics, which this pass never touches.
-/

namespace Asm8080

/-- A definition of a name that already had a value. `valued` tells whether the
definition has a value of its own, which is then refused. -/
structure Repetition where
  index : Nat
  name : Text
  valued : Bool
deriving DecidableEq, Repr

/-- What the first pass finds out. -/
structure Symbols where
  labels : LabelTable
  origin : Option UInt16
  repetitions : List Repetition
deriving DecidableEq, Repr

namespace Symbols

def empty : Symbols :=
  ⟨LabelTable.empty, none, []⟩

/-- Whether the definition at a token repeats an earlier one. -/
def isRepetition (symbols : Symbols) (index : Nat) : Bool :=
  symbols.repetitions.any fun repetition => repetition.index == index

/-- Gives a name its value, unless it has one already. -/
def define (symbols : Symbols) (index : Nat) (name : Text) (value : UInt16) : Symbols :=
  match symbols.labels.define name value index with
  | .ok labels => { symbols with labels := labels }
  | .error _ => { symbols with repetitions := symbols.repetitions ++ [⟨index, name, true⟩] }

/-- Meets a definition without a value, which defines nothing. -/
def defineNothing (symbols : Symbols) (index : Nat) (name : Text) : Symbols :=
  if symbols.labels.contains name then
    { symbols with repetitions := symbols.repetitions ++ [⟨index, name, false⟩] }
  else symbols

/-- Meets an origin; the first one is the origin of the program. -/
def originAt (symbols : Symbols) (value : UInt16) : Symbols :=
  { symbols with origin := symbols.origin.or (some value) }

end Symbols

/-- The state of the first pass. -/
structure Survey where
  pc : Nat
  symbols : Symbols
deriving DecidableEq, Repr

namespace Survey

/-- The symbols behind a statement that starts at `pc`. -/
def symbolsAfter (symbols : Symbols) (pc : Nat) (located : Located) : Symbols :=
  match located.statement with
  | .label name => symbols.define located.index name (UInt16.ofNat pc)
  | .equate name operand =>
      match Counter.operandValue? symbols.labels located.index operand with
      | some value => symbols.define located.index name value
      | none => symbols.defineNothing located.index name
  | .origin operand =>
      match Counter.operandValue? symbols.labels located.index operand with
      | some value => symbols.originAt value
      | none => symbols
  | _ => symbols

def step (survey : Survey) (located : Located) : Survey where
  pc := Counter.after survey.symbols.labels survey.pc located
  symbols := symbolsAfter survey.symbols survey.pc located

def run (symbols : Symbols) (statements : List Located) : Survey :=
  statements.foldl step ⟨0, symbols⟩

end Survey

end Asm8080
