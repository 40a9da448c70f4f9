import Asm8080.Pass.Emission

/-!
Contract: the two-pass assembler.

Owns:
- the assembler's state: symbols, output and the summaries of its passes;
- a pass as a transition of that state;
- an assembly, the result of one run, and the run itself.

Does not own: the reading of statements and the two walks over them.
-/

namespace Asm8080

/-- The two walks over the statements. -/
inductive Pass where
  | first
  | second
deriving DecidableEq, Repr

/-- Where a pass finished. -/
structure PassSummary where
  pass : Pass
  endPc : Nat
  tokensConsumed : Nat
  ended : Bool
deriving DecidableEq, Repr

/-- What the second pass writes. -/
structure Output where
  object : ObjectCode
  listing : Text
  diagnostics : List Diagnostic
  overflowed : Bool
deriving DecidableEq, Repr

namespace Output

def empty : Output :=
  ⟨ObjectCode.empty, [], [], false⟩

/-- The output extended by records. -/
def append (output : Output) (records : List Record) : Output where
  object := output.object.append (records.flatMap Record.cells)
  listing := output.listing ++ records.flatMap Record.text
  diagnostics := output.diagnostics ++ records.flatMap Record.diagnostics
  overflowed := output.overflowed || records.any Record.overflows

end Output

/-- The result of a run. -/
structure Assembly where
  object : ObjectCode
  listing : Text
  origin : UInt16
  diagnostics : List Diagnostic
deriving DecidableEq, Repr

namespace Assembly

def ofNothing : Assembly :=
  ⟨ObjectCode.empty, Listing.noCode, 0, []⟩

def success (assembly : Assembly) : Bool :=
  assembly.diagnostics.isEmpty

def bytes (assembly : Assembly) : List UInt8 :=
  assembly.object.bytes

def hex (assembly : Assembly) : Text :=
  assembly.object.hex

def octal (assembly : Assembly) : Text :=
  assembly.object.octal

/-- The remark behind the octal dump of a faulty program. -/
def octalWarning : Text :=
  "\n\nWarning: contains error(s)".toList

/-- Closes the output of a run. -/
def ofOutput (origin : Option UInt16) (output : Output) : Assembly :=
  if output.diagnostics.isEmpty then
    ⟨output.object, output.listing ++ Listing.noErrors, origin.getD 0, []⟩
  else
    ⟨output.object.annotate octalWarning, output.listing ++ Listing.warning, origin.getD 0,
      output.diagnostics⟩

end Assembly

/-- The state of the assembler. Symbols and summaries of the last run stay
readable. -/
structure Assembler where
  symbols : Symbols
  output : Output
  summaries : List PassSummary
deriving DecidableEq, Repr

namespace Assembler

def initial : Assembler :=
  ⟨Symbols.empty, Output.empty, []⟩

/-- The summary of a pass over the statements that ended at `endPc`. -/
def summarize (pass : Pass) (endPc : Nat) (statements : List Located) : PassSummary :=
  ⟨pass, endPc, Located.totalWidth statements, Located.ended statements⟩

/-- Runs one pass over the tokens. The first pass extends the symbols, the second
extends the output. -/
def runPass (assembler : Assembler) (pass : Pass) (tokens : List Token) :
    PassSummary × Assembler :=
  let statements := Located.list tokens
  match pass with
  | .first =>
      let survey := Survey.run assembler.symbols statements
      (summarize .first survey.pc statements, { assembler with symbols := survey.symbols })
  | .second =>
      let records := Record.list assembler.symbols assembler.output.overflowed 0 statements
      (summarize .second (Record.finalCounter records) statements,
        { assembler with output := assembler.output.append records })

/-- Runs a pass and keeps its summary. -/
def perform (assembler : Assembler) (pass : Pass) (tokens : List Token) : Assembler :=
  let (summary, next) := assembler.runPass pass tokens
  { next with summaries := next.summaries ++ [summary] }

/-- Forgets the last run. -/
def reset (_ : Assembler) : Assembler :=
  initial

/-- Runs both passes over the tokens from a fresh state. Without tokens no pass is
run. -/
def passes (assembler : Assembler) (tokens : List Token) : Assembler :=
  let cleared := assembler.reset
  if tokens.isEmpty then cleared
  else (cleared.perform .first tokens).perform .second tokens

/-- The assembly that the state behind a run over the tokens holds. -/
def result (assembler : Assembler) (tokens : List Token) : Assembly :=
  if tokens.isEmpty then Assembly.ofNothing
  else Assembly.ofOutput assembler.symbols.origin assembler.output

/-- Assembles a token list. The state behind the run shows its symbols and
summaries. -/
def assemble (assembler : Assembler) (tokens : List Token) : Assembly × Assembler :=
  let done := assembler.passes tokens
  (done.result tokens, done)

end Assembler

/-- The assembly of a token list. -/
def assemble (tokens : List Token) : Assembly :=
  (Assembler.initial.assemble tokens).1

/-- The assembly of source text. -/
def assembleSource (source : Text) : Assembly :=
  assemble (tokenize source)

end Asm8080
