import Asm8080.Assembler

/-!
Contract: the journal of a run.

Owns:
- the levels of detail and their spellings;
- an event of the journal and its line, in which the message cannot steer a
  terminal;
- the events that tokenizing and assembling leave behind, told from their
  results.

Does not own: which levels are shown and where the lines go.
-/

namespace Asm8080

/-- How much detail an event is. -/
inductive Level where
  | error
  | warn
  | info
  | debug
  | trace
deriving DecidableEq, Repr

namespace Level

/-- Every level, least detail first. -/
def all : List Level :=
  [.error, .warn, .info, .debug, .trace]

/-- The level's place among all, from one on. -/
def rank : Level → Nat
  | .error => 1
  | .warn => 2
  | .info => 3
  | .debug => 4
  | .trace => 5

def name : Level → Text
  | .error => "ERROR".toList
  | .warn => "WARN".toList
  | .info => "INFO".toList
  | .debug => "DEBUG".toList
  | .trace => "TRACE".toList

/-- Whether a journal of this level shows an event of the other. -/
def shows (level event : Level) : Bool :=
  decide (event.rank ≤ level.rank)

/-- The level that a text names: by its number, or by its name in any case. -/
def ofText? (text : Text) : Option Level :=
  match (Numeral.unsigned64? text).bind fun number =>
      all.find? fun level => level.rank == number with
  | some level => some level
  | none => all.find? fun level => level.name == text.map Char.toUpper

end Level

/-- A named value behind the message of an event. -/
structure Detail where
  name : Text
  value : Text
deriving DecidableEq, Repr

namespace Detail

def count (name : String) (value : Nat) : Detail :=
  ⟨name.toList, Numeral.decimal value⟩

/-- A named fault, by its wording. -/
def fault (fault : Fault) : Detail :=
  ⟨"error".toList, fault.message⟩

/-- The text of a detail, with the blank before it. The value stands as it is. -/
def text (detail : Detail) : Text :=
  ' ' :: detail.name ++ '=' :: detail.value

end Detail

/-- An event of the journal. -/
structure Event where
  level : Level
  source : Text
  message : Text
  details : List Detail
deriving DecidableEq, Repr

namespace Event

/-- The ASCII characters with which a terminal can be steered: bell, backspace,
form feed, escape and delete. -/
def steering : List Char :=
  ['\x07', '\x08', '\x0c', '\x1b', '\x7f']

/-- The code points of the eight-bit control characters. -/
def highControls : List (Nat × Nat) :=
  [(0x80, 0x9f)]

/-- Two lower-case hexadecimal digits of a character below two hundred and
fifty-six. -/
def codeDigits (character : Char) : Text :=
  [Nat.digitChar (character.toNat / 16), Nat.digitChar (character.toNat % 16)]

/-- A character of a message as the journal shows it: one that steers a terminal
by its code, every other as it is. -/
def shown (character : Char) : Text :=
  if steering.contains character then '\\' :: 'x' :: codeDigits character
  else if inRanges highControls character then
    "\\u\x7b".toList ++ codeDigits character ++ ['\x7d']
  else [character]

def line (event : Event) : Text :=
  event.level.name ++ ' ' :: event.source ++ ": ".toList ++ event.message.flatMap shown ++
    event.details.flatMap Detail.text

end Event

namespace Journal

def program (level : Level) (message : Text) : Event :=
  ⟨level, "altair80_lib".toList, message, []⟩

def command (level : Level) (message : Text) (details : List Detail) : Event :=
  ⟨level, "altair80_lib::cli".toList, message, details⟩

def tokenizer (level : Level) (message : Text) (details : List Detail) : Event :=
  ⟨level, "altair80_lib::lexer".toList, message, details⟩

def assembler (level : Level) (message : Text) (details : List Detail) : Event :=
  ⟨level, "altair80_lib::assembler".toList, message, details⟩

def ofTokenized (tokenized : Tokenized) : Event :=
  tokenizer .trace "tokenized source".toList
    [.count "tokens" tokenized.tokens.length, .count "strings" tokenized.quotationCount]

def ofRepetition (repetition : Repetition) : Event :=
  assembler .trace "label not redefined".toList
    [.fault (.duplicateLabel repetition.name), .count "index" repetition.index]

/-- The event of a diagnostic, with the whole program counter. -/
def ofDiagnostic (diagnostic : Diagnostic) : Event :=
  assembler .debug "assembly error".toList
    [.count "address" diagnostic.pc, .fault diagnostic.fault]

def ofFirstPass (symbols : Symbols) (summary : PassSummary) : List Event :=
  assembler .trace "starting pass 1".toList [] ::
    (symbols.repetitions.filter Repetition.valued).map ofRepetition ++
    [assembler .debug "pass 1 done".toList
      [.count "labels" symbols.labels.size, .count "end_pc" summary.endPc]]

def ofSecondPass (output : Output) (summary : PassSummary) : List Event :=
  assembler .trace "starting pass 2".toList [] ::
    output.diagnostics.map ofDiagnostic ++
    [assembler .debug "pass 2 done".toList
      [.count "bytes" output.object.size, .count "errors" output.diagnostics.length,
        .count "end_pc" summary.endPc]]

def ofPass (state : Assembler) (summary : PassSummary) : List Event :=
  match summary.pass with
  | .first => ofFirstPass state.symbols summary
  | .second => ofSecondPass state.output summary

/-- The events of a run of the assembler, told from the state behind it. -/
def ofAssembler (state : Assembler) : List Event :=
  if state.summaries.isEmpty then
    [assembler .debug "no tokens, nothing to assemble".toList []]
  else state.summaries.flatMap (ofPass state)

end Journal

end Asm8080
