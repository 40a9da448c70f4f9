import Asm8080.Source.Comment
import Asm8080.Source.Layout
import Asm8080.Source.Mnemonic
import Asm8080.Source.Quotation

/-!
Contract: the flat sequence of tokens that the assembler walks.

Owns:
- the mark that separates a label from what follows its colon;
- the cutting of a prepared text into tokens;
- `tokenize`, the path from source text to tokens.

Does not own: what a token means, which depends on its neighbours and is decided
when statements are read.
-/

namespace Asm8080

/-- A word of the source: an opcode byte in hexadecimal, a directive keyword, a
label or an operand. -/
abbrev Token := Text

namespace Token

/-- Separates a label definition from the text behind its colon. -/
def labelMark : Char :=
  '\uE000'

/-- Drops tabs and puts the label mark behind every colon. -/
def markLabels (text : Text) : Text :=
  text.flatMap fun character =>
    if character = '\t' then [] else if character = ':' then [':', labelMark] else [character]

def isBreak (character : Char) : Bool :=
  character == ' ' || character == '\n' || character == labelMark

def split (text : Text) : List Token :=
  (Quoted.split isBreak text).filter fun token => !token.isEmpty

end Token

/-- The outcome of tokenizing: the tokens, and how many quotations were set
aside on the way. -/
structure Tokenized where
  tokens : List Token
  quotationCount : Nat
deriving DecidableEq, Repr

/-- The prepared form of masked text: folded, with opcode bytes for mnemonics and
a mark behind each label. -/
def prepare (masked : Text) : Text :=
  Token.markLabels (Mnemonic.substitute (Layout.tightenCommas (Layout.fold masked)))

/-- Reads source text into tokens: comments go, quotations are set aside while the
rest is prepared, and the result is cut at spaces, line ends and label marks. -/
def Tokenized.ofSource (source : Text) : Tokenized :=
  let masked := Quotation.protect (Comment.strip source)
  { tokens := Token.split (Quotation.restore masked.quotations (prepare masked.text))
    quotationCount := masked.quotations.length }

def tokenize (source : Text) : List Token :=
  (Tokenized.ofSource source).tokens

end Asm8080
