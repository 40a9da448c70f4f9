import Asm8080.Text.Blank
import Asm8080.Text.Quoted

/-!
Contract: source text without its comments.

Owns: the two rules for comments. A line whose first visible character is a
semicolon vanishes; any other line ends before its first semicolon outside
quotes, where quotes are counted from the start of that line.

Does not own: quotations that run over several lines, which the next stage
pairs across the whole text.
-/

namespace Asm8080.Comment

def isMark (character : Char) : Bool :=
  character == ';'

def fillsLine (line : Text) : Bool :=
  (Text.trim line).head?.any isMark

/-- The code of a line, before its comment. -/
def code (line : Text) : Text :=
  Quoted.untilStop isMark false line

/-- The code of the lines that are not comments, each ended by a newline. -/
def strip (source : Text) : Text :=
  ((source.splitOn '\n').filter fun line => !fillsLine line).flatMap fun line =>
    code line ++ ['\n']

end Asm8080.Comment
