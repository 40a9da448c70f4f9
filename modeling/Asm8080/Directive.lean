import Asm8080.Text.Basic

/-!
Contract: the six directive keywords.

Owns: the keywords, their spelling, and the recognition of a token as one.

Does not own: what a directive does, which the statements and passes decide.
-/

namespace Asm8080

/-- A word that directs the assembler instead of naming an instruction. -/
inductive Directive where
  | org
  | end_
  | db
  | ds
  | dw
  | equ
deriving DecidableEq, Repr

namespace Directive

/-- Every directive, in the order of the reference card. -/
def all : List Directive :=
  [.org, .end_, .db, .ds, .dw, .equ]

def keyword : Directive → Text
  | .org => "ORG".toList
  | .end_ => "END".toList
  | .db => "DB".toList
  | .ds => "DS".toList
  | .dw => "DW".toList
  | .equ => "EQU".toList

/-- The directive that a token spells, letter for letter. -/
def ofToken? (token : Text) : Option Directive :=
  all.find? fun directive => directive.keyword == token

/-- A directive is recognised by its own keyword. -/
theorem ofToken?_keyword (directive : Directive) :
    ofToken? directive.keyword = some directive := by
  cases directive <;> decide

theorem keyword_of_ofToken? {token : Text} {directive : Directive}
    (isDirective : ofToken? token = some directive) : directive.keyword = token := by
  have spelled := List.find?_some isDirective
  simpa using spelled

end Directive

end Asm8080
