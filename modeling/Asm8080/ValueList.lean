import Asm8080.Operand
import Asm8080.Text.Blank
import Asm8080.Text.Quoted

/-!
Contract: the value lists of data directives.

Owns:
- the cutting of a list at commas outside quotes;
- the space that a list takes, which needs no labels;
- the bytes or words that a list stands for, with the text of each value.

Does not own: the placement of the data.
-/

namespace Asm8080.ValueList

/-- The values of a list, trimmed, empty ones left out. -/
def values (list : Text) : List Text :=
  ((Quoted.split (fun character => character == ',') list).map Text.trim).filter fun value =>
    !value.isEmpty

/-- The bytes that one value of a byte list takes: one for each character of a
quotation, and one for anything else. -/
def byteSize (value : Text) : Nat :=
  match Quoted.body? value with
  | some body => body.length
  | none => 1

def bytesSize (list : Text) : Nat :=
  (values list).foldr (fun value total => byteSize value + total) 0

def wordsSize (list : Text) : Nat :=
  2 * (values list).length

/-- The bytes of one value of a byte list. A quotation must be ASCII. -/
def bytesOfValue? (labels : LabelTable) (value : Text) : Option (Resolved (List UInt8)) :=
  match Quoted.body? value with
  | some body =>
      if body.all fun character => decide (character.toNat < 0x80) then
        some ⟨body.map fun character => UInt8.ofNat character.toNat,
          quoteMark :: body ++ [quoteMark]⟩
      else none
  | none => (Operand.byte labels value).toOption.map fun byte => ⟨[byte.value], byte.shown⟩

/-- The texts of the values, with a comma and a space between them. -/
def join (shown : List Text) : Text :=
  [',', ' '].intercalate shown

/-- The bytes of a byte list, at least one. Empty quotations add nothing and are
not shown. -/
def bytes? (labels : LabelTable) (list : Text) : Option (Resolved (List UInt8)) :=
  match (values list).mapM (bytesOfValue? labels) with
  | none => none
  | some items =>
      let filled := items.filter fun item => !item.value.isEmpty
      if filled.isEmpty then none
      else some ⟨filled.flatMap Resolved.value, join (filled.map Resolved.shown)⟩

/-- The words of a word list, at least one. -/
def words? (labels : LabelTable) (list : Text) : Option (Resolved (List UInt16)) :=
  match (values list).mapM fun value => (Operand.word labels value).toOption with
  | none => none
  | some items =>
      if items.isEmpty then none
      else some ⟨items.map Resolved.value, join (items.map Resolved.shown)⟩

end Asm8080.ValueList
