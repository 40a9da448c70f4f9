import Asm8080.Text.Numeral

/-!
Contract: JSON values and their text.

Owns:
- the values that a report is made of;
- the text of a value, indented by two spaces, with each item and each member on a
  line of its own;
- the escaping of a string.

Does not own: fractions, negative numbers and null, which no report holds, and the
reading of a text.
-/

namespace Asm8080

/-- A JSON value. The members of an object are in order. -/
inductive JsonValue where
  | boolean (value : Bool)
  | number (value : Nat)
  | string (content : Text)
  | array (items : List JsonValue)
  | object (members : List (Text × JsonValue))
deriving Repr

namespace JsonValue

def escape (character : Char) : Text :=
  if character = '"' then ['\\', '"']
  else if character = '\\' then ['\\', '\\']
  else if character = '\x08' then ['\\', 'b']
  else if character = '\t' then ['\\', 't']
  else if character = '\n' then ['\\', 'n']
  else if character = '\x0c' then ['\\', 'f']
  else if character = '\r' then ['\\', 'r']
  else if character.toNat < 0x20 then
    "\\u00".toList ++ [Nat.digitChar (character.toNat / 16), Nat.digitChar (character.toNat % 16)]
  else [character]

def quoted (content : Text) : Text :=
  '"' :: content.flatMap escape ++ ['"']

def word (value : Bool) : Text :=
  if value then "true".toList else "false".toList

def lineStart (depth : Nat) : Text :=
  '\n' :: List.replicate (2 * depth) ' '

/-- What stands before an item or member: its line, and a comma unless it is the
first. -/
def separator (first : Bool) (depth : Nat) : Text :=
  if first then lineStart depth else ',' :: lineStart depth

/-- The closing bracket, on a line of its own unless nothing is enclosed. -/
def closing (bracket : Char) (nothing : Bool) (depth : Nat) : Text :=
  if nothing then [bracket] else lineStart depth ++ [bracket]

mutual

/-- The text of a value whose line is indented to a depth. -/
def pretty (depth : Nat) : JsonValue → Text
  | .boolean value => word value
  | .number value => Numeral.decimal value
  | .string content => quoted content
  | .array items =>
      '[' :: prettyItems (depth + 1) true items ++ closing ']' items.isEmpty depth
  | .object members =>
      '\x7b' :: prettyMembers (depth + 1) true members ++ closing '\x7d' members.isEmpty depth

def prettyItems (depth : Nat) (first : Bool) : List JsonValue → Text
  | [] => []
  | item :: rest => separator first depth ++ pretty depth item ++ prettyItems depth false rest

def prettyMembers (depth : Nat) (first : Bool) : List (Text × JsonValue) → Text
  | [] => []
  | (name, value) :: rest =>
      separator first depth ++ quoted name ++ ": ".toList ++ pretty depth value ++
        prettyMembers depth false rest

end

end JsonValue

end Asm8080
