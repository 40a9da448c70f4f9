import Asm8080.Fault

/-!
Contract: the labels of a program and their values.

Owns:
- the label table, in which the first definition of a name wins;
- references, which are written with or without the colon that ends a label's
  name;
- the view of the table at a token, which sees the labels defined before it.

Does not own: the value that a definition gives.
-/

namespace Asm8080

/-- A defined label. The name ends in a colon, and `definedAt` is the index of
the token that defines it. -/
structure Label where
  name : Text
  value : UInt16
  definedAt : Nat
deriving DecidableEq, Repr

namespace Label

/-- The name that a reference stands for. -/
def fullName (reference : Text) : Text :=
  if reference.getLast? = some ':' then reference else reference ++ [':']

end Label

/-- The labels defined so far, latest first. -/
structure LabelTable where
  labels : List Label
deriving DecidableEq, Repr

namespace LabelTable

def empty : LabelTable :=
  ⟨[]⟩

/-- The label of exactly this name. -/
def find? (table : LabelTable) (name : Text) : Option Label :=
  table.labels.find? fun label => label.name == name

def contains (table : LabelTable) (name : Text) : Bool :=
  (table.find? name).isSome

def get? (table : LabelTable) (name : Text) : Option UInt16 :=
  (table.find? name).map Label.value

def size (table : LabelTable) : Nat :=
  table.labels.length

/-- Defines a label at a token. A name that is already defined keeps its value. -/
def define (table : LabelTable) (name : Text) (value : UInt16) (index : Nat) :
    Except Fault LabelTable :=
  if table.contains name then .error (.duplicateLabel name)
  else .ok ⟨⟨name, value, index⟩ :: table.labels⟩

/-- A successful definition is found, and every other name keeps what it had. -/
theorem find?_define {table defined : LabelTable} {name : Text} {value : UInt16} {index : Nat}
    (succeeds : table.define name value index = .ok defined) (other : Text) :
    defined.find? other =
      if other = name then some ⟨name, value, index⟩ else table.find? other := by
  unfold define at succeeds
  split at succeeds
  · cases succeeds
  · cases succeeds
    by_cases same : other = name
    · simp [find?, same]
    · have different : (name == other) = false :=
        beq_eq_false_iff_ne.mpr fun equal => same equal.symm
      simp [find?, same, different]

/-- The value of the label that a reference names. -/
def resolve? (table : LabelTable) (reference : Text) : Option UInt16 :=
  (table.find? (Label.fullName reference)).map Label.value

/-- The value of the label that a reference names, if it is defined at a token
before `index`. -/
def resolveBefore? (table : LabelTable) (reference : Text) (index : Nat) : Option UInt16 :=
  ((table.find? (Label.fullName reference)).filter fun label =>
    decide (label.definedAt < index)).map Label.value

end LabelTable

end Asm8080
