import Asm8080.Text.Utf8

/-!
Contract: files as an invocation meets them.

Owns:
- the faults of reading and writing a file, with their wording;
- a tree of files below a working directory;
- the bounds on the length of a name and of a path, in bytes;
- the meaning of a path, component by component, and the reading and writing of
  the file that it names. A trailing slash asks for a directory.

Does not own: anything outside the working directory. Nothing is found there, and
a file that is written there does not show.
-/

namespace Asm8080

/-- Why a file cannot be read or written, or the standard output cannot be written. -/
inductive FileFault where
  | notFound
  | notDirectory
  | isDirectory
  | nameTooLong
  | nulInName
  | notText
  | other (message : Text)
deriving DecidableEq, Repr

def FileFault.message : FileFault → Text
  | .notFound => "No such file or directory (os error 2)".toList
  | .notDirectory => "Not a directory (os error 20)".toList
  | .isDirectory => "Is a directory (os error 21)".toList
  | .nameTooLong => "File name too long (os error 36)".toList
  | .nulInName => "file name contained an unexpected NUL byte".toList
  | .notText => "stream did not contain valid UTF-8".toList
  | .other message => message

/-- The names that lead from the working directory to a file. -/
abbrev TreePath := List Text

/-- The files and directories below a working directory. -/
structure FileTree where
  files : List (TreePath × List UInt8)
  directories : List TreePath
deriving DecidableEq, Repr

namespace FileTree

def content? (tree : FileTree) (place : TreePath) : Option (List UInt8) :=
  tree.files.lookup place

/-- Whether a place is a directory: it is one itself, or something is below it. -/
def hasDirectory (tree : FileTree) (place : TreePath) : Bool :=
  place.isEmpty ||
    tree.directories.any (fun directory => place.isPrefixOf directory) ||
    tree.files.any fun file => place.isPrefixOf file.1 && place != file.1

/-- Puts a file at a place, instead of the one that may be there. -/
def put (tree : FileTree) (place : TreePath) (bytes : List UInt8) : FileTree :=
  if (tree.content? place).isSome then
    { tree with
      files := tree.files.map fun file => if file.1 = place then (place, bytes) else file }
  else { tree with files := tree.files ++ [(place, bytes)] }

/-- The number of bytes that the longest name of a file has. -/
def nameLimit : Nat :=
  255

def pathLimit : Nat :=
  4095

def exceeds (limit : Nat) (text : Text) : Bool :=
  decide (limit < (Utf8.encode text).length)

/-- What a path leads to. -/
inductive Target where
  | directory
  | outside
  | file (place : TreePath) (bytes : List UInt8)
  | vacant (place : TreePath)
deriving DecidableEq, Repr

/-- The parent of a directory; nothing is known above the working directory. -/
def parent : Option TreePath → Option TreePath
  | some place => if place.isEmpty then none else some place.dropLast
  | none => none

/-- The fault of a path that does not lead on to its rest. To create a file, a
path must not end in a slash, and that is told before anything else about its
last name. -/
def beyond (creating : Bool) (rest : List Text) (fault : FileFault) : FileFault :=
  if creating && !rest.isEmpty && rest.all List.isEmpty then .isDirectory else fault

/-- Follows the components of a path from a directory. -/
def follow (tree : FileTree) (creating : Bool) :
    Option TreePath → List Text → Except FileFault Target
  | _, [] => .ok .directory
  | directory, component :: rest =>
      if component = [] ∨ component = ['.'] then follow tree creating directory rest
      else if component = ['.', '.'] then follow tree creating (parent directory) rest
      else if exceeds nameLimit component then .error (beyond creating rest .nameTooLong)
      else
        match directory with
        | none =>
            if rest.isEmpty then .ok .outside
            else .error (beyond creating rest .notFound)
        | some above =>
            let place := above ++ [component]
            if tree.hasDirectory place then follow tree creating (some place) rest
            else
              match tree.content? place with
              | some bytes =>
                  if rest.isEmpty then .ok (.file place bytes)
                  else .error (beyond creating rest .notDirectory)
              | none =>
                  if rest.isEmpty then .ok (.vacant place)
                  else .error (beyond creating rest .notFound)

/-- What a path leads to. A path that starts with a slash leads out of the tree. -/
def locate (tree : FileTree) (creating : Bool) (path : Text) : Except FileFault Target :=
  if path.contains '\x00' then .error .nulInName
  else if exceeds pathLimit path then .error .nameTooLong
  else follow tree creating (if path.head? = some '/' then none else some []) (path.splitOn '/')

def read (tree : FileTree) (path : Text) : Except FileFault (List UInt8) := do
  match ← tree.locate false path with
  | .directory => throw .isDirectory
  | .outside => throw .notFound
  | .vacant _ => throw .notFound
  | .file _ bytes => return bytes

/-- The tree after the file that a path names is written. -/
def write (tree : FileTree) (path : Text) (bytes : List UInt8) : Except FileFault FileTree := do
  match ← tree.locate true path with
  | .directory => throw .isDirectory
  | .outside => return tree
  | .vacant place => return tree.put place bytes
  | .file place _ => return tree.put place bytes

/-- The files that are new or have another content than before. -/
def changes (before after : FileTree) : List (TreePath × List UInt8) :=
  after.files.filter fun file => before.content? file.1 != some file.2

end FileTree

end Asm8080
