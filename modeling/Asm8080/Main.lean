import Asm8080.Command.Invocation

/-!
Contract: the program.

Owns: the operating system as the host of an invocation, and the entry point.

Does not own: any decision.
-/

namespace Asm8080.Program

/-- The number of an error. Some calls report it with a minus sign. -/
def errorNumber (code : UInt32) : Nat :=
  if code.toNat < 0x80000000 then code.toNat else 0x100000000 - code.toNat

/-- The wording of an error of the operating system, with its number. -/
def numbered (code : UInt32) (details : String) : FileFault :=
  .other (details.toList ++ " (os error ".toList ++ Numeral.decimal (errorNumber code) ++
    ")".toList)

def fileFault : IO.Error → FileFault
  | .noFileOrDirectory .. => .notFound
  | .inappropriateType _ code details =>
      if errorNumber code = 20 then .notDirectory
      else if errorNumber code = 21 then .isDirectory
      else numbered code details
  | .permissionDenied _ code details => numbered code details
  | .resourceExhausted _ code details => numbered code details
  | .invalidArgument _ code details =>
      if errorNumber code = 36 then .nameTooLong else numbered code details
  | .otherError code details => numbered code details
  | error => .other (toString error).toList

/-- Runs an operation and keeps its error as a value. -/
def attempt (operation : IO α) : IO (Except FileFault α) := do
  match ← operation.toBaseIO with
  | .ok value => return .ok value
  | .error error => return .error (fileFault error)

def usage : UsageFault → String
  | .unknownArgument => "error: unexpected argument found"
  | .invalidValue => "error: invalid value"
  | .tooManyValues => "error: unexpected value for an option"
  | .valueValidation => "error: invalid value"
  | .argumentConflict => "error: arguments cannot be used together"
  | .missingRequiredArgument => "error: the following required arguments were not provided"
  | .displayHelp _ => ""
  | .displayVersion => ""

def host : Host IO where
  readFile path := attempt do
    return (← IO.FS.readBinFile (String.ofList path)).toList
  writeFile path text := attempt (IO.FS.writeFile (String.ofList path) (String.ofList text))
  print text := attempt do
    let output ← IO.getStdout
    output.putStr (String.ofList text)
    output.flush
  record event := IO.eprintln (String.ofList event.line)
  complain fault := IO.eprintln (usage fault)
  serialize report := .ok report.text

end Asm8080.Program

def main (words : List String) : IO UInt32 :=
  Asm8080.Invocation.run Asm8080.Program.host (words.map String.toList)
