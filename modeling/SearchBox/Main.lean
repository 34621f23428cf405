import SearchBox.CommandLine
import SearchBox.Pattern.Reader
import SearchBox.Toml.Reader

/-!
# The program

Reads the arguments and the configuration file, and hands both to `CommandLine.run`. Only this module
touches files.
-/

namespace SearchBox.CommandLine

/-- The number of a failure; some calls give it with a minus sign, as a word of 32 bits. -/
def failureNumber (code : UInt32) : Nat := code.toInt32.toInt.natAbs

/-- A failure with its number. -/
def numbered (wording : String) (code : UInt32) : String :=
  wording ++ " (os error " ++ Number.decimalText (failureNumber code) ++ ")"

/-- The wording for a file that cannot be read. -/
def readFailure : IO.Error → String
  | .noFileOrDirectory _ code _ => numbered "No such file or directory" code
  | .permissionDenied _ code _ => numbered "Permission denied" code
  | .inappropriateType _ code _ =>
    numbered (if failureNumber code = 20 then "Not a directory" else "Is a directory") code
  | e => toString e

/-- The document in the bytes of a file. -/
def documentOfBytes (bytes : ByteArray) : Except FileError Document :=
  match String.fromUTF8? bytes with
  | none => .error (.unreadable "stream did not contain valid UTF-8")
  | some text =>
    match Toml.ofText? text with
    | none => .error (.malformed "the text is not a TOML document")
    | some d => .ok d

/-- Reads the document in a file. -/
def readDocument (path : String) : IO (Except FileError Document) := do
  try
    return documentOfBytes (← IO.FS.readBinFile path)
  catch e => return .error (.unreadable (readFailure e))

/-- Runs the program on its arguments. -/
def runProgram (args : List String) : IO UInt32 := do
  let document ←
    match (Request.ofArguments args).config? with
    | none => pure (.error (.unreadable ""))
    | some path => readDocument path
  let output := run Pattern.engine (fun _ => document) args
  IO.print output.out
  IO.eprint output.err
  return output.status.toUInt32

end SearchBox.CommandLine

/-- The program. -/
def main (args : List String) : IO UInt32 := SearchBox.CommandLine.runProgram args
