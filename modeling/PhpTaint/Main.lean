import PhpTaint.Cli.Run
import PhpTaint.Files.Reader

/-!
# The command line

The working directory arrives as data on standard input: its files with the
syntax trees that a parser made of them, its rule directories, and the date. The
arguments are those of the command. Files that the run writes are written to the
real working directory.
-/

namespace PhpTaint.Cli

open Files Json

/-- Everything that a stream holds. -/
partial def readAll (stream : IO.FS.Stream) (collected : String) : IO String := do
  let line ← stream.getLine
  if line.isEmpty then return collected else readAll stream (collected ++ line)

/-- Perform one command on a working directory. -/
def performOn (disk : Disk) (date : String) (arguments : List String) : IO UInt32 := do
  let session : Session := ⟨disk, none⟩
  let (outcome, final) := runArguments ⟨false⟩ date session arguments
  let (code, printed, messages) := outcome.streams
  (← IO.getStdout).putStr printed
  (← IO.getStderr).putStr messages
  for (path, file) in changedFiles session.disk final.disk do
    IO.FS.writeFile path file.text
  return code.toUInt32

end PhpTaint.Cli

/-- Read the working directory and perform the command. -/
def main (arguments : List String) : IO UInt32 := do
  let text ← PhpTaint.Cli.readAll (← IO.getStdin) ""
  let description := (PhpTaint.Json.Value.read? text).getD .null
  match description, PhpTaint.Files.Disk.ofValue description with
  | .object _, .ok disk =>
      PhpTaint.Cli.performOn disk (PhpTaint.Files.textOf description "date") arguments
  | _, _ => do
      (← IO.getStderr).putStr "standard input does not describe a working directory\n"
      return 2
