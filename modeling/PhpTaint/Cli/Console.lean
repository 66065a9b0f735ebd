import PhpTaint.Fault
import PhpTaint.Files.Disk
import PhpTaint.Journal
import PhpTaint.Reports.Style
import PhpTaint.Rules.Basic

/-!
# The console of a run

A run reads and writes a disk, keeps the rules it has loaded, prints results to
one stream and messages to the other. Messages and notes share a stream and keep
their order. What was printed before a failure stays printed.
-/

namespace PhpTaint.Cli

open Files Reports Rules

/-- What lasts from one run to the next. -/
structure Session where
  disk : Disk
  /-- The rules that were loaded last. -/
  rules : Option RuleSet

/-- How a run talks. -/
structure Voice where
  style : Style
  /-- Whether progress is left out. -/
  quiet : Bool
  /-- Whether notes for debugging are shown. -/
  verbose : Bool

/-- The state of a run. -/
structure Console where
  session : Session
  /-- What was printed as result. -/
  printed : String
  /-- What was printed as message. -/
  messages : String

/-- Why a run could not be completed. -/
inductive Failure where
  /-- The analysis was refused. -/
  | analysis (fault : Fault)
  /-- The report could not be written. -/
  | writing (fault : FileFault)
  deriving DecidableEq, Repr

/-- A step of a run. -/
abbrev Running := EStateM Failure Console

/-- Print a result. -/
def print (text : String) : Running Unit :=
  modify fun console => { console with printed := console.printed ++ text }

/-- Print a line to the stream of messages. -/
def sayLine (line : String) : Running Unit :=
  modify fun console => { console with messages := console.messages ++ line ++ "\n" }

/-- Print a line of progress behind a mark. -/
def sayProgress (voice : Voice) (mark text : String) : Running Unit :=
  if voice.quiet then pure () else sayLine (voice.style.paint .cyan mark ++ " " ++ text)

/-- Say what is going on. -/
def progress (voice : Voice) (text : String) : Running Unit := sayProgress voice "[*]" text

/-- Say what was achieved. -/
def success (voice : Voice) (text : String) : Running Unit :=
  sayProgress voice (voice.style.paint .green "[+]") text

/-- Say what was left out. -/
def warn (voice : Voice) (text : String) : Running Unit :=
  sayProgress voice (voice.style.paint .yellow "[!]") text

/-- Say why the run ends; this is never left out. -/
def complain (voice : Voice) (text : String) : Running Unit :=
  sayLine (voice.style.paint .red "[ERROR]" ++ " " ++ text)

/-- Whether a note is shown. -/
def shows (voice : Voice) (note : Note) : Bool := voice.verbose || note.urgency != .debug

/-- Print the notes of a journal. -/
def report (voice : Voice) (journal : Journal) : Running Unit :=
  (journal.reverse.filter (shows voice)).forM fun note => sayLine note.render

/-- The result of an analysis, or its failure. -/
def orFail {α : Type} (result : Except Fault α) : Running α :=
  match result with
  | .ok value => pure value
  | .error fault => throw (.analysis fault)

end PhpTaint.Cli
