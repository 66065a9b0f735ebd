/-!
# Journal

Operations note what they skip, assume or give up on. A note is data: its
urgency, the part of the analysis that wrote it, and its text. Notes are
collected newest first and are read in the order in which they were written.
-/

namespace PhpTaint

/-- How much attention a note asks for. -/
inductive Urgency where
  /-- Of interest when the analysis itself is examined. -/
  | debug
  /-- Something was left out. -/
  | warning
  /-- A whole file was left out. -/
  | error
  deriving DecidableEq, Repr

/-- The part of the analysis that writes a note. -/
inductive Channel where
  /-- Scopes and their tables. -/
  | scopes
  /-- Annotation of syntax nodes with scopes. -/
  | annotating
  /-- Rule files. -/
  | rules
  /-- Data flow. -/
  | flow
  /-- The search for findings. -/
  | findings
  deriving DecidableEq, Repr

/-- One note. -/
structure Note where
  urgency : Urgency
  /-- The part of the analysis that wrote it. -/
  channel : Channel
  text : String
  deriving DecidableEq, Repr

/-- Notes, newest first. -/
abbrev Journal := List Note

/-- The word for an urgency. -/
def Urgency.label : Urgency -> String
  | .debug => "DEBUG"
  | .warning => "WARNING"
  | .error => "ERROR"

/-- The name of a channel. -/
def Channel.label : Channel -> String
  | .scopes => "taintcore.environment"
  | .annotating => "taintcore.resolver"
  | .rules => "taintcore.rule_engine"
  | .flow => "taintcore.function_analyser"
  | .findings => "taintcore.scanner"

/-- A note as it is printed. -/
def Note.render (note : Note) : String :=
  note.urgency.label ++ " " ++ note.channel.label ++ ": " ++ note.text

/-- The notes of a journal as they are printed, oldest first. -/
def Journal.render (journal : Journal) : List String := journal.reverse.map Note.render

end PhpTaint
