import PhpTaint.Cli.Console
import PhpTaint.Cli.Options
import PhpTaint.Files.Collect
import PhpTaint.Findings.Sources
import PhpTaint.Json.Reader
import PhpTaint.Reports.Text
import PhpTaint.Rules.Default

/-!
# Runs

A run checks its target and its rule directory, loads the rules, collects the
sources, searches them and reports. Its exit code tells the worst severity that
was found. Rules stay loaded: a run that names no rule directory uses those of
the run before.

A run takes no time that it could observe, so its report shows a duration of
zero. The date comes from outside.
-/

namespace PhpTaint.Cli

open Files Findings Json Reports Rules

/-- The name of the program. -/
def programName : String := "taintscope"

/-- The version of the program. -/
def versionText : String := programName ++ " v1.0"

/-- The usage of the program. -/
def usageText : String := joinLines [
  "usage: " ++ programName ++ " [-h] [-o OUTPUT] [-f \x7btext,json\x7d] [-v] [-q] [--rules DIR]",
  "                  [--include-unknown] [--include-vendor] [--version]",
  "                  target"]

/-- How messages show where the default rules come from. -/
def defaultRulesPath : String := "<RULES>"

/-- The duration of a run. -/
def noTime : Scalar := .decimal (.finite false 0 1)

/-- The data in a file: what a parser made of it, or else what its text spells. -/
def dataIn (file : File) : Document :=
  file.data.getD (.ofValue ((Value.read? file.text).getD .null))

/-- One file of a rule directory. -/
def ruleFileAt (disk : Disk) (directory name : String) : RuleFile :=
  let path := joinPath directory name
  match disk.openFile path with
  | .ok file => ⟨path, .data (dataIn file)⟩
  | .error .isADirectory => ⟨path, .directory⟩
  | .error _ => ⟨path, .missing⟩

/-- The rule directory at a path. -/
def ruleDirectoryAt (disk : Disk) (path : String) : RuleDirectory where
  path := path
  sources := ruleFileAt disk path "sources.yml"
  sinks := ruleFileAt disk path "sinks.yml"
  sanitizers := ruleFileAt disk path "sanitizers.yml"

/-- Load the rules of a directory and keep them. -/
def loadRules (voice : Voice) (directory : RuleDirectory) : Running RuleSet := do
  match RuleSet.load directory [] with
  | .ok rules journal => do
      report voice journal
      modify fun console => { console with session := { console.session with rules := some rules } }
      return rules
  | .error fault journal => do
      report voice journal
      throw (.analysis fault)

/-- The rules of a run. -/
def chooseRules (voice : Voice) (choice : RuleChoice) : Running RuleSet := do
  let session := (← get).session
  match choice, session.rules with
  | .directory path, _ => loadRules voice (ruleDirectoryAt session.disk path)
  | .unnamed, _ => throw (.analysis .illTyped)
  | .latest, some rules => return rules
  | .latest, none => loadRules voice (defaultDirectory defaultRulesPath)

/-- Collect the sources of a run. -/
def collectSources (voice : Voice) (options : Options) : Running (List String) := do
  let collection ← orFail
    (Files.collect (← get).session.disk options.target (!options.includeVendor))
  if collection.skipped != 0 then
    progress voice ("Skipped " ++ toString collection.skipped ++ " vendor/library files")
  return collection.paths

/-- Search the sources of a run. -/
def searchSources (voice : Voice) (date : String) (options : Options) (rules : RuleSet)
    (paths : List String) : Running Report := do
  let outcome := searchPaths (← get).session.disk rules options.includeUnknown [] [] paths
  report voice outcome.journal
  let findings ← orFail outcome.findings
  let tally ← orFail (tallyOf findings (Int.ofNat paths.length))
  return {
    tally := tally
    entries := findings.map Finding.entry
    date := date
    target := options.target
    seconds := noTime
    errors := outcome.errors }

/-- Write the report to a file. -/
def saveReport (voice : Voice) (path text : String) : Running Unit := do
  if holdsNull path then throw (.analysis .nullInPath)
  match (← get).session.disk.write path text with
  | .ok disk => do
      modify fun console => { console with session := { console.session with disk := disk } }
      success voice ("Results saved to: " ++ path)
  | .error fault => throw (.writing fault)

/-- The file that a report is written to; an empty name is none. -/
def outputPath? (options : Options) : Option String :=
  match options.output with
  | some path => if path.isEmpty then none else some path
  | none => none

/-- Deliver the report. A data report goes to the file or is printed, a text
report is always printed. -/
def deliver (voice : Voice) (options : Options) (result : Report) : Running Unit := do
  let data := result.toValue.indented
  match outputPath? options, options.format with
  | some path, .json => saveReport voice path data
  | none, .json => print (data ++ "\n")
  | some path, .text => do
      saveReport voice path data
      print (result.text voice.style options.verbose)
  | none, .text => print (result.text voice.style options.verbose)

/-- The exit code of a report. -/
def exitCode (result : Report) : Nat :=
  if 0 < result.tally.critical then 2 else if 0 < result.tally.high then 1 else 0

/-- The rule directory that was named and is none; an empty name names the
working directory. -/
def lackingRules? (disk : Disk) (options : Options) : Option String :=
  match options.rules with
  | .directory path => if !path.isEmpty && !disk.isDirectory path then some path else none
  | _ => none

/-- Perform a run whose target and rule directory exist. -/
def perform (voice : Voice) (date : String) (options : Options) : Running Nat := do
  let rules ← chooseRules voice options.rules
  success voice ("Rules loaded: " ++ rules.counts)
  let paths ← collectSources voice options
  progress voice ("Scanning " ++ toString paths.length ++ " PHP files...")
  let result ← searchSources voice date options rules paths
  result.errors.forM fun error => warn voice ("Skipped " ++ error.1 ++ ": " ++ error.2)
  success voice "Scan completed in 0.0s"
  deliver voice options result
  return exitCode result

/-- Perform a run and return its exit code. -/
def run (voice : Voice) (date : String) (options : Options) : Running Nat := do
  let disk := (← get).session.disk
  if !disk.pathExists options.target then
    complain voice ("Target not found: " ++ options.target)
    return 1
  else
    match lackingRules? disk options with
    | some path =>
        complain voice ("Rules directory not found: " ++ path)
        return 1
    | none => perform voice date options

/-- What a command line has come to. -/
inductive Outcome where
  /-- No run took place. -/
  | stopped (stop : Stop)
  /-- A run ended with an exit code or a failure, and left this on its two
  streams. -/
  | ended (result : Except Failure Nat) (printed messages : String)

/-- Perform the run that a command line asks for. -/
def runArguments (style : Style) (date : String) (session : Session) (arguments : List String) :
    Outcome × Session :=
  match Options.ofArguments arguments with
  | .error stop => (.stopped stop, session)
  | .ok options =>
      let voice : Voice := ⟨style, options.quiet, options.verbose⟩
      match run voice date options ⟨session, "", ""⟩ with
      | .ok code console => (.ended (.ok code) console.printed console.messages, console.session)
      | .error failure console =>
          (.ended (.error failure) console.printed console.messages, console.session)

/-- The message of a refused command line. -/
def refusalText (message : String) : String := programName ++ ": error: " ++ message

/-- The last line of the message of a refused command line. An argument that the
message shows may hold line feeds; those at the end of the message count as
none. -/
def refusalLine (message : String) : String :=
  let backwards := (refusalText message).toList.reverse.dropWhile (· == '\n')
  String.ofList (backwards.takeWhile (· != '\n')).reverse

/-- The exit code of a refused command line. -/
def refusalCode : Nat := 2

/-- What a command line leaves behind: its exit code and its two streams. A run
that fails says why and counts as refused. -/
def Outcome.streams : Outcome -> Nat × String × String
  | .stopped .usage => (0, usageText, "")
  | .stopped .version => (0, versionText ++ "\n", "")
  | .stopped (.refused message) => (refusalCode, "", usageText ++ refusalText message ++ "\n")
  | .ended (.ok code) printed messages => (code, printed, messages)
  | .ended (.error (.analysis fault)) printed messages =>
      (refusalCode, printed, messages ++ refusalText fault.message ++ "\n")
  | .ended (.error (.writing fault)) printed messages =>
      (refusalCode, printed, messages ++ refusalText (fault.message "the report") ++ "\n")

/-- The files that differ between two states of a disk. -/
def changedFiles (before after : Disk) : List (String × File) :=
  (after.files.entries.filter fun entry =>
      (before.files.find? entry.1).map File.bytes != some entry.2.bytes).map fun entry =>
    (String.intercalate "/" entry.1, entry.2)

end PhpTaint.Cli
