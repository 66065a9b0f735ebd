import PhpTaint.Text.Affix
import PhpTaint.Text.Digit
import PhpTaint.Text.Quoted

/-!
# Command-line options

Arguments are first classified: an argument that begins with a hyphen is an
option, unless it is a lone hyphen, a negative number or holds a blank, and
everything after `--` is a plain argument. Long options may be shortened as long
as they stay unambiguous, values may follow an equals sign, and short options may
share a hyphen. The mark `--` in the place of an attached value is dropped, so
that the option is given without a value.

The classified arguments are then taken from left to right. The first refusal
ends the reading; missing and surplus arguments are only looked for at the end.
-/

namespace PhpTaint.Cli

/-- The options. -/
inductive Flag where
  /-- Show the usage and stop. -/
  | help
  /-- Write the report to a file. -/
  | output
  /-- Choose the format of the report. -/
  | format
  /-- Show notes for debugging and code. -/
  | verbose
  /-- Show no progress. -/
  | quiet
  /-- Take the rules from a directory. -/
  | rules
  /-- Report sink arguments that could not be resolved. -/
  | includeUnknown
  /-- Search vendored libraries, too. -/
  | includeVendor
  /-- Show the version and stop. -/
  | version
  deriving DecidableEq, Repr

/-- The spellings of an option. -/
def Flag.spellings : Flag -> List String
  | .help => ["-h", "--help"]
  | .output => ["-o", "--output"]
  | .format => ["-f", "--format"]
  | .verbose => ["-v", "--verbose"]
  | .quiet => ["-q", "--quiet"]
  | .rules => ["--rules"]
  | .includeUnknown => ["--include-unknown"]
  | .includeVendor => ["--include-vendor"]
  | .version => ["--version"]

/-- Whether an option takes a value. -/
def Flag.takesValue : Flag -> Bool
  | .output | .format | .rules => true
  | _ => false

/-- An option as messages show it. -/
def Flag.label (flag : Flag) : String := String.intercalate "/" flag.spellings

/-- All options. -/
def allFlags : List Flag :=
  [.help, .output, .format, .verbose, .quiet, .rules, .includeUnknown, .includeVendor, .version]

/-- All spellings with their options. -/
def allSpellings : List (String × Flag) :=
  allFlags.flatMap fun flag => flag.spellings.map fun spelling => (spelling, flag)

/-- The option of a spelling. -/
def flagOf? (spelling : String) : Option Flag :=
  (allSpellings.find? fun entry => entry.1 == spelling).map Prod.snd

/-- The format of a report. -/
inductive Format where
  /-- Lines for readers. -/
  | text
  /-- Data. -/
  | json
  deriving DecidableEq, Repr

/-- The format of a name. -/
def formatOf? : String -> Option Format
  | "text" => some .text
  | "json" => some .json
  | _ => none

/-- Which rules a run is asked to use. -/
inductive RuleChoice where
  /-- Those of the run before, or else the default ones. -/
  | latest
  /-- Those of a directory. -/
  | directory (path : String)
  /-- Those of a directory that was not named. -/
  | unnamed
  deriving DecidableEq, Repr

/-- What a run is asked to do. -/
structure Options where
  target : String
  output : Option String
  format : Format
  /-- Whether notes for debugging and code are shown. -/
  verbose : Bool
  /-- Whether progress is left out. -/
  quiet : Bool
  rules : RuleChoice
  /-- Whether unresolved arguments are reported. -/
  includeUnknown : Bool
  /-- Whether vendored libraries are searched. -/
  includeVendor : Bool
  deriving DecidableEq, Repr

/-- The options before any argument is taken. -/
def Options.initial : Options := ⟨"", none, .text, false, false, .latest, false, false⟩

/-- The mark after which all arguments are plain. -/
def dividerText : String := "--"

/-- A classified argument. -/
inductive Token where
  /-- A plain argument. -/
  | plain (text : String)
  /-- The mark after which all arguments are plain. -/
  | divider
  /-- An option, with the value that is attached to its spelling. -/
  | option (flag : Flag) (spelling : String) (attached : Option String)
  /-- Something that looks like an option and is none. -/
  | unknown (text : String)
  deriving DecidableEq, Repr

/-- Why an ordinary run does not take place. -/
inductive Stop where
  /-- The usage was asked for. -/
  | usage
  /-- The version was asked for. -/
  | version
  /-- The arguments were refused. -/
  | refused (message : String)
  deriving DecidableEq, Repr

/-- A refusal that concerns one option. -/
def refuse {α : Type} (flag : Flag) (reason : String) : Except Stop α :=
  .error (.refused ("argument " ++ flag.label ++ ": " ++ reason))

/-- A text before and after its first equals sign, if it has one. -/
def splitEquals (text : String) : Option (String × String) :=
  let chars := text.toList
  let name := chars.takeWhile (· != '=')
  match chars.drop name.length with
  | [] => none
  | _ :: value => some (String.ofList name, String.ofList value)

/-- Whether characters are one or more digits. -/
def areDigits (chars : List Char) : Bool := !chars.isEmpty && chars.all Text.isDigit

/-- Whether a text is a negative number; a line end after it does not matter. -/
def isNegativeNumber (text : String) : Bool :=
  match text.toList with
  | '-' :: digits =>
      let body := if digits.getLast? == some '\n' then digits.dropLast else digits
      let whole := body.takeWhile Text.isDigit
      match body.drop whole.length with
      | [] => areDigits whole
      | '.' :: fraction => areDigits fraction
      | _ => false
  | _ => false

/-- The interpretations of a shortened long option. -/
def longMatches (text : String) : List Token :=
  let (name, attached) := match splitEquals text with
    | some (name, value) => (name, some value)
    | none => (text, none)
  (allSpellings.filter fun entry => Text.beginsWith entry.1 name).map fun entry =>
    .option entry.2 entry.1 attached

/-- The interpretations of a short option with something attached. -/
def shortMatches (text : String) : List Token :=
  let letter := Text.takeChars 2 text
  match flagOf? letter with
  | some flag => [.option flag letter (some (String.ofList (text.toList.drop 2)))]
  | none => []

/-- The spelling under which a classified argument is known. -/
def Token.spelling : Token -> String
  | .plain text | .unknown text => text
  | .divider => dividerText
  | .option _ spelling _ => spelling

/-- Classify an argument that begins with a hyphen and is no exact spelling. -/
def classifyInexact (text : String) : Except Stop Token :=
  let candidates := if Text.beginsWith text "--" then longMatches text else shortMatches text
  match candidates with
  | [token] => .ok token
  | [] =>
      if isNegativeNumber text || text.toList.contains ' ' then .ok (.plain text)
      else .ok (.unknown text)
  | several =>
      .error (.refused ("ambiguous option: " ++ text ++ " could match " ++
        String.intercalate ", " (several.map Token.spelling)))

/-- Classify one argument. -/
def classify (text : String) : Except Stop Token :=
  if !Text.beginsWith text "-" then .ok (.plain text)
  else
    match flagOf? text with
    | some flag => .ok (.option flag text none)
    | none =>
        if text = "-" then .ok (.plain text)
        else
          match splitEquals text with
          | some (name, value) =>
              match flagOf? name with
              | some flag => .ok (.option flag name (some value))
              | none => classifyInexact text
          | none => classifyInexact text

/-- Classify all arguments. -/
def classifyAll : List String -> Except Stop (List Token)
  | [] => .ok []
  | text :: rest =>
      if text = dividerText then .ok (.divider :: rest.map .plain)
      else do
        let token ← classify text
        let tokens ← classifyAll rest
        return token :: tokens

/-- What has been read so far. -/
structure Reading where
  options : Options
  hasTarget : Bool
  /-- Arguments that nothing takes. -/
  surplus : List String

/-- The value that an option was given; the mark of plain arguments is none. -/
def givenValue? (value : String) : Option String := if value = dividerText then none else some value

/-- Take an option with its value. An option without a value takes back what
was chosen before. -/
def applyFlag (options : Options) (flag : Flag) (value : String) : Except Stop Options :=
  match flag with
  | .help => .error .usage
  | .version => .error .version
  | .output => .ok { options with output := givenValue? value }
  | .rules =>
      .ok { options with rules := ((givenValue? value).map .directory).getD .unnamed }
  | .verbose => .ok { options with verbose := true }
  | .quiet => .ok { options with quiet := true }
  | .includeUnknown => .ok { options with includeUnknown := true }
  | .includeVendor => .ok { options with includeVendor := true }
  | .format =>
      match givenValue? value, formatOf? value with
      | none, _ => .ok { options with format := .text }
      | some _, some format => .ok { options with format := format }
      | some name, none =>
          refuse flag ("invalid choice: " ++ Text.quoted name ++ " (choose from 'text', 'json')")

/-- One argument taken apart: its options in order with their values, and
whether one more option still waits for its value. -/
structure Cluster where
  /-- The options with their values. -/
  taken : List (Flag × String)
  /-- The option that waits for the next argument. -/
  waiting : Option Flag
  deriving DecidableEq, Repr

/-- A refusal of a value that the option does not take. -/
def refuseValue {α : Type} (flag : Flag) (value : String) : Except Stop α :=
  refuse flag ("ignored explicit argument " ++ Text.quoted value)

/-- Take apart what follows the letter of a short option. It is the value of an
option that takes one, and otherwise begins with the letter of the next option. -/
def openCluster (taken : List (Flag × String)) (flag : Flag) : List Char -> Except Stop Cluster
  | [] => .ok (if flag.takesValue then ⟨taken, some flag⟩ else ⟨taken ++ [(flag, "")], none⟩)
  | char :: rest =>
      if flag.takesValue then .ok ⟨taken ++ [(flag, String.ofList (char :: rest))], none⟩
      else
        match flagOf? (String.ofList ['-', char]) with
        | some next => openCluster (taken ++ [(flag, "")]) next rest
        | none => refuseValue flag (String.ofList (char :: rest))

/-- Take apart an option. Only a short spelling can share its hyphen. -/
def openOption (flag : Flag) (spelling : String) (attached : Option String) :
    Except Stop Cluster :=
  match attached with
  | none => openCluster [] flag []
  | some value =>
      if flag.takesValue then .ok ⟨[(flag, value)], none⟩
      else if value.isEmpty || Text.beginsWith spelling "--" then refuseValue flag value
      else openCluster [] flag value.toList

/-- Take the options of a cluster. -/
def applyCluster (reading : Reading) (cluster : Cluster) : Except Stop Reading := do
  let options ← cluster.taken.foldlM (fun options entry => applyFlag options entry.1 entry.2)
    reading.options
  return { reading with options := options }

/-- Take a plain argument as the target. -/
def Reading.withTarget (reading : Reading) (text : String) : Reading :=
  { reading with options := { reading.options with target := text }, hasTarget := true }

/-- Keep an argument that nothing takes. -/
def Reading.withSurplus (reading : Reading) (text : String) : Reading :=
  { reading with surplus := reading.surplus ++ [text] }

/-- Take the classified arguments from left to right. The divider next to the
target belongs to it. -/
def readTokens (reading : Reading) : List Token -> Except Stop Reading
  | [] => .ok reading
  | .option flag spelling attached :: rest => do
      let cluster ← openOption flag spelling attached
      match cluster.waiting with
      | none => do
          let next ← applyCluster reading cluster
          readTokens next rest
      | some waiting =>
          match rest with
          | .plain value :: after => do
              let next ← applyCluster reading
                { cluster with taken := cluster.taken ++ [(waiting, value)] }
              readTokens next after
          | _ => refuse waiting "expected one argument"
  | .unknown text :: rest => readTokens (reading.withSurplus text) rest
  | .plain text :: .divider :: rest =>
      if reading.hasTarget then
        readTokens ((reading.withSurplus text).withSurplus dividerText) rest
      else readTokens (reading.withTarget text) rest
  | .plain text :: rest =>
      if reading.hasTarget then readTokens (reading.withSurplus text) rest
      else readTokens (reading.withTarget text) rest
  | .divider :: .plain text :: rest =>
      if reading.hasTarget then
        readTokens ((reading.withSurplus dividerText).withSurplus text) rest
      else readTokens (reading.withTarget text) rest
  | .divider :: rest => readTokens (reading.withSurplus dividerText) rest

/-- Read the arguments of a run. -/
def Options.ofArguments (arguments : List String) : Except Stop Options := do
  let tokens ← classifyAll arguments
  let reading ← readTokens ⟨Options.initial, false, []⟩ tokens
  if !reading.hasTarget then
    .error (.refused "the following arguments are required: target")
  else if reading.surplus.isEmpty then return reading.options
  else
    .error (.refused ("unrecognized arguments: " ++ String.intercalate " " reading.surplus))

end PhpTaint.Cli
