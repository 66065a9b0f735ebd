import PhpTaint.Rules.Load

/-!
# Default rules

The rules that apply when no rule directory is given, written in the form of
the three rule files.
-/

namespace PhpTaint.Rules

open Json (Value)

/-- An entry of the file of sources. -/
def sourceEntry (name description : String) : Value :=
  .object [("name", .text name), ("description", .text description)]

/-- An entry of the file of sinks. -/
def sinkEntry (name severity cwe : String) (more : List (String × Value)) : Value :=
  .object (("name", .text name) :: ("severity", .text severity) :: ("cwe", .text cwe) :: more)

/-- The field that restricts a sink to some argument positions. -/
def positionsField (positions : List Int) : String × Value :=
  ("arg_positions", .list (positions.map .int))

/-- The field that marks a sink as a language construct. -/
def constructField : String × Value := ("kind", .text "construct")

/-- An entry of the file of sanitizers. -/
def sanitizerEntry (name : String) (protectsAgainst : List String) (more : List (String × Value)) :
    Value :=
  .object (("name", .text name) :: ("protects_against", Value.texts protectsAgainst) :: more)

/-- The field that names the function undoing a sanitizer. -/
def reversedByField (name : String) : String × Value := ("reversed_by", Value.texts [name])

/-- The field that marks a sanitizer as incomplete. -/
def weakField : String × Value := ("strength", .text "weak")

/-- The default file of sources. -/
def defaultSources : Value := .object [
    ("superglobals", .list [
      sourceEntry "$_GET" "Query string parameters",
      sourceEntry "$_POST" "Request body parameters",
      sourceEntry "$_REQUEST" "Merged GET, POST and COOKIE parameters",
      sourceEntry "$_COOKIE" "Request cookies",
      sourceEntry "$_FILES" "Uploaded file metadata",
      sourceEntry "$_SERVER" "Request headers and server variables",
      sourceEntry "$_ENV" "Process environment"]),
    ("functions", .list [
      sourceEntry "getenv" "Process environment variable",
      sourceEntry "apache_request_headers" "Raw request headers",
      sourceEntry "getallheaders" "Raw request headers",
      sourceEntry "filter_input" "Request parameter (filtered or not)",
      sourceEntry "filter_input_array" "Request parameters",
      sourceEntry "file_get_contents" "Stream contents, including php://input",
      sourceEntry "fgets" "Line read from a stream",
      sourceEntry "fread" "Bytes read from a stream",
      sourceEntry "stream_get_contents" "Stream contents",
      sourceEntry "readline" "Line read from the terminal"])]

/-- The default file of sinks. -/
def defaultSinks : Value := .object [
    ("XSS", .list [
      sinkEntry "echo" "HIGH" "CWE-79" [constructField, positionsField []],
      sinkEntry "print" "HIGH" "CWE-79" [constructField],
      sinkEntry "printf" "HIGH" "CWE-79" [positionsField []],
      sinkEntry "vprintf" "HIGH" "CWE-79" []]),
    ("SQL_INJECTION", .list [
      sinkEntry "mysql_query" "CRITICAL" "CWE-89" [],
      sinkEntry "mysqli_query" "CRITICAL" "CWE-89" [positionsField [1]],
      sinkEntry "mysqli_multi_query" "CRITICAL" "CWE-89" [positionsField [1]],
      sinkEntry "pg_query" "CRITICAL" "CWE-89" [positionsField [0, 1]],
      sinkEntry "sqlite_query" "CRITICAL" "CWE-89" [positionsField [0, 1]]]),
    ("COMMAND_INJECTION", .list [
      sinkEntry "exec" "CRITICAL" "CWE-78" [],
      sinkEntry "system" "CRITICAL" "CWE-78" [],
      sinkEntry "passthru" "CRITICAL" "CWE-78" [],
      sinkEntry "shell_exec" "CRITICAL" "CWE-78" [],
      sinkEntry "popen" "CRITICAL" "CWE-78" [],
      sinkEntry "proc_open" "CRITICAL" "CWE-78" []]),
    ("CODE_INJECTION", .list [
      sinkEntry "eval" "CRITICAL" "CWE-95" [],
      sinkEntry "assert" "CRITICAL" "CWE-95" [],
      sinkEntry "create_function" "CRITICAL" "CWE-95" [positionsField [0, 1]]]),
    ("FILE_INCLUSION", .list [
      sinkEntry "include" "CRITICAL" "CWE-98" [constructField],
      sinkEntry "include_once" "CRITICAL" "CWE-98" [constructField],
      sinkEntry "require" "CRITICAL" "CWE-98" [constructField],
      sinkEntry "require_once" "CRITICAL" "CWE-98" [constructField]]),
    ("PATH_TRAVERSAL", .list [
      sinkEntry "fopen" "HIGH" "CWE-22" [],
      sinkEntry "file_put_contents" "HIGH" "CWE-22" [],
      sinkEntry "unlink" "HIGH" "CWE-22" [],
      sinkEntry "readfile" "HIGH" "CWE-22" []]),
    ("DESERIALIZATION", .list [
      sinkEntry "unserialize" "CRITICAL" "CWE-502" []]),
    ("OPEN_REDIRECT", .list [
      sinkEntry "header" "MEDIUM" "CWE-601" []])]

/-- The default file of sanitizers. -/
def defaultSanitizers : Value := .object [
    ("XSS", .list [
      sanitizerEntry "htmlspecialchars" ["XSS"] [reversedByField "htmlspecialchars_decode"],
      sanitizerEntry "htmlentities" ["XSS"] [reversedByField "html_entity_decode"],
      sanitizerEntry "strip_tags" ["XSS"] [weakField],
      sanitizerEntry "esc_html" ["XSS"] [],
      sanitizerEntry "esc_attr" ["XSS"] []]),
    ("SQL_INJECTION", .list [
      sanitizerEntry "mysqli_real_escape_string" ["SQL_INJECTION"] [],
      sanitizerEntry "mysql_real_escape_string" ["SQL_INJECTION"] [],
      sanitizerEntry "pg_escape_string" ["SQL_INJECTION"] [],
      sanitizerEntry "addslashes" ["SQL_INJECTION"] [reversedByField "stripslashes", weakField],
      sanitizerEntry "esc_sql" ["SQL_INJECTION"] []]),
    ("COMMAND_INJECTION", .list [
      sanitizerEntry "escapeshellarg" ["COMMAND_INJECTION"] [],
      sanitizerEntry "escapeshellcmd" ["COMMAND_INJECTION"] [weakField]]),
    ("PATH_TRAVERSAL", .list [
      sanitizerEntry "basename" ["PATH_TRAVERSAL", "FILE_INCLUSION"] []]),
    ("TYPE_CAST", .list [
      sanitizerEntry "intval"
        ["SQL_INJECTION", "XSS", "COMMAND_INJECTION",
          "PATH_TRAVERSAL", "FILE_INCLUSION", "CODE_INJECTION"] [],
      sanitizerEntry "floatval" ["SQL_INJECTION", "XSS", "COMMAND_INJECTION", "CODE_INJECTION"] [],
      sanitizerEntry "boolval" ["SQL_INJECTION", "XSS", "COMMAND_INJECTION", "CODE_INJECTION"] []]),
    ("ENCODING", .list [
      sanitizerEntry "urlencode" ["XSS", "OPEN_REDIRECT"] [reversedByField "urldecode"],
      sanitizerEntry "rawurlencode" ["XSS", "OPEN_REDIRECT"] [reversedByField "rawurldecode"],
      sanitizerEntry "base64_encode" ["XSS"] [reversedByField "base64_decode"]])]

/-- The default rule directory, shown under the given path. -/
def defaultDirectory (path : String) : RuleDirectory where
  path := path
  sources := ⟨path ++ "/sources.yml", .data (.ofValue defaultSources)⟩
  sinks := ⟨path ++ "/sinks.yml", .data (.ofValue defaultSinks)⟩
  sanitizers := ⟨path ++ "/sanitizers.yml", .data (.ofValue defaultSanitizers)⟩

/-- The default rules. -/
def RuleSet.default : RuleSet :=
  match RuleSet.ofContents (.ofValue defaultSources) (.ofValue defaultSinks)
      (.ofValue defaultSanitizers) with
  | .ok rules => rules
  | .error _ => ∅

end PhpTaint.Rules
