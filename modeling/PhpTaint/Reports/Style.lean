/-!
# Colours

Messages and reports can be coloured for a terminal. A style decides it once for
all of them: an uncoloured style leaves every text as it is.
-/

namespace PhpTaint.Reports

/-- How texts are shown. -/
structure Style where
  colored : Bool
  deriving DecidableEq, Repr

/-- The terminal codes of the colours in use. -/
inductive Paint where
  /-- Errors and severe findings. -/
  | red
  /-- The worst findings. -/
  | boldRed
  /-- Success. -/
  | green
  /-- Warnings and findings of medium severity. -/
  | yellow
  /-- Progress and findings of low severity. -/
  | cyan
  /-- Headings. -/
  | bold
  /-- No change. -/
  | plain
  deriving DecidableEq, Repr

/-- The code of a colour. -/
def Paint.code : Paint -> String
  | .red => "31"
  | .boldRed => "31;1"
  | .green => "32"
  | .yellow => "33"
  | .cyan => "36"
  | .bold => "1"
  | .plain => "0"

/-- A text in a colour. -/
def Style.paint (style : Style) (paint : Paint) (text : String) : String :=
  if style.colored then "\x1b[" ++ paint.code ++ "m" ++ text ++ "\x1b[0m" else text

/-- The colour of a severity. -/
def severityPaint (severity : String) : Paint :=
  match severity with
  | "CRITICAL" => .boldRed
  | "HIGH" => .red
  | "MEDIUM" => .yellow
  | "LOW" => .cyan
  | _ => .plain

end PhpTaint.Reports
