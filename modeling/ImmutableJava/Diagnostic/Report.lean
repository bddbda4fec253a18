import ImmutableJava.Diagnostic

/-!
# Reports for a reader

A diagnostic is reported on one line, `element - severity: [tag] message`, where
the tag names the annotation that asked for the code.  A summary line counts
errors and declarations.

With colour on, the severity, the tag and the summary are wrapped in terminal
escapes.  A text that itself contains the sequence that ends a style would end the
style too early, so the style is started again after each such sequence.
-/

namespace ImmutableJava

namespace Report

/-- How reports are written. -/
structure Style where
  /-- Whether to use terminal escapes. -/
  color : Bool
  /-- The tag put before each message. -/
  tag : String

/-- The sequence that ends every style. -/
def reset : String := "\x1b[0m"

/-- Puts an opening sequence after every reset of a text. -/
def reopen (start : String) (text : String) : String :=
  (reset ++ start).intercalate (text.splitOn reset)

/-- A text in a style given by its parameter codes. -/
def paint (codes : String) (text : String) : String :=
  let start := "\x1b[" ++ codes ++ "m"
  start ++ reopen start text ++ reset

/-- A text in a style, when colour is on. -/
def Style.paint (style : Style) (codes : String) (text : String) : String :=
  if style.color then Report.paint codes text else text

/-- The codes of a severity: bold red for errors, bold yellow for warnings. -/
def severityCodes : Severity → String
  | .error => "1;31"
  | .warning => "1;33"

/-- One diagnostic as one line. -/
def line (style : Style) (d : Diagnostic) : String :=
  d.element?.getD "<unknown>" ++ " - " ++
    style.paint (severityCodes d.severity) d.severity.label ++ ": " ++
    style.paint "94" ("[" ++ style.tag ++ "]") ++ " " ++ d.message

/-- All diagnostics, one to a line. -/
def lines (style : Style) (ds : List Diagnostic) : String :=
  "\n".intercalate (ds.map (line style))

/-- A number of things, with the noun in the plural unless there is one. -/
def counted (n : Nat) (noun : String) : String :=
  if n = 1 then "1 " ++ noun else n.repr ++ " " ++ noun ++ "s"

/-- The closing line of a report. -/
def summary (style : Style) (errors declarations : Nat) : String :=
  style.paint "1"
    ("Found " ++ counted errors "error" ++ " in " ++ counted declarations "declaration" ++ ".")

end Report

end ImmutableJava
