import ImmutableJava.Blank

/-!
# What is logged, and in which form

Nothing is logged unless someone asks for it.  A filter can be set for this program
or for all programs of the environment; the verbose option stands in for both when
neither is set.  A filter that is set but empty still counts as set.

Only these choices are made here.  The log itself is written by whoever runs the
program, and nothing else depends on it.
-/

namespace ImmutableJava

/-- The form of the log. -/
inductive LogFormat where
  /-- One line of text for each event. -/
  | text
  /-- Events indented below the work that they belong to. -/
  | tree
  /-- One JSON object for each event. -/
  | json
  deriving DecidableEq, Repr

namespace LogFormat

/-- All forms. -/
def all : List LogFormat := [text, tree, json]

/-- The name of a form. -/
def name : LogFormat → String
  | text => "text"
  | tree => "tree"
  | json => "json"

/-- The form with a name. -/
def ofName? (name : String) : Option LogFormat := all.find? fun format => format.name = name

theorem ofName?_name (format : LogFormat) : ofName? format.name = some format := by
  cases format <;> rfl

/-- The form that a setting of the environment asks for: its name in any case, with
blanks around it, and plain text for anything else. -/
def ofSetting (setting : Option String) : LogFormat :=
  (setting.bind fun text => ofName? ((trimBlanks text).map Char.toLower)).getD text

/-- The form to use: the one that was asked for by an option, or else the one of the
environment. -/
def choose (option : Option LogFormat) (setting : Option String) : LogFormat :=
  option.getD (ofSetting setting)

end LogFormat

namespace LogFilter

/-- What the verbose option lets through. -/
def verbose : String :=
  "immgen_cli=debug,immgen_emitter=debug,immgen_imports=debug,immgen_types=debug"

/-- The filter to use, if anything is to be logged: the program's own, that of the
environment, or the verbose one. -/
def choose (own shared : Option String) (isVerbose : Bool) : Option String :=
  own <|> shared <|> if isVerbose then some verbose else none

end LogFilter

end ImmutableJava
