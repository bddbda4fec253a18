import ImmutableJava.CommandLine.Token

/-!
# What the command line explains about itself
-/

namespace ImmutableJava

namespace CommandLine

namespace Usage

/-- The name of the program. -/
def programName : String := "immgen"

/-- The version of the program. -/
def version : String := "0.1.0"

/-- The line that names the version. -/
def versionLine : String := programName ++ " " ++ version ++ "\n"

/-- The form of a command line. -/
def form : String := "Usage: " ++ programName ++ " [OPTIONS] [INPUT]..."

/-- The placeholder for the value of an option. -/
def placeholder : ValueOption → String
  | .config => "CONFIG"
  | .outDir => "OUT_DIR"
  | .processorName => "NAME"
  | .marker => "TYPE"
  | .diagnosticTag => "TAG"
  | .pretty => "PRETTY"
  | .logFormat => "FORMAT"

/-- What an option does. -/
def purpose : Switch → String
  | .valued .config => "Path to an immgen.json configuration file"
  | .valued .outDir => "Directory the generated sources are written to"
  | .flag .printSources => "Print the generated sources to stdout"
  | .flag .noEmit => "Check the declarations without writing any source"
  | .valued .processorName => "Value of the generated annotation"
  | .valued .marker => "Binary name of the annotation placed on generated classes"
  | .valued .diagnosticTag => "Tag put before diagnostic messages"
  | .valued .pretty => "Enable color in diagnostics [possible values: true, false]"
  | .flag .verbose => "Log debug output when no filter variable is set"
  | .valued .logFormat => "Format of log output on stderr [possible values: text, tree, json]"
  | .flag .help => "Print help"
  | .flag .version => "Print version"

/-- The options in the order in which they are explained. -/
def switches : List Switch := (longNames.map (·.2)).eraseDups

/-- How an option is written, with its one-letter name if it has one. -/
def written (switch : Switch) : String :=
  let short :=
    match shortNames.find? (·.2 = switch) with
    | some (letter, _) => String.ofList ['-', letter, ',', ' ']
    | none => "    "
  let value :=
    match switch with
    | .valued option => " <" ++ placeholder option ++ ">"
    | .flag _ => ""
  "  " ++ short ++ switch.spelling ++ value

/-- A text filled up with spaces to a width. -/
def padded (width : Nat) (text : String) : String :=
  text ++ String.ofList (List.replicate (width - text.length) ' ')

/-- The line about an option. -/
def line (switch : Switch) : String := padded 39 (written switch) ++ purpose switch

/-- The whole explanation. -/
def help : String :=
  "\n".intercalate
    (["Generates immutable Java implementations of annotated interfaces", "", form, "",
      "Arguments:",
      "  [INPUT]...  Declaration files, or directories searched for `*.json` declaration files",
      "", "Options:"] ++ switches.map line) ++ "\n"

end Usage

end CommandLine

end ImmutableJava
