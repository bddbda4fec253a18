import ImmutableJava.CommandLine.Terminal
import ImmutableJava.CommandLine.Usage
import ImmutableJava.Diagnostic.Report
import ImmutableJava.Run

/-!
# From a command line to what is printed

A session is everything between the words of a command line and what a caller of the
program sees: an exit status, and texts on two streams.  The status is 0 for a run
without failures, 1 for one with failures, 2 for a command line or a run that is
refused, and 101 for a misaligned template, which no input of a compiler brings
about.

Sources are printed on the output stream if that is asked for.  Reports go to the
error stream: first the warnings, then the problems with a summary of them.
-/

namespace ImmutableJava

namespace CommandLine

/-- What a caller of the program sees, files apart. -/
structure Output where
  /-- The exit status. -/
  exitCode : Nat
  /-- The text on the output stream. -/
  output : String := ""
  /-- The text on the error stream. -/
  error : String := ""
  deriving DecidableEq, Repr

namespace Output

/-- The report of warnings. -/
def warningReport (style : Report.Style) (warnings : List Diagnostic) : String :=
  if warnings.isEmpty then "" else Report.lines style warnings ++ "\n"

/-- The report of failures. -/
def failureReport (style : Report.Style) (batch : Batch) : String :=
  if batch.failures.isEmpty then ""
  else
    Report.lines style batch.diagnostics ++ "\n\n" ++
      Report.summary style batch.diagnostics.length batch.failures.length ++ "\n"

/-- What is seen of a run that has a result. -/
def ofResult (arguments : Arguments) (style : Report.Style) (result : RunResult) : Output where
  exitCode := result.batch.exitCode
  output :=
    if arguments.printSources then String.join (result.batch.sources.map (·.text)) else ""
  error := warningReport style result.warnings ++ failureReport style result.batch

/-- What is seen of a run that ends with an error. -/
def ofError (e : RunError) : Output where
  exitCode :=
    match e with
    | .generation (.misaligned _) => 101
    | _ => 2
  error := "error: " ++ e.message ++ "\n"

/-- What is seen of a command line that gives no arguments. -/
def ofInterruption : Interruption → Output
  | .help => { exitCode := 0, output := Usage.help }
  | .version => { exitCode := 0, output := Usage.versionLine }
  | .refusal e =>
    { exitCode := 2,
      error := "error: " ++ e.message ++ "\n\n" ++ Usage.form ++
        "\n\nFor more information, try '--help'.\n" }

end Output

namespace Session

variable {m : Type → Type} [Monad m]

/-- Runs with arguments, and answers what is seen of it. -/
def runArguments (fs : FileSystem m) (cwd : Path) (terminal : Terminal) (arguments : Arguments) :
    RunM m Output := do
  let settings ← Run.settle fs arguments cwd
  let result ← Run.withSettings fs arguments cwd settings
  return .ofResult arguments ⟨terminal.usesColor arguments.pretty?, settings.options.diagnosticTag⟩
    result

/-- Runs a command line, and answers what is seen of it. -/
def run (fs : FileSystem m) (cwd : Path) (terminal : Terminal) (words : List String) : m Output := do
  match Arguments.ofWords words with
  | .error interruption => return .ofInterruption interruption
  | .ok arguments =>
    match ← (runArguments fs cwd terminal arguments).run with
    | .ok output => return output
    | .error e => return .ofError e

end Session

end CommandLine

end ImmutableJava
