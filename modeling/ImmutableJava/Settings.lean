import ImmutableJava.CommandLine.Arguments
import ImmutableJava.Json.Parser
import ImmutableJava.Json.Record
import ImmutableJava.SourceText

/-!
# The settings of a run

What can be chosen about a run is chosen by an option of the command line, or else by
the configuration file, or else by default.  A configuration file knows four fields
and admits no others.

A directory that the configuration file names is seen from the directory of that
file, and one that an option names from the working directory.
-/

namespace ImmutableJava

/-- The contents of a configuration file. -/
structure Config where
  /-- The directory that sources are written to. -/
  outDir? : Option String := none
  /-- What a generated class names as its generator. -/
  processorName? : Option String := none
  /-- The annotation of a generated class. -/
  marker? : Option String := none
  /-- The tag of reported diagnostics. -/
  diagnosticTag? : Option String := none
  deriving DecidableEq, Repr

namespace Config

/-- The configuration file of a working directory. -/
def fileName : String := "immgen.json"

/-- The names of the fields. -/
def fieldNames : List String :=
  ["outDir", "processorName", "generatedAnnotation", "diagnosticTag"]

/-- Reads a configuration. -/
def read : Json.Reader Config
  | depth + 1, value => do
    let [outDir, processorName, marker, diagnosticTag] ←
      Json.fieldsOf? true fieldNames value | none
    let text := Json.withDefault none (Json.readOptional Json.readText) depth
    return ⟨← text outDir, ← text processorName, ← text marker, ← text diagnosticTag⟩
  | 0, _ => none

/-- The configuration that a document describes. -/
def parse? (document : String) : Option Config :=
  (Json.parse? document).bind (read Json.maxDepth)

end Config

/-- What is settled about a run. -/
structure Settings where
  /-- The directory that sources are written to. -/
  outDir : Path
  /-- What is chosen about the sources. -/
  options : GeneratorOptions
  /-- The configuration file, if there is one. -/
  configPath? : Option Path

/-- A name that cannot be the annotation of a generated class. -/
structure MarkerError where
  /-- The name. -/
  name : String
  /-- Why it is none. -/
  error : TypeError

namespace Settings

/-- The output directory of a working directory. -/
def defaultOutDir : String := "generated"

/-- The output directory of a run, given the configuration with the path of its file. -/
def outDirOf (arguments : CommandLine.Arguments) (cwd : Path) (file? : Option Path)
    (config : Config) : Path :=
  match arguments.outDir?, config.outDir? with
  | some path, _ => cwd.join path.text
  | none, some text => ((file?.bind Path.parent?).getD cwd).join text
  | none, none => cwd.join defaultOutDir

/-- The annotation of generated classes. -/
def markerOf (name? : Option String) : Except MarkerError BinaryName :=
  match name? with
  | none => .ok GeneratorOptions.standard.marker
  | some name => (BinaryName.ofText name).mapError (MarkerError.mk name)

/-- The settings of a run, given the configuration with the path of its file. -/
def ofConfig (arguments : CommandLine.Arguments) (cwd : Path) (file? : Option Path)
    (config : Config) : Except MarkerError Settings := do
  let marker ← markerOf (arguments.marker? <|> config.marker?)
  let standard := GeneratorOptions.standard
  return {
    outDir := outDirOf arguments cwd file? config
    options := {
      processorName :=
        (arguments.processorName? <|> config.processorName?).getD standard.processorName
      marker := marker
      diagnosticTag :=
        (arguments.diagnosticTag? <|> config.diagnosticTag?).getD standard.diagnosticTag }
    configPath? := file? }

end Settings

end ImmutableJava
