import ImmutableJava.Batch
import ImmutableJava.Declaration.Json
import ImmutableJava.FileSystem
import ImmutableJava.Settings

/-!
# Runs

A run settles what is chosen, finds the declaration files among its inputs, reads
them, generates a batch and writes its sources below the output directory.

An input is a file, or a directory in which every file with the extension `json` is
meant, configuration files apart.  The files are read in the order of their paths,
each once.

Problems of declarations are part of the result of a run.  A `RunError` ends it: an
input that is missing or unreadable, a setting that makes no sense, a file that
cannot be written.
-/

namespace ImmutableJava

/-- Why a run ends without a result. -/
inductive RunError where
  /-- The configuration file cannot be read. -/
  | unreadableConfig (path : Path) (reason : String)
  /-- The configuration file is no configuration. -/
  | invalidConfig (path : Path)
  /-- The annotation of generated classes is none. -/
  | invalidMarker (error : MarkerError)
  /-- An input is neither a file nor a directory. -/
  | inputNotFound (path : Path)
  /-- A directory cannot be searched. -/
  | unreadableDirectory (path : Path) (reason : String)
  /-- There is no declaration file. -/
  | noDeclarationFiles
  /-- A declaration file cannot be read. -/
  | unreadableFile (path : Path) (reason : String)
  /-- A declaration file holds no declarations. -/
  | invalidFile (path : Path)
  /-- Generating ended with a fault. -/
  | generation (error : GenerateError)
  /-- A directory cannot be made. -/
  | directoryNotMade (path : Path) (reason : String)
  /-- A source cannot be written. -/
  | notWritten (path : Path) (reason : String)

/-- What is at the bottom of an error. -/
inductive RunError.Cause where
  /-- A document is malformed, or not of the shape that is read. -/
  | document
  /-- The file system refused an operation. -/
  | system (reason : String)

namespace RunError

/-- What the run was about, from the outside in. -/
def context : RunError → List String
  | unreadableConfig path _ => ["failed to read immgen config " ++ path.text]
  | invalidConfig path =>
    ["invalid immgen config " ++ path.text, "failed to parse immgen config"]
  | invalidMarker e => ["invalid generated annotation '" ++ e.name ++ "'", e.error.message]
  | inputNotFound path => ["input not found: " ++ path.text]
  | unreadableDirectory path _ => ["failed to read directory " ++ path.text]
  | noDeclarationFiles => ["no declaration files found"]
  | unreadableFile path _ => ["failed to read " ++ path.text]
  | invalidFile path => ["invalid declaration file " ++ path.text]
  | generation e =>
    "failed to generate sources" :: e.message :: if e.hasCause then [e.message] else []
  | directoryNotMade path _ => ["failed to create directory " ++ path.text]
  | notWritten path _ => ["failed to write " ++ path.text]

/-- What is below the context, where there is something. -/
def cause? : RunError → Option Cause
  | unreadableConfig _ reason => some (.system reason)
  | invalidConfig _ => some .document
  | unreadableDirectory _ reason => some (.system reason)
  | unreadableFile _ reason => some (.system reason)
  | invalidFile _ => some .document
  | directoryNotMade _ reason => some (.system reason)
  | notWritten _ reason => some (.system reason)
  | _ => none

/-- The text shown for a cause. -/
def Cause.message : Cause → String
  | document => "not a document of the expected shape"
  | system reason => reason

/-- The text shown for the error: its context and its cause on one line. -/
def message (e : RunError) : String :=
  ": ".intercalate (e.context ++ (e.cause?.map Cause.message).toList)

end RunError

/-- The result of a run. -/
structure RunResult where
  /-- The sources and the failures. -/
  batch : Batch
  /-- Warnings about declarations that were left out. -/
  warnings : List Diagnostic
  /-- The files that were written, in the order of the sources. -/
  emitted : List Path
  /-- The files that were read, in order. -/
  read : List Path

/-- Work that a `RunError` can end. -/
abbrev RunM (m : Type → Type) := ExceptT RunError m

namespace Run

variable {m : Type → Type} [Monad m]

/-- The value of an operation of the file system, or the error for its reason. -/
def orElse {α : Type} (operation : m (Except String α)) (error : String → RunError) : RunM m α :=
  do
    match ← operation with
    | .ok a => return a
    | .error reason => throw (error reason)

/-- The value of a pure step, or the error for its fault. -/
def ofExcept {ε α : Type} (error : ε → RunError) (result : Except ε α) : RunM m α :=
  ExceptT.mk (pure (result.mapError error))

/-- The value that a document describes, or the error for a document that describes
none. -/
def ofDocument {α : Type} (error : RunError) (value? : Option α) : RunM m α :=
  match value? with
  | some a => return a
  | none => throw error

/-! ## Settings -/

/-- The configuration file: the one that an option names, or else the one of the
working directory if it is a file. -/
def findConfig (fs : FileSystem m) (arguments : CommandLine.Arguments) (cwd : Path) :
    m (Option Path) := do
  match arguments.config? with
  | some path => return some (cwd.join path.text)
  | none =>
    let candidate := cwd.join Config.fileName
    return if ← fs.isFile candidate then some candidate else none

/-- The configuration in a file. -/
def loadConfig (fs : FileSystem m) (path : Path) : RunM m Config := do
  let document ← orElse (fs.readText path) (.unreadableConfig path)
  ofDocument (.invalidConfig path) (Config.parse? document)

/-- The settings of a run. -/
def settle (fs : FileSystem m) (arguments : CommandLine.Arguments) (cwd : Path) :
    RunM m Settings := do
  let file? ← ExceptT.lift (findConfig fs arguments cwd)
  let config ←
    match file? with
    | some path => loadConfig fs path
    | none => pure {}
  ofExcept .invalidMarker (Settings.ofConfig arguments cwd file? config)

/-! ## Declarations -/

/-- Whether a file of a directory is meant to hold declarations. -/
def isDeclarationFile (path : Path) : Bool :=
  path.extension? = some "json" && path.fileName? ≠ some Config.fileName

/-- The declaration files of an input. -/
def declarationFiles (fs : FileSystem m) (input : Path) : RunM m (List Path) := do
  if ← fs.isFile input then
    return [input]
  else if ← fs.isDirectory input then
    return (← orElse (fs.filesBelow input) (.unreadableDirectory input)).filter isDeclarationFile
  else
    throw (.inputNotFound input)

/-- Paths in order, with one of those that have the same components. -/
def inOrder (paths : List Path) : List Path :=
  (paths.mergeSort fun p q => compare p q != .gt).eraseRepsBy Path.sameComponents

/-- The declaration files of all inputs. -/
def discover (fs : FileSystem m) (inputs : List Path) (cwd : Path) : RunM m (List Path) := do
  let found ← inputs.mapM fun input => declarationFiles fs (cwd.join input.text)
  return inOrder found.flatten

/-- The declarations in a file. -/
def readDeclarations (fs : FileSystem m) (file : Path) : RunM m (List FiledDeclaration) := do
  let document ← orElse (fs.readText file) (.unreadableFile file)
  let declarations ← ofDocument (.invalidFile file) (Declaration.parseFile? document)
  return declarations.map (FiledDeclaration.mk file)

/-! ## Sources -/

/-- Where a source is written. -/
def outputPath (outDir : Path) (source : GeneratedSource) : Path :=
  outDir.join source.relativePath.text

/-- Writes a source, with the directories around it, and answers where. -/
def writeSource (fs : FileSystem m) (outDir : Path) (source : GeneratedSource) : RunM m Path := do
  let path := outputPath outDir source
  match path.parent? with
  | some parent => orElse (fs.makeDirectories parent) (.directoryNotMade parent)
  | none => pure ()
  orElse (fs.writeText path source.text) (.notWritten path)
  return path

/-- A run whose settings are settled. -/
def withSettings (fs : FileSystem m) (arguments : CommandLine.Arguments) (cwd : Path)
    (settings : Settings) : RunM m RunResult := do
  let files ← discover fs arguments.inputs cwd
  if files.isEmpty then
    throw .noDeclarationFiles
  let declarations ← files.mapM (readDeclarations fs)
  let generated ← ofExcept .generation (settings.options.generateBatch declarations.flatten)
  let batch := generated.value
  let emitted ←
    if arguments.noEmit then pure [] else batch.sources.mapM (writeSource fs settings.outDir)
  return ⟨batch, generated.diagnostics, emitted, files⟩

/-- A run. -/
def generate (fs : FileSystem m) (arguments : CommandLine.Arguments) (cwd : Path) :
    RunM m RunResult := do
  withSettings fs arguments cwd (← settle fs arguments cwd)

end Run

end ImmutableJava
