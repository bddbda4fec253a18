import ImmutableJava.Declaration.Implementation
import ImmutableJava.Path
import ImmutableJava.SourceText

/-!
# Generated sources

A declaration that passes its checks yields one source file: its text, and the path
at which it belongs below an output directory --- a directory for each segment of
the package, and a file named after the class.

A declaration with problems yields its diagnostics instead.  Several declarations
are generated independently of each other and answered in order.
-/

namespace ImmutableJava

/-- A source file to be written. -/
structure GeneratedSource where
  /-- The qualified name of the class. -/
  qualifiedName : String
  /-- Where the file belongs, seen from the output directory. -/
  relativePath : Path
  /-- What the file contains. -/
  text : String
  deriving DecidableEq

/-- The path of the source file of a type: its package's segments, and its simple
name with the extension of sources. -/
def BinaryName.sourcePath (n : BinaryName) : Path :=
  (((Pieces.cut '.' n.packageName).filter (· ≠ "")).foldl Path.join ⟨""⟩).join
    (n.simpleName ++ ".java")

/-- Why a declaration yields no source. -/
inductive GenerateError where
  /-- The declaration has problems. -/
  | diagnostics (sourceName : String) (diagnostics : List Diagnostic)
  /-- Types to be available share a simple name. -/
  | conflict (error : ConflictError)
  /-- A template or a name was misused. -/
  | type (error : TypeError)
  /-- A template is misaligned. -/
  | misaligned (fault : Misalignment)

namespace GenerateError

/-- The text shown for a misaligned template. -/
def misalignmentMessage (fault : Misalignment) : String :=
  "placeholder count must match argument count in " ++ fault.pattern.quote

/-- The text shown for the error. -/
def message : GenerateError → String
  | diagnostics sourceName ds =>
    sourceName ++ ": " ++ (ds.countP (·.isError)).repr ++ " error(s) reported"
  | conflict error => error.message
  | type error => error.message
  | misaligned fault => misalignmentMessage fault

/-- The error for a fault in writing the source. -/
def ofSourceFault : SourceFault → GenerateError
  | .conflict error => conflict error
  | .template (.misuse error) => type error
  | .template (.misaligned fault) => misaligned fault

/-- Whether the error passes on another one. -/
def hasCause : GenerateError → Bool
  | conflict _ => true
  | type _ => true
  | _ => false

end GenerateError

namespace GeneratorOptions

/-- Generates the source for one declaration. -/
def generate (options : GeneratorOptions) (d : Declaration) :
    Except GenerateError GeneratedSource := do
  let modelled ← d.implementation.mapError .misaligned
  match modelled.value with
  | none => throw (.diagnostics d.binaryName modelled.diagnostics)
  | some i =>
    let text ← (i.source options).mapError GenerateError.ofSourceFault
    return ⟨i.sourceName, i.type.rawType.sourcePath, text⟩

/-- Generates the sources for several declarations, in order. -/
def generateAll (options : GeneratorOptions) (ds : List Declaration) :
    List (Except GenerateError GeneratedSource) := ds.map options.generate

end GeneratorOptions

end ImmutableJava
