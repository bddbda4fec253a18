import ImmutableJava.Generator

/-!
# Generating a batch of declarations

The declarations of a run come from files.  A type that is declared again is
generated from its first declaration only, and each later one is a warning that
names its file: two declarations of one type would be written to one place.

The outcomes for the others are divided into sources and failures, both in the order
of the declarations.  A failure never keeps another declaration from being
generated; only a fault that no diagnostic describes ends the batch.
-/

namespace ImmutableJava

/-- A declaration with the file that it was read from. -/
structure FiledDeclaration where
  /-- The file. -/
  file : Path
  /-- The declaration. -/
  declaration : Declaration

namespace FiledDeclaration

/-- The warning that a declaration is left out. -/
def duplicateWarning (d : FiledDeclaration) : Diagnostic :=
  .warning ("duplicate declaration of " ++ d.declaration.binaryName ++ " skipped")
    (some d.file.text)

/-- The first declaration of each type that is not among the given names, with a
warning for each of the others. -/
def firstsExcept (names : List String) : List FiledDeclaration → Reported (List Declaration)
  | [] => ⟨[], []⟩
  | d :: ds =>
    if d.declaration.binaryName ∈ names then
      let rest := firstsExcept names ds
      ⟨rest.value, d.duplicateWarning :: rest.diagnostics⟩
    else
      let rest := firstsExcept (d.declaration.binaryName :: names) ds
      ⟨d.declaration :: rest.value, rest.diagnostics⟩

/-- The first declaration of each type, with a warning for each of the others. -/
def firsts (ds : List FiledDeclaration) : Reported (List Declaration) := firstsExcept [] ds

end FiledDeclaration

/-- A declaration that has problems. -/
structure Failure where
  /-- The binary name of the declaration. -/
  sourceName : String
  /-- Its problems. -/
  diagnostics : List Diagnostic
  deriving DecidableEq, Repr

/-- What becomes of the declarations of a batch. -/
structure Batch where
  /-- The sources of those without problems. -/
  sources : List GeneratedSource
  /-- The others. -/
  failures : List Failure
  deriving DecidableEq

namespace Batch

/-- Divides outcomes into sources and failures, unless one of them is another fault. -/
def ofOutcomes : List (Except GenerateError GeneratedSource) → Except GenerateError Batch
  | [] => .ok ⟨[], []⟩
  | .ok source :: rest => do
    let batch ← ofOutcomes rest
    return { batch with sources := source :: batch.sources }
  | .error (.diagnostics sourceName diagnostics) :: rest => do
    let batch ← ofOutcomes rest
    return { batch with failures := ⟨sourceName, diagnostics⟩ :: batch.failures }
  | .error fault :: _ => .error fault

/-- All problems of all failures. -/
def diagnostics (b : Batch) : List Diagnostic := b.failures.flatMap (·.diagnostics)

/-- The status with which a run ends: one if there is a failure. -/
def exitCode (b : Batch) : Nat := if b.failures.isEmpty then 0 else 1

end Batch

/-- Generates the first declaration of each type; the diagnostics are the warnings
about the others. -/
def GeneratorOptions.generateBatch (options : GeneratorOptions) (ds : List FiledDeclaration) :
    Except GenerateError (Reported Batch) := do
  let firsts := FiledDeclaration.firsts ds
  let batch ← Batch.ofOutcomes (options.generateAll firsts.value)
  return ⟨batch, firsts.diagnostics⟩

end ImmutableJava
