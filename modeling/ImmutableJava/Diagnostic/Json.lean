import ImmutableJava.Diagnostic
import ImmutableJava.Json.Record

/-!
# Diagnostics as documents
-/

namespace ImmutableJava

/-- The severity with a label. -/
def Severity.ofLabel? (label : String) : Option Severity :=
  [Severity.error, .warning].find? fun severity => severity.label = label

/-- Reads a diagnostic. -/
def Diagnostic.read : Json.Reader Diagnostic
  | depth + 1, value => do
    let [severity, message, element] ←
      Json.fieldsOf? false ["severity", "message", "element"] value | none
    return ⟨← Json.required (Json.readName Severity.ofLabel?) depth severity,
      ← Json.required Json.readText depth message,
      ← Json.withDefault none (Json.readOptional Json.readText) depth element⟩
  | 0, _ => none

/-- The document of a diagnostic. -/
def Diagnostic.toJson (d : Diagnostic) : Json :=
  .object ([Json.field "severity" (.text d.severity.label), Json.field "message" (.text d.message)] ++
    match d.element? with
    | some element => [Json.field "element" (.text element)]
    | none => [])

end ImmutableJava
