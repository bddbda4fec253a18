import ImmutableJava.BinaryName.Parse
import ImmutableJava.Json.Record
import ImmutableJava.Template

/-!
# Templates as documents

A template is written with its pattern, its arguments and its kind.  Reading does
not compare placeholders with arguments; a template without a kind is a composition.
-/

namespace ImmutableJava

namespace TemplateKind

/-- All kinds. -/
def all : List TemplateKind :=
  [primitive, array, declared, typeParameter, typeVariable, wildcard, declaration, error,
    composite]

/-- The name of a kind in documents. -/
def name : TemplateKind → String
  | primitive => "primitive"
  | array => "array"
  | declared => "declared"
  | typeParameter => "type_parameter"
  | typeVariable => "type_variable"
  | wildcard => "wildcard"
  | declaration => "declaration"
  | error => "error"
  | composite => "composite"

/-- The kind with a name. -/
def ofName? (name : String) : Option TemplateKind := all.find? fun kind => kind.name = name

end TemplateKind

/-- Reads a type by its binary name. -/
def BinaryName.read : Json.Reader BinaryName := fun depth value =>
  (Json.readText depth value).bind BinaryName.ofText?

/-- The document of a type. -/
def BinaryName.toJson (n : BinaryName) : Json := .text n.text

namespace Template

/-- The document of a template. -/
def toJson (t : Template) : Json :=
  .object
    [Json.field "pattern" (.text t.pattern),
      Json.field "args" (.array (t.args.map BinaryName.toJson)),
      Json.field "kind" (.text t.kind.name)]

/-- Reads a template. -/
def read : Json.Reader Template
  | depth + 1, value => do
    let [pattern, args, kind] ← Json.fieldsOf? false ["pattern", "args", "kind"] value | none
    return ⟨← Json.required Json.readText depth pattern,
      ← Json.required (Json.readList BinaryName.read) depth args,
      ← Json.withDefault .composite (Json.readName TemplateKind.ofName?) depth kind⟩
  | 0, _ => none

end Template

end ImmutableJava
