import ImmutableJava.Implementation
import ImmutableJava.Json.Parser
import ImmutableJava.Template.Json

/-!
# Implementations as documents

An implementation can be written down and its source be made later.  Reading checks
the names of types, and nothing else: the templates need not fit their arguments,
and the class need not be a declared type.
-/

namespace ImmutableJava

/-- Reads a set of texts. -/
def Json.readTexts : Json.Reader (SortedSet String) := fun depth value =>
  (Json.readList Json.readText depth value).map SortedSet.ofList

/-- The array of texts. -/
def Json.ofTexts (texts : List String) : Json := .array (texts.map Json.text)

namespace Member

/-- The document of a member. -/
def toJson (m : Member) : Json :=
  .object [Json.field "name" (.text m.name), Json.field "type" m.type.toJson]

/-- Reads a member. -/
def read : Json.Reader Member
  | depth + 1, value => do
    let [name, type] ← Json.fieldsOf? false ["name", "type"] value | none
    return ⟨← Json.required Json.readText depth name, ← Json.required Template.read depth type⟩
  | 0, _ => none

end Member

namespace ImmutableType

/-- The document of a class and its interface. -/
def toJson (t : ImmutableType) : Json :=
  .object
    [Json.field "rawImplType" t.rawType.toJson,
      Json.field "implType" t.classType.toJson,
      Json.field "interfaceType" t.interfaceType.toJson,
      Json.field "typeVariables" (Json.ofTexts t.typeVariables),
      Json.field "packageTypes" (Json.ofTexts t.packageTypes.toList)]

/-- Reads a class and its interface. -/
def read : Json.Reader ImmutableType
  | depth + 1, value => do
    let [rawType, classType, interfaceType, typeVariables, packageTypes] ←
      Json.fieldsOf? false
        ["rawImplType", "implType", "interfaceType", "typeVariables", "packageTypes"] value | none
    return {
      rawType := ← Json.required BinaryName.read depth rawType
      classType := ← Json.required Template.read depth classType
      interfaceType := ← Json.required Template.read depth interfaceType
      typeVariables := ← Json.withDefault [] (Json.readList Json.readText) depth typeVariables
      packageTypes := ← Json.withDefault ∅ Json.readTexts depth packageTypes }
  | 0, _ => none

end ImmutableType

namespace Implementation

/-- The document of an implementation. -/
def toJson (i : Implementation) : Json :=
  .object
    [Json.field "type" i.type.toJson, Json.field "members" (.array (i.members.map Member.toJson))]

/-- Reads an implementation. -/
def read : Json.Reader Implementation
  | depth + 1, value => do
    let [type, members] ← Json.fieldsOf? false ["type", "members"] value | none
    return ⟨← Json.required ImmutableType.read depth type,
      ← Json.required (Json.readList Member.read) depth members⟩
  | 0, _ => none

/-- The implementation that a document describes. -/
def parse? (document : String) : Option Implementation :=
  (Json.parse? document).bind (read Json.maxDepth)

end Implementation

end ImmutableJava
