import ImmutableJava.Declaration
import ImmutableJava.Implementation.Json
import ImmutableJava.TypeDescriptor.Json

/-!
# Declarations as documents

A declaration file holds one declaration, or an array of several.  Most fields may
be missing and then have their empty value; when declarations are written, empty
lists and sets are left out, while the kind, the flags and the methods always
appear.
-/

namespace ImmutableJava

/-- A field with a list, unless the list is empty. -/
def Json.listField (key : String) (items : List Json) : List Json.Field :=
  if items.isEmpty then [] else [Json.field key (.array items)]

namespace DeclarationKind

/-- All kinds. -/
def all : List DeclarationKind :=
  [interfaceType, classType, enumType, recordType, annotationType]

/-- The name of a kind in documents. -/
def name : DeclarationKind → String
  | interfaceType => "interface"
  | classType => "class"
  | enumType => "enum"
  | recordType => "record"
  | annotationType => "annotation"

/-- The kind with a name. -/
def ofName? (name : String) : Option DeclarationKind := all.find? fun kind => kind.name = name

end DeclarationKind

namespace Parameter

/-- The document of a parameter. -/
def toJson (p : Parameter) : Json :=
  .object [Json.field "name" (.text p.name), Json.field "type" p.type.toJson]

/-- Reads a parameter. -/
def read : Json.Reader Parameter
  | depth + 1, value => do
    let [name, type] ← Json.fieldsOf? false ["name", "type"] value | none
    return ⟨← Json.required Json.readText depth name,
      ← Json.required TypeDescriptor.read depth type⟩
  | 0, _ => none

end Parameter

namespace Method

/-- The document of a method. -/
def toJson (m : Method) : Json :=
  .object
    ([Json.field "name" (.text m.name), Json.field "returnType" m.returnType.toJson] ++
      Json.listField "parameters" (m.parameters.map Parameter.toJson) ++
      Json.listField "typeParameters" (m.typeParameters.map TypeParameter.toJson) ++
      [Json.field "static" (.bool m.isStatic), Json.field "default" (.bool m.isDefault)] ++
      match m.declaringType? with
      | some name => [Json.field "declaringType" (.text name)]
      | none => [])

/-- Reads a method. -/
def read : Json.Reader Method
  | depth + 1, value => do
    let [name, returnType, parameters, typeParameters, isStatic, isDefault, declaringType] ←
      Json.fieldsOf? false
        ["name", "returnType", "parameters", "typeParameters", "static", "default",
          "declaringType"] value | none
    return {
      name := ← Json.required Json.readText depth name
      returnType := ← Json.required TypeDescriptor.read depth returnType
      parameters := ← Json.withDefault [] (Json.readList Parameter.read) depth parameters
      typeParameters := ←
        Json.withDefault [] (Json.readList TypeParameter.read) depth typeParameters
      isStatic := ← Json.withDefault false Json.readFlag depth isStatic
      isDefault := ← Json.withDefault false Json.readFlag depth isDefault
      declaringType? := ←
        Json.withDefault none (Json.readOptional Json.readText) depth declaringType }
  | 0, _ => none

end Method

namespace Declaration

/-- The document of a declaration. -/
def toJson (d : Declaration) : Json :=
  .object
    ([Json.field "binaryName" (.text d.binaryName), Json.field "kind" (.text d.kind.name),
      Json.field "private" (.bool d.isPrivate)] ++
      Json.listField "typeParameters" (d.typeParameters.map TypeParameter.toJson) ++
      [Json.field "methods" (.array (d.methods.map Method.toJson))] ++
      Json.listField "packageTypes" (d.packageTypes.toList.map Json.text) ++
      Json.listField "existingTypes" (d.existingTypes.toList.map Json.text) ++
      Json.listField "immutableTypes" (d.immutableTypes.toList.map Json.text))

/-- Reads a declaration. -/
def read : Json.Reader Declaration
  | depth + 1, value => do
    let [name, kind, isPrivate, typeParameters, methods, packageTypes, existingTypes,
        immutableTypes] ←
      Json.fieldsOf? false
        ["binaryName", "kind", "private", "typeParameters", "methods", "packageTypes",
          "existingTypes", "immutableTypes"] value | none
    return {
      binaryName := ← Json.required Json.readText depth name
      kind := ← Json.withDefault .interfaceType (Json.readName DeclarationKind.ofName?) depth kind
      isPrivate := ← Json.withDefault false Json.readFlag depth isPrivate
      typeParameters := ←
        Json.withDefault [] (Json.readList TypeParameter.read) depth typeParameters
      methods := ← Json.withDefault [] (Json.readList Method.read) depth methods
      packageTypes := ← Json.withDefault ∅ Json.readTexts depth packageTypes
      existingTypes := ← Json.withDefault ∅ Json.readTexts depth existingTypes
      immutableTypes := ← Json.withDefault ∅ Json.readTexts depth immutableTypes }
  | 0, _ => none

/-- Reads the declarations of a file: an array of them, or a single one. -/
def readFile : Json → Option (List Declaration)
  | .array items => Json.readList read Json.maxDepth (.array items)
  | value => (read Json.maxDepth value).map ([·])

/-- The declarations that a document holds. -/
def parseFile? (document : String) : Option (List Declaration) :=
  (Json.parse? document).bind readFile

end Declaration

end ImmutableJava
