import ImmutableJava.Json.Record
import ImmutableJava.TypeDescriptor

/-!
# Type descriptors as documents

A descriptor is written as an object whose field `kind` says what it is; the other
fields depend on the kind.  As an array it has the kind first and then those fields
in order.

Since the kind may come last, a descriptor is read as a whole before it is
understood: everything inside it has to fit, unknown fields included.  Descriptors
inside a descriptor are understood from that whole, and there the kind may also be
given by its position in the list of kinds.

Optional fields are left out when they are absent or empty.
-/

namespace ImmutableJava

namespace TypeDescriptor

/-- The kinds of descriptors. -/
inductive Kind where
  /-- A primitive type. -/
  | primitive
  /-- An array type. -/
  | array
  /-- A declared type. -/
  | declared
  /-- A type variable. -/
  | typeVariable
  /-- A wildcard. -/
  | wildcard
  /-- The type of a method without a result. -/
  | void
  /-- A type that failed to compile. -/
  | broken
  /-- A union type. -/
  | union
  /-- An intersection type. -/
  | intersection
  deriving DecidableEq, Repr

namespace Kind

/-- All kinds in order. -/
def all : List Kind :=
  [primitive, array, declared, typeVariable, wildcard, void, broken, union, intersection]

/-- The name of a kind in documents. -/
def name : Kind → String
  | primitive => "primitive"
  | array => "array"
  | declared => "declared"
  | typeVariable => "type_variable"
  | wildcard => "wildcard"
  | void => "void"
  | broken => "error"
  | union => "union"
  | intersection => "intersection"

/-- The kind with a name. -/
def ofName? (name : String) : Option Kind := all.find? fun kind => kind.name = name

/-- The kind at a position. -/
def ofIndex? (index : Nat) : Option Kind := all[index]?

end Kind

/-- The kind of a descriptor. -/
def kind : TypeDescriptor → Kind
  | .primitive _ => .primitive
  | .array _ => .array
  | .declared _ _ _ => .declared
  | .typeVariable _ => .typeVariable
  | .wildcard _ _ => .wildcard
  | .void => .void
  | .broken _ => .broken
  | .union _ => .union
  | .intersection _ => .intersection

/-! ## Writing -/

/-- The object of a descriptor with its kind and its other fields. -/
def tagged (kind : Kind) (fields : List Json.Field) : Json :=
  .object (Json.field "kind" (.text kind.name) :: fields)

mutual

/-- The document of a descriptor. -/
def toJson : TypeDescriptor → Json
  | .primitive name => tagged .primitive [Json.field "name" (.text name)]
  | .array component => tagged .array [Json.field "component" component.toJson]
  | .declared name [] [] => tagged .declared [Json.field "binaryName" (.text name)]
  | .declared name typeArguments [] =>
    tagged .declared
      [Json.field "binaryName" (.text name),
        Json.field "typeArguments" (.array (listToJson typeArguments))]
  | .declared name [] enclosing =>
    tagged .declared
      [Json.field "binaryName" (.text name),
        Json.field "enclosingTypeArguments" (.array (listsToJson enclosing))]
  | .declared name typeArguments enclosing =>
    tagged .declared
      [Json.field "binaryName" (.text name),
        Json.field "typeArguments" (.array (listToJson typeArguments)),
        Json.field "enclosingTypeArguments" (.array (listsToJson enclosing))]
  | .typeVariable name => tagged .typeVariable [Json.field "name" (.text name)]
  | .wildcard none none => tagged .wildcard []
  | .wildcard (some upper) none => tagged .wildcard [Json.field "extends" upper.toJson]
  | .wildcard none (some lower) => tagged .wildcard [Json.field "super" lower.toJson]
  | .wildcard (some upper) (some lower) =>
    tagged .wildcard [Json.field "extends" upper.toJson, Json.field "super" lower.toJson]
  | .void => tagged .void []
  | .broken none => tagged .broken []
  | .broken (some name) => tagged .broken [Json.field "name" (.text name)]
  | .union alternatives =>
    tagged .union [Json.field "alternatives" (.array (listToJson alternatives))]
  | .intersection bounds => tagged .intersection [Json.field "bounds" (.array (listToJson bounds))]

/-- The documents of descriptors in order. -/
def listToJson : List TypeDescriptor → List Json
  | [] => []
  | d :: ds => d.toJson :: listToJson ds

/-- The documents of lists of descriptors in order. -/
def listsToJson : List (List TypeDescriptor) → List Json
  | [] => []
  | ds :: dss => .array (listToJson ds) :: listsToJson dss

end

/-! ## Reading -/

/-- The tag of a descriptor's document, and the document of its other fields. -/
def untag? : Json → Option (Json × Json)
  | .object fields =>
    match Json.lookup? fields "kind" with
    | some (some tag) => some (tag, .object (fields.filter (·.1 ≠ some "kind")))
    | _ => none
  | .array (tag :: items) => some (tag, .array items)
  | _ => none

/-- The kind that a tag names. -/
def namedKind? : Json → Option Kind
  | .string text? => text?.bind Kind.ofName?
  | _ => none

/-- The kind that a tag names or numbers. -/
def numberedKind? : Json → Option Kind
  | .number value => value.toNat?.bind Kind.ofIndex?
  | tag => namedKind? tag

/-- The items of an array. -/
def items? : Json → Option (List Json)
  | .array items => some items
  | _ => none

/-- The text of a string. -/
def text? : Json → Option String
  | .string text? => text?
  | _ => none

/-- A value, or `null` for none. -/
def optional? {α : Type} (read : Json → Option α) : Json → Option (Option α)
  | .null => some none
  | value => (read value).map some

/-- What a missing field reads as, or what is read from it. -/
def orElse {α : Type} (default : α) (read : Json → Option α) : Option Json → Option α
  | none => some default
  | some value => read value

/-- The descriptor of a kind with its fields, given how descriptors inside it are
read. -/
def ofFields? (part : Json → Option TypeDescriptor) (kind : Kind) (fields : Json) :
    Option TypeDescriptor :=
  let parts (value : Json) : Option (List TypeDescriptor) := do (← items? value).mapM part
  let partLists (value : Json) : Option (List (List TypeDescriptor)) := do
    (← items? value).mapM parts
  match kind with
  | .primitive => do
    let [name] ← Json.fieldsOf? false ["name"] fields | none
    return .primitive (← name.bind text?)
  | .array => do
    let [component] ← Json.fieldsOf? false ["component"] fields | none
    return .array (← component.bind part)
  | .declared => do
    let [name, typeArguments, enclosing] ←
      Json.fieldsOf? false ["binaryName", "typeArguments", "enclosingTypeArguments"] fields | none
    return .declared (← name.bind text?) (← orElse [] parts typeArguments)
      (← orElse [] partLists enclosing)
  | .typeVariable => do
    let [name] ← Json.fieldsOf? false ["name"] fields | none
    return .typeVariable (← name.bind text?)
  | .wildcard => do
    let [upper, lower] ← Json.fieldsOf? false ["extends", "super"] fields | none
    return .wildcard (← orElse none (optional? part) upper) (← orElse none (optional? part) lower)
  | .void => do
    let [] ← Json.fieldsOf? false [] fields | none
    return .void
  | .broken => do
    let [name] ← Json.fieldsOf? false ["name"] fields | none
    return .broken (← orElse none (optional? text?) name)
  | .union => do
    let [alternatives] ← Json.fieldsOf? false ["alternatives"] fields | none
    return .union (← alternatives.bind parts)
  | .intersection => do
    let [bounds] ← Json.fieldsOf? false ["bounds"] fields | none
    return .intersection (← bounds.bind parts)

/-- Reads a descriptor inside a descriptor, given how deeply it may be nested. -/
def readInner : Nat → Json → Option TypeDescriptor
  | 0, _ => none
  | depth + 1, value => do
    let (tag, fields) ← untag? value
    ofFields? (readInner depth) (← numberedKind? tag) fields

/-- Reads a descriptor. -/
def read : Json.Reader TypeDescriptor := fun depth value =>
  if value.fits depth then do
    let (tag, fields) ← untag? value
    ofFields? (readInner depth) (← namedKind? tag) fields
  else none

end TypeDescriptor

namespace TypeParameter

/-- The document of a type parameter. -/
def toJson (p : TypeParameter) : Json :=
  .object (Json.field "name" (.text p.name) ::
    if p.bounds.isEmpty then []
    else [Json.field "bounds" (.array (TypeDescriptor.listToJson p.bounds))])

/-- Reads a type parameter. -/
def read : Json.Reader TypeParameter
  | depth + 1, value => do
    let [name, bounds] ← Json.fieldsOf? false ["name", "bounds"] value | none
    return ⟨← Json.required Json.readText depth name,
      ← Json.withDefault [] (Json.readList TypeDescriptor.read) depth bounds⟩
  | 0, _ => none

end TypeParameter

end ImmutableJava
