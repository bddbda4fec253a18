import ImmutableJava.SortedSet
import ImmutableJava.TypeDescriptor

/-!
# Declarations to implement

A `Declaration` is an annotated type as a compiler sees it: its kind, its type
parameters, all of its methods, and what else exists around it.  Nothing in it is
checked yet.  Its sets of names are sorted, so equal declarations are written
alike.
-/

namespace ImmutableJava

/-- What kind of type a declaration declares. -/
inductive DeclarationKind where
  /-- An interface. -/
  | interfaceType
  /-- A class. -/
  | classType
  /-- An enum. -/
  | enumType
  /-- A record. -/
  | recordType
  /-- An annotation type. -/
  | annotationType
  deriving DecidableEq, Repr

/-- Whether a class can implement the type; annotation types are interfaces too. -/
def DeclarationKind.isInterface : DeclarationKind → Bool
  | interfaceType => true
  | annotationType => true
  | _ => false

/-- A parameter of a method. -/
structure Parameter where
  /-- Its name. -/
  name : String
  /-- Its type. -/
  type : TypeDescriptor

/-- A method of a declaration, inherited ones included. -/
structure Method where
  /-- Its name. -/
  name : String
  /-- What it returns. -/
  returnType : TypeDescriptor
  /-- Its parameters. -/
  parameters : List Parameter
  /-- Its own type parameters. -/
  typeParameters : List TypeParameter
  /-- Whether it is static. -/
  isStatic : Bool
  /-- Whether it has a default body. -/
  isDefault : Bool
  /-- The qualified name of the type it is inherited from. -/
  declaringType? : Option String

namespace Method

/-- An abstract method without parameters. -/
def accessor (name : String) (returnType : TypeDescriptor) : Method :=
  ⟨name, returnType, [], [], false, false, none⟩

/-- Whether the implementation has to define the method: it is neither static nor
default nor declared by `java.lang.Object`. -/
def isToImplement (m : Method) : Bool :=
  m.declaringType? ≠ some JavaLang.object.qualifiedName && !m.isStatic && !m.isDefault

end Method

/-- An annotated type. -/
structure Declaration where
  /-- The binary name, as it arrived. -/
  binaryName : String
  /-- What kind of type it is. -/
  kind : DeclarationKind
  /-- Whether the type, or a type around it, is private. -/
  isPrivate : Bool
  /-- Its type parameters. -/
  typeParameters : List TypeParameter
  /-- All of its methods. -/
  methods : List Method
  /-- The simple names of the top-level types of its package. -/
  packageTypes : SortedSet String
  /-- The qualified names of types that exist already. -/
  existingTypes : SortedSet String
  /-- The qualified names of existing types that are to be implemented as well. -/
  immutableTypes : SortedSet String

/-- A public interface without type parameters or methods. -/
def Declaration.ofName (binaryName : String) : Declaration :=
  ⟨binaryName, .interfaceType, false, [], [], ∅, ∅, ∅⟩

end ImmutableJava
