import ImmutableJava.Import.Qualifier

/-!
# Implementations

An `Implementation` is what a source file is written from: the implementing class,
the interface that it implements, and one member for each method.  Made from a
declaration, it is fully checked, and its source can be written.

The types that the source refers to are read off the templates: whatever can be
rendered is an argument of one of them, besides the annotation that marks the class
as generated and the one that marks an accessor.
-/

namespace ImmutableJava

/-- A field and the accessor that returns it. -/
structure Member where
  /-- The name of both. -/
  name : String
  /-- The type of both. -/
  type : Template
  deriving DecidableEq

/-- The implementing class and the interface that it implements. -/
structure ImmutableType where
  /-- The class, a top-level type in the package of the interface. -/
  rawType : BinaryName
  /-- The class with its type parameters and their bounds. -/
  classType : Template
  /-- The interface with type variables for its type parameters. -/
  interfaceType : Template
  /-- The type variables, in order. -/
  typeVariables : List String
  /-- The simple names of the top-level types of the package. -/
  packageTypes : SortedSet String
  deriving DecidableEq

/-- A class that implements an interface, neither of them generic. -/
def ImmutableType.plain (rawType rawInterface : BinaryName) : Except Misalignment ImmutableType :=
  return {
    rawType := rawType
    classType := ← Template.declared rawType []
    interfaceType := ← Template.declared rawInterface []
    typeVariables := []
    packageTypes := ∅ }

/-- Everything that a source file is written from. -/
structure Implementation where
  /-- The class and its interface. -/
  type : ImmutableType
  /-- The members in the order of the methods. -/
  members : List Member
  deriving DecidableEq

namespace Implementation

/-- The package of the class. -/
def packageName (i : Implementation) : String := i.type.rawType.packageName

/-- The simple name of the class. -/
def className (i : Implementation) : String := i.type.rawType.simpleName

/-- The qualified name of the class. -/
def sourceName (i : Implementation) : String := i.type.rawType.qualifiedName

/-- The templates that the source renders. -/
def templates (i : Implementation) : List Template :=
  i.type.classType :: i.type.interfaceType :: i.members.map (·.type)

/-- The types that the source refers to, given the annotation that marks it. -/
def referencedTypes (i : Implementation) (marker : BinaryName) : SortedSet BinaryName :=
  SortedSet.ofList (marker :: JavaLang.override :: i.templates.flatMap (·.args))

/-- What decides the spelling of these types. -/
def typeQualifier (i : Implementation) (marker : BinaryName) : TypeQualifier :=
  (TypeQualifier.resolve i.packageName i.type.typeVariables
    (i.referencedTypes marker).toList).withPackageTypes i.type.packageTypes.toList

end Implementation

end ImmutableJava
