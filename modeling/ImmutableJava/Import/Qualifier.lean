import ImmutableJava.Import.Renderer

/-!
# Which types to import

A compilation unit refers to types, and only top-level types are imported: a nested
type is spelled through its outermost type.  `TypeQualifier` takes the top-level
types that a unit refers to and divides them.

A type is *qualified*, that is spelled in full, when its simple name means something
else in the unit:

* another referenced type has that simple name, unless the type belongs to the
  unit's own package;
* a type variable has that name;
* the type belongs to `java.lang`, and the unit's package declares a type of that
  name, whether or not the unit refers to it.

Of the others, the types of `java.lang` and of the unit's package are *implicit*,
and the rest are *imported*.
-/

namespace ImmutableJava

/-- What decides the spelling of the types that a compilation unit refers to. -/
structure TypeQualifier where
  /-- The unit's package, and the empty text for the unnamed package. -/
  packageName : String
  /-- The simple names of top-level types known to be declared in the package. -/
  packageTypes : SortedSet String
  /-- The names of the type variables in scope. -/
  typeVariables : SortedSet String
  /-- The top-level types of the types that the unit refers to. -/
  referencedTypes : SortedSet BinaryName
  deriving DecidableEq

namespace TypeQualifier

/-- The qualifier of a unit that refers to the given types. -/
def resolve (packageName : String) (typeVariables : List String) (referenced : List BinaryName) :
    TypeQualifier where
  packageName := packageName
  packageTypes := ∅
  typeVariables := SortedSet.ofList typeVariables
  referencedTypes := SortedSet.ofList (referenced.map (·.topLevelType))

/-- Makes more types of the unit's package known. -/
def withPackageTypes (q : TypeQualifier) (names : List String) : TypeQualifier :=
  { q with packageTypes := q.packageTypes ∪ SortedSet.ofList names }

/-! ## The three parts -/

/-- Types that share their simple name, those of the unit's package apart. -/
def typeConflicts (q : TypeQualifier) : List BinaryName :=
  ((SimpleName.conflicts q.referencedTypes.toList).flatMap (·.2)).filter
    fun t => t.packageName ≠ q.packageName

/-- Types whose simple name is a type variable. -/
def typeVariableConflicts (q : TypeQualifier) : List BinaryName :=
  q.referencedTypes.toList.filter fun t => t.simpleName ∈ q.typeVariables

/-- Types of `java.lang` whose simple name the unit's package declares as well. -/
def javaLangConflicts (q : TypeQualifier) : List BinaryName :=
  q.referencedTypes.toList.filter fun t =>
    t.packageName = JavaLang.packageName && t.simpleName ∈ q.packageTypes

/-- The types that are spelled in full. -/
def qualifiedTypes (q : TypeQualifier) : SortedSet BinaryName :=
  SortedSet.ofList (q.typeConflicts ++ q.typeVariableConflicts ++ q.javaLangConflicts)

/-- Whether the types of a package need no import. -/
def isImplicitPackage (q : TypeQualifier) (packageName : String) : Bool :=
  packageName = JavaLang.packageName || packageName = q.packageName

/-- The types that can be referred to by their simple names. -/
def unqualifiedTypes (q : TypeQualifier) : SortedSet BinaryName :=
  q.referencedTypes.without q.qualifiedTypes

/-- The types that need an import declaration, in increasing order. -/
def importedTypes (q : TypeQualifier) : List BinaryName :=
  q.unqualifiedTypes.toList.filter fun t => !q.isImplicitPackage t.packageName

/-- The types that need neither an import nor a full spelling. -/
def implicitTypes (q : TypeQualifier) : SortedSet BinaryName :=
  q.unqualifiedTypes.filter fun t => q.isImplicitPackage t.packageName

/-- The types that can be referred to by their simple names, imported ones first. -/
def availableTypes (q : TypeQualifier) : List BinaryName :=
  q.importedTypes ++ q.implicitTypes.toList

/-- Whether a type is spelled in full, decided by its top-level type. -/
def isQualified (q : TypeQualifier) (type : BinaryName) : Bool :=
  type.topLevelType ∈ q.qualifiedTypes

/-- The renderer for the available types. -/
def nameRenderer (q : TypeQualifier) : Except ConflictError NameRenderer :=
  NameRenderer.ofAvailable q.packageName q.availableTypes

end TypeQualifier

end ImmutableJava
