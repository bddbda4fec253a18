import ImmutableJava.Import.Conflict
import ImmutableJava.Import.Trie
import ImmutableJava.JavaLang
import ImmutableJava.Template

/-!
# The shortest legal names

Inside a compilation unit some types are *available*: imported, or imported
implicitly because they belong to `java.lang` or to the unit's own package.  A
`NameRenderer` spells any type by the shortest name that the available types allow:

* `java.util.Map` is `Map` when `java.util.Map` is available;
* `java.util.Map.Entry` is `Map.Entry` then, and `Entry` when it is available itself;
* any other type is spelled in full.

The available types must have distinct simple names.  Which types to make available
is decided elsewhere (`TypeQualifier`), so that this holds.
-/

namespace ImmutableJava

/-- The names of a compilation unit. -/
structure NameRenderer where
  /-- The unit's package, and the empty text for the unnamed package. -/
  packageName : String
  /-- The available types, with the implicitly imported packages. -/
  trie : ImportTrie
  /-- The available types that need an import declaration, as the trie lists them. -/
  importDeclarations : List BinaryName
  /-- The available types that need none. -/
  implicitTypes : SortedSet BinaryName

namespace NameRenderer

/-- The trie of the available types of a unit. -/
def trieOf (packageName : String) (available : SortedSet BinaryName) : ImportTrie :=
  ((available.toList.foldl (fun t type => t.insertType type) ImportTrie.empty).insertPackage
    JavaLang.packageName).insertPackage packageName

/-- The renderer of a unit with the given package and available types. -/
def ofAvailable (packageName : String) (available : List BinaryName) :
    Except ConflictError NameRenderer := do
  let available := SortedSet.ofList available
  checkDistinct available
  let trie := trieOf packageName available
  return {
    packageName := packageName
    trie := trie
    importDeclarations := (trie.types.filter fun t => !t.2).map (·.1)
    implicitTypes := SortedSet.ofList ((trie.types.filter (·.2)).map (·.1)) }

/-- The name of a type: its segments from the last segment of the longest available
type on. -/
def render (r : NameRenderer) (type : BinaryName) : String :=
  ".".intercalate (type.segments.drop (r.trie.covered type.segments))

/-- Whether two renderers list the same imports. -/
def sameImports (r s : NameRenderer) : Bool :=
  r.importDeclarations = s.importDeclarations && r.implicitTypes = s.implicitTypes

/-- The binary names of types in brackets. -/
def bracketed (types : List BinaryName) : String :=
  "[" ++ ", ".intercalate (types.map (·.text)) ++ "]"

/-- A one-line account of the imports. -/
def display (r : NameRenderer) : String :=
  "ImportManager\x7bimportDeclarations=" ++ bracketed r.importDeclarations ++
    ", implicitlyImportedTypes=" ++ bracketed r.implicitTypes.toList ++ "\x7d"

end NameRenderer

/-! ## The head of a compilation unit -/

namespace ImportBlock

/-- The package declaration, left out for the unnamed package. -/
def packageDeclaration (packageName : String) : String :=
  if packageName = "" then "" else "package " ++ packageName ++ ";\n\n"

/-- One import declaration. -/
def importDeclaration (type : BinaryName) : String := "import " ++ type.qualifiedName ++ ";\n"

/-- The import declarations, with an empty line after them if there are any. -/
def importDeclarations (types : List BinaryName) : String :=
  if types.isEmpty then "" else String.join (types.map importDeclaration) ++ "\n"

/-- The package declaration and the import declarations. -/
def declarations (packageName : String) (types : List BinaryName) : String :=
  packageDeclaration packageName ++ importDeclarations types

/-- The head of a unit whose names the renderer spells. -/
def render (r : NameRenderer) : String := declarations r.packageName r.importDeclarations

end ImportBlock

end ImmutableJava
