import ImmutableJava.BinaryName
import ImmutableJava.Pieces

/-!
# The import trie

Which part of a qualified name may be left out depends on the longest imported
type that the name starts with.  The import trie answers that: its paths are the
segments of qualified names, a node holds the type whose qualified name ends
there, and a node may be marked as a package whose types need no import.

Children are kept in increasing order of their segments, so a walk from the root
visits the types in the lexicographic order of their segment lists, each before
the types whose names continue its own.

Package paths and type paths share nodes.  A node may be a package, a type and an
inner node at once, and the order of insertions does not matter for what a lookup
or a walk finds.
-/

namespace ImmutableJava

/-- A node of the trie, with its distance from the root, the type that ends here,
whether it is an implicitly imported package, and its children by segment. -/
inductive ImportTrie where
  /-- A node with its children in increasing order of segments. -/
  | node (depth : Nat) (type? : Option BinaryName) (implicit : Bool)
      (children : List (String × ImportTrie))

namespace ImportTrie

/-- The number of segments on the way from the root. -/
def depth : ImportTrie → Nat
  | node depth _ _ _ => depth

/-- The type whose qualified name ends at the node. -/
def type? : ImportTrie → Option BinaryName
  | node _ type? _ _ => type?

/-- Whether the node is marked as an implicitly imported package. -/
def isImplicit : ImportTrie → Bool
  | node _ _ implicit _ => implicit

/-- The children with their segments, in increasing order. -/
def children : ImportTrie → List (String × ImportTrie)
  | node _ _ _ children => children

/-- A node without children. -/
def leaf (depth : Nat) : ImportTrie := node depth none false []

/-- The root of an empty trie. -/
def empty : ImportTrie := leaf 0

/-- Whether a type ends at the node. -/
def isType (t : ImportTrie) : Bool := t.type?.isSome

/-- The position of the node's segment in a name that passes through it; the root
has none. -/
def segmentIndex? (t : ImportTrie) : Option Nat :=
  match t.depth with
  | 0 => none
  | index + 1 => some index

/-- Lets a type end at the node, in place of any other. -/
def withType (type : BinaryName) : ImportTrie → ImportTrie
  | node depth _ implicit children => node depth (some type) implicit children

/-- Marks the node as an implicitly imported package. -/
def markImplicit : ImportTrie → ImportTrie
  | node depth type? _ children => node depth type? true children

/-! ## Paths -/

/-- Changes the child at a segment, starting from a fresh node if there is none. -/
def alterChild (segment : String) (fresh : ImportTrie) (f : ImportTrie → ImportTrie) :
    List (String × ImportTrie) → List (String × ImportTrie)
  | [] => [(segment, f fresh)]
  | (s, child) :: rest =>
    match compare segment s with
    | .lt => (segment, f fresh) :: (s, child) :: rest
    | .eq => (s, f child) :: rest
    | .gt => (s, child) :: alterChild segment fresh f rest

/-- Changes the node at the end of a path, making the nodes on the way that are
missing. -/
def alter (f : ImportTrie → ImportTrie) : List String → ImportTrie → ImportTrie
  | [], t => f t
  | segment :: path, node depth type? implicit children =>
    node depth type? implicit (alterChild segment (leaf (depth + 1)) (alter f path) children)

/-- The child at a segment. -/
def child? (segment : String) (t : ImportTrie) : Option ImportTrie :=
  (t.children.find? fun c => c.1 = segment).map (·.2)

/-- The node at the end of a path. -/
def find? : List String → ImportTrie → Option ImportTrie
  | [], t => some t
  | segment :: path, t => (t.child? segment).bind (find? path)

/-- The segments of a package name; the unnamed package is the root. -/
def packagePath (packageName : String) : List String :=
  if packageName = "" then [] else Pieces.cut '.' packageName

/-- Adds a type at the end of its qualified name. -/
def insertType (type : BinaryName) (t : ImportTrie) : ImportTrie :=
  alter (withType type) type.segments t

/-- Marks a package as implicitly imported. -/
def insertPackage (packageName : String) (t : ImportTrie) : ImportTrie :=
  alter markImplicit (packagePath packageName) t

/-! ## Questions -/

/-- The lookup from a node on, with the answer so far. -/
def coveredFrom (covered : Nat) : List String → ImportTrie → Nat
  | [], _ => covered
  | segment :: path, t =>
    match t.child? segment with
    | none => covered
    | some child =>
      coveredFrom (if child.isType then child.depth - 1 else covered) path child

/-- The position of the last segment of the longest type that the path starts
with, and `0` if there is none. -/
def covered (path : List String) (t : ImportTrie) : Nat := coveredFrom 0 path t

mutual

/-- The types of a node and below it, parents first; each with whether the package
it stands in directly is implicitly imported. -/
def typesFrom (parentIsImplicit : Bool) : ImportTrie → List (BinaryName × Bool)
  | node _ type? implicit children =>
    (type?.map (·, parentIsImplicit)).toList ++ typesBelow implicit children

/-- The types of the nodes in a list and below them. -/
def typesBelow (parentIsImplicit : Bool) : List (String × ImportTrie) → List (BinaryName × Bool)
  | [] => []
  | (_, child) :: rest => typesFrom parentIsImplicit child ++ typesBelow parentIsImplicit rest

end

/-- All types of the trie, in the lexicographic order of their segments; each with
whether it is imported implicitly. -/
def types (t : ImportTrie) : List (BinaryName × Bool) := typesFrom false t

end ImportTrie

end ImmutableJava
