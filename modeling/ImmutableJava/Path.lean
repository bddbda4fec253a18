import ImmutableJava.Pieces

/-!
# File paths

A path is a text cut at slashes.  What it means is decided by its components: a
root when the text starts with a slash, then names, `..` for the parent, and `.`
for the current directory, which counts only at the very start of a relative
path.  Empty pieces and later `.` pieces mean nothing.

Two paths are compared by their components, so `a//b`, `a/./b` and `a/b` are
equal, and `a/x` comes before `a.json`.  The text of a path is kept as it was put
together: joining a path and a text changes neither.
-/

namespace ImmutableJava

/-- A file path, as a text. -/
structure Path where
  /-- The path as written. -/
  text : String
  deriving DecidableEq, Repr

namespace Path

/-- One step of a path. -/
inductive Component where
  /-- The start of an absolute path. -/
  | root
  /-- The start `.` of a relative path. -/
  | current
  /-- One directory up. -/
  | parent
  /-- An entry of a directory. -/
  | normal (name : String)
  deriving DecidableEq, Repr

/-- The order in which kinds of components come. -/
def Component.rank : Component → Nat
  | root => 0
  | current => 1
  | parent => 2
  | normal _ => 3

/-- The name of a component that has one. -/
def Component.name : Component → String
  | normal name => name
  | _ => ""

/-- By kind, then by name. -/
instance : Ord Component :=
  ⟨compareLex (compareOn Component.rank) (compareOn Component.name)⟩

/-- Whether the path starts at the root. -/
def isAbsolute (p : Path) : Bool := p.text.toList.head? = some '/'

/-- The component that a piece stands for, anywhere but at the start. -/
def componentOfPiece? (piece : String) : Option Component :=
  if piece = "" || piece = "." then none
  else if piece = ".." then some .parent
  else some (.normal piece)

/-- The components of a path. -/
def components (p : Path) : List Component :=
  let pieces := Pieces.cut '/' p.text
  let start :=
    if p.isAbsolute then [.root] else if pieces.head? = some "." then [.current] else []
  start ++ pieces.filterMap componentOfPiece?

/-- By components. -/
instance : Ord Path := ⟨fun p q => compare p.components q.components⟩

/-- Whether two paths have the same components. -/
def sameComponents (p q : Path) : Bool := p.components = q.components

/-- A path followed by a text: the text alone if it is absolute. -/
def join (p : Path) (text : String) : Path :=
  if text.toList.head? = some '/' then ⟨text⟩
  else if p.text = "" || p.text.toList.getLast? = some '/' then ⟨p.text ++ text⟩
  else ⟨p.text ++ "/" ++ text⟩

/-- The pieces that mean nothing at the end of a path, taken off a reversed list. -/
def dropInert : List String → List String
  | [] => []
  | [piece] => [piece]
  | piece :: rest => if piece = "" || piece = "." then dropInert rest else piece :: rest

/-- The path without its last component, if there is one besides the root. -/
def parent? (p : Path) : Option Path :=
  match p.components.getLast? with
  | none => none
  | some .root => none
  | some _ =>
    let rest := dropInert (dropInert (Pieces.cut '/' p.text).reverse).tail
    if rest = [""] then some ⟨if p.isAbsolute then "/" else ""⟩
    else some ⟨"/".intercalate rest.reverse⟩

/-- The name of the entry that a path leads to. -/
def fileName? (p : Path) : Option String :=
  match p.components.getLast? with
  | some (.normal name) => some name
  | _ => none

/-- The part of a file name after its last dot, unless that dot starts the name. -/
def extensionOfName? (name : String) : Option String :=
  match (Pieces.cut '.' name).reverse with
  | ending :: piece :: rest => if piece = "" && rest.isEmpty then none else some ending
  | _ => none

/-- The extension of the file name. -/
def extension? (p : Path) : Option String := p.fileName?.bind extensionOfName?

end Path

end ImmutableJava
