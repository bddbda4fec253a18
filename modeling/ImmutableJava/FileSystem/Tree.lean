import ImmutableJava.FileSystem
import ImmutableJava.Pieces

/-!
# File systems in memory

A `FileTree` is a file system as a value: a directory has entries, and a file has a
text, unless its bytes are none.  Paths are followed from the root of the tree, one
piece after another, and every piece but the last must lead to a directory.  So
`a/../b` leads nowhere without a directory `a`, and `a.json/` leads nowhere when
`a.json` is a file.

The name of an entry has at most 255 bytes and no character of code zero, and a path
that has more than 4095 bytes leads nowhere, however short the way would be.
-/

namespace ImmutableJava

/-- A file, or a directory with everything below it. -/
inductive FileTree where
  /-- A file, with its text if it has one. -/
  | file (text? : Option String)
  /-- A directory with its entries by name. -/
  | directory (entries : List (String × FileTree))

namespace FileTree

/-- A directory without entries. -/
def empty : FileTree := directory []

instance : Inhabited FileTree := ⟨empty⟩

/-- Whether this is a directory. -/
def isDirectory : FileTree → Bool
  | directory _ => true
  | file _ => false

/-- The text of a file that has one. -/
def text? : FileTree → Option String
  | file text? => text?
  | directory _ => none

/-- The entry of a directory with a name. -/
def entry? (name : String) : FileTree → Option FileTree
  | directory entries => (entries.find? fun e => e.1 = name).map (·.2)
  | file _ => none

/-- What is found along names. -/
def find? : List String → FileTree → Option FileTree
  | [], t => some t
  | name :: names, t => (t.entry? name).bind (find? names)

/-- Changes the entry with a name, starting from an empty directory if there is none. -/
def alterEntry (name : String) (f : FileTree → FileTree) :
    List (String × FileTree) → List (String × FileTree)
  | [] => [(name, f empty)]
  | (other, t) :: rest =>
    if other = name then (other, f t) :: rest else (other, t) :: alterEntry name f rest

/-- Puts something at the end of names, with the directories on the way. -/
def put (new : FileTree) : List String → FileTree → FileTree
  | [], _ => new
  | name :: names, directory entries => directory (alterEntry name (put new names) entries)
  | name :: names, file _ => directory (alterEntry name (put new names) [])

mutual

/-- The files of a tree with what they hold, as paths that start with the path of the
tree. -/
def files (path : Path) : FileTree → List (Path × Option String)
  | file text? => [(path, text?)]
  | directory entries => filesOfEntries path entries

/-- The files of entries, one entry after another. -/
def filesOfEntries (path : Path) : List (String × FileTree) → List (Path × Option String)
  | [] => []
  | (name, t) :: rest => files (path.join name) t ++ filesOfEntries path rest

end

/-! ## Paths -/

/-- The most bytes that the name of an entry can have. -/
def maxNameSize : Nat := 255

/-- The most bytes that a path can have. -/
def maxPathSize : Nat := 4095

/-- Whether a text can be the name of an entry. -/
def isName (text : String) : Bool :=
  text.utf8ByteSize ≤ maxNameSize && !text.toList.contains '\x00'

/-- Whether the names lead to a directory. -/
def hasDirectory (t : FileTree) (names : List String) : Bool := (find? names t).any isDirectory

/-- The names that the pieces of a path lead to from a directory, whether or not there
is an entry of the last of them. -/
def locate? (t : FileTree) (here : List String) : List String → Option (List String)
  | [] => some here
  | piece :: rest =>
    if !t.hasDirectory here then none
    else if piece = "" || piece = "." then locate? t here rest
    else if piece = ".." then locate? t here.dropLast rest
    else if isName piece then locate? t (here ++ [piece]) rest
    else none

/-- The pieces of a path that can be followed: it is not empty, and not too long. -/
def pieces? (path : Path) : Option (List String) :=
  if path.text = "" || maxPathSize < path.text.utf8ByteSize then none
  else some (Pieces.cut '/' path.text)

/-- The names that a path leads to. -/
def namesOf? (t : FileTree) (path : Path) : Option (List String) :=
  (pieces? path).bind (t.locate? [])

/-- What a path leads to. -/
def follow? (t : FileTree) (path : Path) : Option FileTree := (t.namesOf? path).bind fun names => find? names t

/-- The tree with the directories that the pieces of a path lead through. -/
def withDirectories? (here : List String) : List String → FileTree → Option FileTree
  | [], t => if t.hasDirectory here then some t else none
  | piece :: rest, t =>
    if !t.hasDirectory here then none
    else if piece = "" || piece = "." then withDirectories? here rest t
    else if piece = ".." then withDirectories? here.dropLast rest t
    else if !isName piece then none
    else
      let there := here ++ [piece]
      withDirectories? there rest (if (find? there t).isSome then t else put empty there t)

/-- The tree with a file of the given text at a path. -/
def withText? (path : Path) (text : String) (t : FileTree) : Option FileTree := do
  let names ← t.namesOf? path
  if t.hasDirectory names || (Pieces.cut '/' path.text).getLast? = some "" then none
  else some (put (file (some text)) names t)

/-! ## As a file system -/

/-- What an operation answers whose result may be missing. -/
def answer {α : Type} : Option α → Except String α
  | some a => .ok a
  | none => .error "not available"

/-- Puts a changed tree in place of the old one, unless there is none. -/
def update (change : FileTree → Option FileTree) : StateM FileTree (Except String Unit) := do
  match change (← get) with
  | some t =>
    set t
    return .ok ()
  | none => return answer none

/-- A tree that changes as it is written to. -/
def fileSystem : FileSystem (StateM FileTree) where
  isFile path := return ((← get).follow? path).any fun t => !t.isDirectory
  isDirectory path := return ((← get).follow? path).any isDirectory
  readText path := return answer (((← get).follow? path).bind text?)
  filesBelow path := return answer (((← get).follow? path).map fun t => (files path t).map (·.1))
  makeDirectories path := update fun t => (pieces? path).bind fun ps => withDirectories? [] ps t
  writeText path text := update (withText? path text)

end FileTree

end ImmutableJava
