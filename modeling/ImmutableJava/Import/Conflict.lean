import ImmutableJava.BinaryName.Order

/-!
# Types that share a simple name

Two types with one simple name cannot both be referred to by it.  Types are
grouped by simple name, and the groups of two or more are the conflicts.  Among
types that are all to be available by their simple names a conflict is an error;
among types that a compilation unit merely refers to it decides which of them are
spelled in full.
-/

namespace ImmutableJava

namespace SimpleName

/-- A simple name with the types that bear it. -/
abbrev Group := String × List BinaryName

/-- Adds a type to the group of its simple name. -/
def addToGroup (type : BinaryName) : List Group → List Group
  | [] => [(type.simpleName, [type])]
  | (name, members) :: rest =>
    if name = type.simpleName then (name, members ++ [type]) :: rest
    else (name, members) :: addToGroup type rest

/-- The types by simple name: each group in the order of the list, the groups in
the order of their first members. -/
def groups (types : List BinaryName) : List Group :=
  types.foldl (fun groups type => addToGroup type groups) []

/-- The groups with more than one member. -/
def conflicts (types : List BinaryName) : List Group :=
  (groups types).filter fun group => 1 < group.2.length

end SimpleName

/-- Types to be available by their simple names, of which some cannot be: each
shared simple name in increasing order, with the set of types that bear it. -/
structure ConflictError where
  /-- The simple names that are shared, with their types. -/
  conflicts : List (String × SortedSet BinaryName)

namespace ConflictError

/-- The error for groups of types that share a simple name. -/
def ofGroups (groups : List SimpleName.Group) : ConflictError :=
  ⟨(groups.mergeSort fun a b => compare a.1 b.1 != .gt).map
    fun group => (group.1, SortedSet.ofList group.2)⟩

/-- The lines about one shared simple name: the name, its types, each on a line of
its own, and a closing bracket. -/
def groupLines (group : String × SortedSet BinaryName) : List String :=
  (group.1 ++ ": \x7b") :: group.2.toList.map (fun type => "    " ++ type.qualifiedName ++ ",") ++
    ["\x7d"]

/-- The text shown for the error. -/
def message (e : ConflictError) : String :=
  "\n".intercalate ("conflicting imports found:" :: e.conflicts.flatMap groupLines)

end ConflictError

/-- Whether all types can be available by their simple names together. -/
def checkDistinct (types : SortedSet BinaryName) : Except ConflictError Unit :=
  let conflicts := SimpleName.conflicts types.toList
  if conflicts.isEmpty then .ok () else .error (.ofGroups conflicts)

end ImmutableJava
