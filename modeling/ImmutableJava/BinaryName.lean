import ImmutableJava.Pieces

/-!
# Binary names and the names derived from them

A class or interface is identified by its binary name, such as
`java.util.Map$Entry`: nonempty segments, each joined to what stands before it by
a dot (a package, or a type in a package) or by a dollar sign (a type in a type).

`BinaryName` keeps a name as that sequence, built from the left, so the last
segment is outermost in the term.  Everything the generator asks of a name is
then one recursion along it: the qualified name writes every separator as a dot,
the simple name is the last segment, the enclosing types are the initial parts
that a dollar sign follows.

A dollar sign may stand before a dot, as in `a$b.C`.  Such a name has the package
`a$b` and the simple name `C`, and it counts as nested, because a dollar sign
occurs in it; its only enclosing type is `a`.  The package is read off the last
dot, the enclosing types off the dollar signs, and neither looks at the other.

## Texts

`BinaryName.text` is the identifying text and `BinaryName.Parse` reads it back;
the two are inverse to each other, so a name and its text carry the same
information.
-/

namespace ImmutableJava

/-- One segment of a name: a nonempty text without a dot or a dollar sign. -/
structure Segment where
  /-- The characters of the segment. -/
  text : String
  /-- No segment is empty. -/
  text_ne_empty : text ≠ ""
  /-- Neither separator occurs inside a segment. -/
  not_separator : ∀ c ∈ text.toList, c ≠ '.' ∧ c ≠ '$'
  deriving DecidableEq

/-- The binary name of a type, built segment by segment from the left. -/
inductive BinaryName where
  /-- A name of one segment. -/
  | root (segment : Segment)
  /-- A segment after a dot: `container.segment`. -/
  | dotted (container : BinaryName) (segment : Segment)
  /-- A segment after a dollar sign: `outer$segment`. -/
  | nested (outer : BinaryName) (segment : Segment)
  deriving DecidableEq

namespace BinaryName

/-! ## Derived texts -/

/-- The binary name itself, dots and dollar signs as they stand. -/
def text : BinaryName → String
  | root s => s.text
  | dotted p s => p.text ++ "." ++ s.text
  | nested o s => o.text ++ "$" ++ s.text

/-- The segments from left to right. -/
def segments : BinaryName → List String
  | root s => [s.text]
  | dotted p s => p.segments ++ [s.text]
  | nested o s => o.segments ++ [s.text]

/-- The name as source code spells it in full: every separator a dot. -/
def qualifiedName : BinaryName → String
  | root s => s.text
  | dotted p s => p.qualifiedName ++ "." ++ s.text
  | nested o s => o.qualifiedName ++ "." ++ s.text

/-- The last segment. -/
def simpleName : BinaryName → String
  | root s => s.text
  | dotted _ s => s.text
  | nested _ s => s.text

/-- What stands before the last dot, and the empty text for the unnamed package. -/
def packageName : BinaryName → String
  | root _ => ""
  | dotted p _ => p.text
  | nested o _ => o.packageName

/-- The segments after the last dot. -/
def classSegments : BinaryName → List String
  | root s => [s.text]
  | dotted _ s => [s.text]
  | nested o s => o.classSegments ++ [s.text]

/-- The name relative to the package, with a dot between nested classes. -/
def className (n : BinaryName) : String := ".".intercalate n.classSegments

/-! ## Nesting -/

/-- A top-level type has no dollar sign anywhere in its name. -/
def isTopLevel : BinaryName → Bool
  | root _ => true
  | dotted p _ => p.isTopLevel
  | nested _ _ => false

/-- The part before the first dollar sign, or the whole name if there is none. -/
def topLevelType : BinaryName → BinaryName
  | root s => root s
  | dotted p s => if p.isTopLevel then dotted p s else p.topLevelType
  | nested o _ => o.topLevelType

/-- The part before the last dollar sign. -/
def enclosingType? : BinaryName → Option BinaryName
  | root _ => none
  | dotted p _ => p.enclosingType?
  | nested o _ => some o

/-- The parts before each dollar sign, innermost first. -/
def enclosingTypes : BinaryName → List BinaryName
  | root _ => []
  | dotted p _ => p.enclosingTypes
  | nested o _ => o :: o.enclosingTypes

/-- What follows an enclosing type in the qualified name, its dot included:
`.Entry` for `java.util.Map$Entry` after `java.util.Map`. -/
def suffixAfter? (outer : BinaryName) : BinaryName → Option String
  | root _ => none
  | dotted p s => (suffixAfter? outer p).map (· ++ "." ++ s.text)
  | nested o s =>
    if o = outer then some ("." ++ s.text)
    else (suffixAfter? outer o).map (· ++ "." ++ s.text)

/-! ## Segments and the derived texts -/

theorem segments_ne_nil (n : BinaryName) : n.segments ≠ [] := by
  cases n <;> simp [segments]

theorem classSegments_ne_nil (n : BinaryName) : n.classSegments ≠ [] := by
  cases n <;> simp [classSegments]

/-- The qualified name is the segments joined by dots. -/
theorem qualifiedName_eq (n : BinaryName) : n.qualifiedName = ".".intercalate n.segments := by
  induction n with
  | root s => simp [qualifiedName, segments]
  | dotted p s ih =>
    rw [qualifiedName, segments, Pieces.intercalate_concat _ _ p.segments_ne_nil, ih]
  | nested o s ih =>
    rw [qualifiedName, segments, Pieces.intercalate_concat _ _ o.segments_ne_nil, ih]

end BinaryName

end ImmutableJava
