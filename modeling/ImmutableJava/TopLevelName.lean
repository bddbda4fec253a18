import ImmutableJava.BinaryName.Order

/-!
# Top-level types by package and simple name

A type that is about to be declared is known by the package it goes into and by
its simple name.  Its qualified name is their dotted composition, and only as a
binary name is it checked: the two parts are arbitrary texts.
-/

namespace ImmutableJava

/-- A top-level type, by the name of its package and its own name. -/
structure TopLevelName where
  /-- The package, and the empty text for the unnamed package. -/
  packageName : String
  /-- The name inside the package. -/
  simpleName : String
  deriving DecidableEq

namespace TopLevelName

/-- Package and simple name joined by a dot; the simple name alone in the unnamed
package. -/
def qualifiedName (t : TopLevelName) : String :=
  if t.packageName = "" then t.simpleName else t.packageName ++ "." ++ t.simpleName

/-- The type as a binary name, if its qualified name is one. -/
def toBinaryName (t : TopLevelName) : Except TypeError BinaryName :=
  BinaryName.ofText t.qualifiedName

end TopLevelName

end ImmutableJava
