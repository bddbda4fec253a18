import ImmutableJava.BinaryName

/-!
# Misused names and templates

Three things can be asked of a type that has no answer: to be named by a text that
is no binary name, to be taken relative to a type that does not enclose it, and to
be treated as a declared type when it is none.  They are mistakes of whoever puts
the parts together, unlike the problems of a declaration, which are reported as
diagnostics and never stop anything.
-/

namespace ImmutableJava

/-- Why a name or a template does not answer. -/
inductive TypeError where
  /-- The text is empty or has an empty segment. -/
  | invalidBinaryName (text : String)
  /-- `outer` does not enclose `inner`. -/
  | notAnOuterType (outer inner : BinaryName)
  /-- The template with this pattern stands for no declared type. -/
  | notADeclaredType (pattern : String)
  deriving DecidableEq

/-- The text shown for the mistake. -/
def TypeError.message : TypeError → String
  | invalidBinaryName text => "invalid binary name: '" ++ text ++ "'"
  | notAnOuterType outer inner => outer.text ++ " is not an outer type of " ++ inner.text
  | notADeclaredType pattern => "not a declared type: " ++ pattern

namespace BinaryName

/-- The suffix after an enclosing type, or the reason why there is none. -/
def qualifiedSuffix (inner outer : BinaryName) : Except TypeError String :=
  match suffixAfter? outer inner with
  | some suffix => .ok suffix
  | none => .error (.notAnOuterType outer inner)

end BinaryName

end ImmutableJava
