import ImmutableJava.JavaLang

/-!
# Type descriptors

A `TypeDescriptor` is the shape of a type as a compiler sees it in a signature.
It keeps names as the texts in which they arrived: whether a declared type's name
is a binary name is found out later, where it can be reported.

The type arguments of enclosing types stand beside those of the type itself,
innermost level first; an empty list marks a level that is not generic.
-/

namespace ImmutableJava

/-- The shape of a type. -/
inductive TypeDescriptor where
  /-- A primitive type. -/
  | primitive (name : String)
  /-- An array of a component type. -/
  | array (component : TypeDescriptor)
  /-- A class or interface, its type arguments, and those of its enclosing types. -/
  | declared (binaryName : String) (typeArguments : List TypeDescriptor)
      (enclosingTypeArguments : List (List TypeDescriptor))
  /-- A type variable. -/
  | typeVariable (name : String)
  /-- A wildcard with the bounds it has. -/
  | wildcard (extendsBound superBound : Option TypeDescriptor)
  /-- What a method without a result returns. -/
  | void
  /-- A type that failed to compile. -/
  | broken (name : Option String)
  /-- The alternatives of a catch clause. -/
  | union (alternatives : List TypeDescriptor)
  /-- The bounds of a cast. -/
  | intersection (bounds : List TypeDescriptor)

instance : Inhabited TypeDescriptor := ⟨.void⟩

namespace TypeDescriptor

/-- A class or interface that is not generic. -/
def plain (binaryName : String) : TypeDescriptor := declared binaryName [] []

/-- A class or interface with type arguments. -/
def generic (binaryName : String) (typeArguments : List TypeDescriptor) : TypeDescriptor :=
  declared binaryName typeArguments []

/-- Whether this is `java.lang.Object` without type arguments. -/
def isObject : TypeDescriptor → Bool
  | declared name [] _ => name = JavaLang.object.text
  | _ => false

end TypeDescriptor

/-- A type parameter of a generic declaration. -/
structure TypeParameter where
  /-- The name of the type variable it introduces. -/
  name : String
  /-- Its bounds as written. -/
  bounds : List TypeDescriptor

namespace TypeParameter

/-- Whether there is a bound other than a lone `java.lang.Object`, which every type
variable has anyway. -/
def hasBounds (p : TypeParameter) : Bool :=
  match p.bounds with
  | [] => false
  | [bound] => !bound.isObject
  | _ => true

end TypeParameter

end ImmutableJava
