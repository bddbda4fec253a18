import ImmutableJava.BinaryName.Parse
import ImmutableJava.Reporting
import ImmutableJava.TypeDescriptor

/-!
# Templates of descriptors

A descriptor is turned into the template of its source spelling.  What cannot
stand in a signature --- `void`, a type that failed to compile, union and
intersection types, a wildcard with two bounds, a malformed or impossibly nested
declared type --- is reported against the element it belongs to and replaced by
the error marker, and the walk goes on with the siblings, so that every problem
of a signature is reported in one pass.

A declared type is built from the inside: first the type with its own arguments,
then, level by level, the arguments of its enclosing types, each of which re-roots
the template.  The type arguments are visited even when there are too many
enclosing lists; the enclosing lists are not.
-/

namespace ImmutableJava

/-- Why a descriptor has no template. -/
inductive TypeProblem where
  /-- The type of a method without a result. -/
  | void
  /-- The type failed to compile. -/
  | failedToCompile
  /-- A union type. -/
  | union
  /-- An intersection type. -/
  | intersection
  /-- A wildcard with an upper and a lower bound. -/
  | bothBounds
  /-- More lists of type arguments than enclosing types. -/
  | tooManyEnclosingLists (raw : BinaryName)
  /-- A name that is none, or a type that is taken for an enclosing one. -/
  | misuse (error : TypeError)
  deriving DecidableEq

/-- The message of a problem. -/
def TypeProblem.message : TypeProblem → String
  | void => "void type not allowed"
  | failedToCompile => "type failed to compile"
  | union => "unexpected: union type"
  | intersection => "unexpected: intersection type"
  | bothBounds => "unexpected: wildcard with both bounds"
  | tooManyEnclosingLists raw =>
    "too many enclosing type argument lists for " ++ raw.qualifiedName
  | misuse error => error.message

/-- The problem as an error about an element. -/
def TypeProblem.diagnostic (element : String) (problem : TypeProblem) : Diagnostic :=
  .error problem.message (some element)

namespace TypeDescriptor

/-- Reports a problem and yields the error marker. -/
def unsupported (element : String) (problem : TypeProblem) : Reporting Template := do
  Reporting.report (problem.diagnostic element)
  Reporting.align Template.errorMarker

/-- The template of a declared type with arguments for its enclosing types. -/
def withOuterArguments (element : String) (template : Template)
    (levels : List (BinaryName × List Template)) : Reporting Template :=
  match template.addOuterArgumentLists levels with
  | .ok template => pure template
  | .error (.misaligned fault) => Reporting.stop fault
  | .error (.misuse refusal) => unsupported element (.misuse refusal)

mutual

/-- The template of a descriptor, with its problems reported against an element. -/
def template (element : String) : TypeDescriptor → Reporting Template
  | primitive name => Reporting.align (Template.primitive name)
  | array component => do
    let component ← template element component
    Reporting.align component.array
  | declared name typeArguments enclosing =>
    match BinaryName.ofText name with
    | .error refusal => unsupported element (.misuse refusal)
    | .ok raw => do
      let typeArguments ← templates element typeArguments
      let plain ← Reporting.align (Template.declared raw typeArguments)
      if raw.enclosingTypes.length < enclosing.length then
        unsupported element (.tooManyEnclosingLists raw)
      else
        let enclosing ← templateLists element enclosing
        withOuterArguments element plain (raw.enclosingTypes.zip enclosing)
  | typeVariable name => Reporting.align (Template.typeVariable name)
  | wildcard none none => Reporting.align Template.wildcard
  | wildcard (some bound) none => do
    let bound ← template element bound
    Reporting.align bound.wildcardExtends
  | wildcard none (some bound) => do
    let bound ← template element bound
    Reporting.align bound.wildcardSuper
  | wildcard (some _) (some _) => unsupported element .bothBounds
  | void => unsupported element .void
  | broken _ => unsupported element .failedToCompile
  | union _ => unsupported element .union
  | intersection _ => unsupported element .intersection

/-- The templates of descriptors in order. -/
def templates (element : String) : List TypeDescriptor → Reporting (List Template)
  | [] => pure []
  | d :: ds => do
    let t ← template element d
    let ts ← templates element ds
    return t :: ts

/-- The templates of lists of descriptors in order. -/
def templateLists (element : String) : List (List TypeDescriptor) → Reporting (List (List Template))
  | [] => pure []
  | ds :: rest => do
    let ts ← templates element ds
    let tss ← templateLists element rest
    return ts :: tss

end

end TypeDescriptor

/-- The template that introduces a type parameter, `T extends Comparable<T>`.  A
lone `java.lang.Object` bound is left out and not looked at. -/
def TypeParameter.template (element : String) (p : TypeParameter) : Reporting Template := do
  let bounds ← if p.hasBounds then TypeDescriptor.templates element p.bounds else pure []
  Reporting.align (Template.typeParameter p.name bounds)

end ImmutableJava
