import ImmutableJava.Declaration
import ImmutableJava.Implementation
import ImmutableJava.TopLevelName
import ImmutableJava.TypeDescriptor.Template

/-!
# From a declaration to its implementation

A declaration is checked and turned into an implementation in one pass.  Every
problem is reported and the pass goes on as far as it can: a problem of the type
does not keep the methods from being checked.  There is an implementation exactly
when no error was reported.

## Names

The implementing class is a top-level class in the package of the interface.  The
class name of a nested interface is flattened first, with an underscore for each
dot, and the class is named `Immutable` and that name: `test.Outer.Inner` is
implemented by `test.ImmutableOuter_Inner`.  Flattening can run into another
interface that is to be implemented, and the class into a type that exists.
-/

namespace ImmutableJava

/-- What is wrong with a declaration, apart from the types it mentions. -/
inductive DeclarationProblem where
  /-- Only interfaces can be implemented. -/
  | notAnInterface
  /-- The implementation could not refer to the interface. -/
  | privateInterface
  /-- A name that is none. -/
  | misuse (error : TypeError)
  /-- Another interface to be implemented has the flattened name. -/
  | flatNameTaken (qualifiedName : String)
  /-- A type with the name of the implementing class exists. -/
  | implementationExists (qualifiedName : String)
  /-- An accessor takes no parameters. -/
  | methodParameters
  /-- An accessor is not generic. -/
  | methodTypeParameters
  deriving DecidableEq

namespace DeclarationProblem

/-- The message of a problem. -/
def message : DeclarationProblem → String
  | notAnInterface => "type must be an interface"
  | privateInterface => "interface must not be privately visible"
  | misuse error => error.message
  | flatNameTaken name => "flat interface type already exists as @Immutable type: " ++ name
  | implementationExists name => "implementation type already exists: " ++ name
  | methodParameters => "method must not have parameters"
  | methodTypeParameters => "method must not have type parameters"

/-- The problem as an error about an element. -/
def diagnostic (element : String) (problem : DeclarationProblem) : Diagnostic :=
  .error problem.message (some element)

end DeclarationProblem

namespace BinaryName

/-- The class name with an underscore for each dot. -/
def flatName (n : BinaryName) : String := "_".intercalate n.classSegments

/-- The top-level type with the flattened name. -/
def flattened (n : BinaryName) : TopLevelName := ⟨n.packageName, n.flatName⟩

/-- The top-level class that implements the type. -/
def implementationName (n : BinaryName) : TopLevelName :=
  ⟨n.packageName, "Immutable" ++ n.flatName⟩

end BinaryName

namespace Declaration

/-- Reports a problem of the declaration as a whole. -/
def report (d : Declaration) (problem : DeclarationProblem) : Reporting Unit :=
  Reporting.report (problem.diagnostic d.binaryName)

/-- The interface, if the declaration is one and has a name. -/
def rawInterface? (d : Declaration) : Reporting (Option BinaryName) :=
  if d.kind.isInterface then do
    Reporting.reportIf d.isPrivate (DeclarationProblem.privateInterface.diagnostic d.binaryName)
    match BinaryName.ofText d.binaryName with
    | .ok n => return some n
    | .error refusal =>
      d.report (.misuse refusal)
      return none
  else do
    d.report .notAnInterface
    return none

/-- The implementing class of the interface. -/
def rawImplementation? (d : Declaration) (rawInterface : BinaryName) :
    Reporting (Option BinaryName) := do
  let flat := rawInterface.flattened.qualifiedName
  Reporting.reportIf (!rawInterface.isTopLevel && flat ∈ d.immutableTypes)
    ((DeclarationProblem.flatNameTaken flat).diagnostic d.binaryName)
  let target := rawInterface.implementationName
  Reporting.reportIf (target.qualifiedName ∈ d.existingTypes)
    ((DeclarationProblem.implementationExists target.qualifiedName).diagnostic d.binaryName)
  match target.toBinaryName with
  | .ok n => return some n
  | .error refusal =>
    d.report (.misuse refusal)
    return none

/-- The class and its interface, once both have names. -/
def immutableType (d : Declaration) (rawInterface rawType : BinaryName) :
    Reporting ImmutableType := do
  let parameters ← d.typeParameters.mapM (TypeParameter.template d.binaryName)
  let typeVariables ← d.typeParameters.mapM fun p => Reporting.align (Template.typeVariable p.name)
  let classType ← Reporting.align (Template.declared rawType parameters)
  let interfaceType ← Reporting.align (Template.declared rawInterface typeVariables)
  return {
    rawType := rawType
    classType := classType
    interfaceType := interfaceType
    typeVariables := d.typeParameters.map (·.name)
    packageTypes := d.packageTypes }

/-- The class and its interface, if the declaration allows for them. -/
def immutableType? (d : Declaration) : Reporting (Option ImmutableType) := do
  match ← d.rawInterface? with
  | none => return none
  | some rawInterface =>
    match ← d.rawImplementation? rawInterface with
    | none => return none
    | some rawType => return some (← d.immutableType rawInterface rawType)

/-- The element that problems of a method are reported against. -/
def methodElement (d : Declaration) (m : Method) : String := d.binaryName ++ "#" ++ m.name

/-- The member that implements a method. -/
def member (d : Declaration) (m : Method) : Reporting Member := do
  let element := d.methodElement m
  Reporting.reportIf (!m.parameters.isEmpty)
    (DeclarationProblem.methodParameters.diagnostic element)
  Reporting.reportIf (!m.typeParameters.isEmpty)
    (DeclarationProblem.methodTypeParameters.diagnostic element)
  return ⟨m.name, ← m.returnType.template element⟩

/-- The methods that the implementing class defines. -/
def methodsToImplement (d : Declaration) : List Method := d.methods.filter (·.isToImplement)

/-- The members of the implementing class. -/
def members (d : Declaration) : Reporting (List Member) := d.methodsToImplement.mapM d.member

/-- The implementation of a declaration, with all problems of the declaration; none
if there was an error. -/
def implementation (d : Declaration) : Except Misalignment (Reported (Option Implementation)) := do
  let type ← d.immutableType?.run
  let members ← d.members.run
  let bag := (({} : DiagnosticBag).extend type.diagnostics).extend members.diagnostics
  let model :=
    match type.value with
    | some type => if bag.hasErrors then none else some ⟨type, members.value⟩
    | none => none
  return bag.finish model

end Declaration

end ImmutableJava
