import ImmutableJava.TypeError

/-!
# Templates of type expressions

A type expression such as `Map<String, List<? extends Number>>` is kept apart from
the question how its types are named.  Its *pattern* has a placeholder `%s` for
each type,

    %s<%s, %s<? extends %s>>

and its *arguments* are the types, in the order of the placeholders.  Rendering
with a namer fills the placeholders from left to right.

## Alignment

A pattern is a plain text, and nothing stops the name of a type variable from
containing `%s`, or two parts from meeting as `%` and `s`.  Then placeholders and
arguments no longer correspond, and the template has no meaning.  Every constructor
and every operation therefore counts the placeholders of the pattern that it made:
it yields a `Misalignment` instead of a template whose counts differ.

A template that was read from outside is not counted.  Rendering it is still
defined: a placeholder without an argument ends the text, and an argument without
a placeholder is ignored.

## Kinds

The kind remembers which constructor made a template.  Operations on declared
types --- whose first argument is the type itself --- ask for the kind `declared`.
Two templates are the same expression when patterns and arguments agree, whatever
their kinds.
-/

namespace ImmutableJava

/-! ## Patterns -/

namespace Pattern

/-- What stands in a pattern for a type. -/
def placeholder : String := "%s"

/-- The number of placeholders, counted from the left without overlap. -/
def holes : List Char → Nat
  | '%' :: 's' :: rest => holes rest + 1
  | _ :: rest => holes rest
  | [] => 0

/-- Fills the placeholders with texts from the left.  The text ends where a
placeholder finds no filling. -/
def fill : List Char → List String → List Char
  | '%' :: 's' :: _, [] => []
  | '%' :: 's' :: rest, text :: texts => text.toList ++ fill rest texts
  | c :: rest, texts => c :: fill rest texts
  | [], _ => []

/-- The pattern without a placeholder at its start. -/
def afterPlaceholder (pattern : String) : String :=
  match pattern.toList with
  | '%' :: 's' :: rest => String.ofList rest
  | _ => pattern

end Pattern

/-! ## Templates -/

/-- The constructor that made a template. -/
inductive TemplateKind where
  /-- A primitive type. -/
  | primitive
  /-- An array type. -/
  | array
  /-- A declared type; the first argument is its raw type. -/
  | declared
  /-- A type parameter with its bounds. -/
  | typeParameter
  /-- A type variable. -/
  | typeVariable
  /-- A wildcard. -/
  | wildcard
  /-- The header of a declaration, `Name<T extends %s>`. -/
  | declaration
  /-- The marker of a type that cannot be used. -/
  | error
  /-- Any other composition. -/
  | composite
  deriving DecidableEq, Repr

/-- A type expression whose types are not named yet. -/
structure Template where
  /-- The text with a placeholder for each type. -/
  pattern : String
  /-- The types, in the order of the placeholders. -/
  args : List BinaryName
  /-- The constructor that made the template. -/
  kind : TemplateKind
  deriving DecidableEq

/-- A pattern whose placeholders are not as many as its arguments. -/
structure Misalignment where
  /-- The pattern. -/
  pattern : String
  /-- The number of arguments. -/
  arguments : Nat
  deriving DecidableEq, Repr

/-- Why an operation on templates yields none. -/
inductive TemplateFault where
  /-- The resulting pattern and arguments do not correspond. -/
  | misaligned (fault : Misalignment)
  /-- The operation does not apply. -/
  | misuse (error : TypeError)
  deriving DecidableEq

namespace Template

/-- The template of a pattern and its arguments, if they correspond. -/
def make (pattern : String) (args : List BinaryName) (kind : TemplateKind) :
    Except Misalignment Template :=
  if Pattern.holes pattern.toList = args.length then .ok ⟨pattern, args, kind⟩
  else .error ⟨pattern, args.length⟩

/-- The same expression under another kind. -/
def withKind (kind : TemplateKind) (t : Template) : Template := { t with kind := kind }

/-- Whether two templates are the same expression, whatever made them. -/
def sameExpression (t u : Template) : Bool := t.pattern = u.pattern && t.args = u.args

/-- Whether the template was made as a declared type. -/
def isDeclared (t : Template) : Bool := t.kind = .declared

/-- Whether the template marks an unusable type. -/
def isError (t : Template) : Bool := t.kind = .error

/-! ## Rendering -/

/-- The expression with every type named. -/
def render (namer : BinaryName → String) (t : Template) : String :=
  String.ofList (Pattern.fill t.pattern.toList (t.args.map namer))

/-- The expression with every type named in full. -/
def display (t : Template) : String := t.render BinaryName.qualifiedName

/-! ## Composition -/

/-- The templates one after another, with a text between neighbours and texts
around the whole. -/
def join (ts : List Template) (delimiter opening closing : String) :
    Except Misalignment Template :=
  make (opening ++ delimiter.intercalate (ts.map (·.pattern)) ++ closing)
    (ts.flatMap (·.args)) .composite

/-- One template directly after another. -/
def concat (first second : Template) : Except Misalignment Template :=
  join [first, second] "" "" ""

/-- A text in front of a template. -/
def withPrefix (text : String) (t : Template) : Except Misalignment Template :=
  make (text ++ t.pattern) t.args .composite

/-- A text behind a template. -/
def withSuffix (t : Template) (text : String) : Except Misalignment Template :=
  make (t.pattern ++ text) t.args .composite

/-! ## Type expressions -/

/-- A primitive type. -/
def primitive (name : String) : Except Misalignment Template := make name [] .primitive

/-- The array type with the given component type. -/
def array (component : Template) : Except Misalignment Template :=
  return (← component.withSuffix "[]").withKind .array

/-- A declared type, with type arguments in angle brackets if there are any. -/
def declared (raw : BinaryName) (arguments : List Template) : Except Misalignment Template := do
  let rawTemplate ← make Pattern.placeholder [raw] .declared
  if arguments.isEmpty then
    return rawTemplate
  let brackets ← join arguments ", " "<" ">"
  return (← concat rawTemplate brackets).withKind .declared

/-- A type parameter with its bounds. -/
def typeParameter (name : String) (bounds : List Template) : Except Misalignment Template := do
  let template ←
    if bounds.isEmpty then make name [] .composite
    else join bounds " & " (name ++ " extends ") ""
  return template.withKind .typeParameter

/-- A type variable. -/
def typeVariable (name : String) : Except Misalignment Template := make name [] .typeVariable

/-- The unbounded wildcard. -/
def wildcard : Except Misalignment Template := make "?" [] .wildcard

/-- The wildcard with an upper bound. -/
def wildcardExtends (bound : Template) : Except Misalignment Template :=
  return (← bound.withPrefix "? extends ").withKind .wildcard

/-- The wildcard with a lower bound. -/
def wildcardSuper (bound : Template) : Except Misalignment Template :=
  return (← bound.withPrefix "? super ").withKind .wildcard

/-- The marker that stands for a type that cannot be used. -/
def errorMarker : Except Misalignment Template := make "!" [] .error

/-! ## Declared types -/

/-- The raw type of a declared type: its first argument. -/
def rawType (t : Template) : Except TypeError BinaryName :=
  match t.args.head? with
  | some raw => if t.isDeclared then .ok raw else .error (.notADeclaredType t.pattern)
  | none => .error (.notADeclaredType t.pattern)

/-- The raw type, with a refusal counted among the faults of an operation. -/
def rawTypeOrFault (t : Template) : Except TemplateFault BinaryName :=
  t.rawType.mapError .misuse

/-- A template, with a misalignment counted among the faults of an operation. -/
def orFault (t : Except Misalignment Template) : Except TemplateFault Template :=
  t.mapError .misaligned

/-- The header that declares a type: the raw type's simple name in place of the
first placeholder. -/
def topLevelDeclaration (t : Template) : Except TemplateFault Template := do
  let raw ← t.rawTypeOrFault
  orFault (make (raw.simpleName ++ Pattern.afterPlaceholder t.pattern) t.args.tail .declaration)

/-- Gives type arguments to a type that encloses the raw type.  The result is
rooted at that outer type, so arguments for several levels are given from the
inside out.  Without arguments the template stays as it is. -/
def addOuterArguments (t : Template) (outer : BinaryName) (arguments : List Template) :
    Except TemplateFault Template := do
  let raw ← t.rawTypeOrFault
  let suffix ← (raw.qualifiedSuffix outer).mapError .misuse
  if arguments.isEmpty then
    return t
  orFault
    (make
      (Pattern.placeholder ++ "<" ++ ", ".intercalate (arguments.map (·.pattern)) ++ ">" ++
        suffix ++ Pattern.afterPlaceholder t.pattern)
      (outer :: arguments.flatMap (·.args) ++ t.args.tail) .declared)

/-- Gives type arguments to enclosing types, innermost first. -/
def addOuterArgumentLists (t : Template) (levels : List (BinaryName × List Template)) :
    Except TemplateFault Template :=
  levels.foldlM (fun t level => t.addOuterArguments level.1 level.2) t

/-! ## Equations of the constructors -/

theorem make_eq_ok_iff {pattern : String} {args : List BinaryName} {kind : TemplateKind}
    {t : Template} :
    make pattern args kind = .ok t ↔
      Pattern.holes pattern.toList = args.length ∧ t = ⟨pattern, args, kind⟩ := by
  rw [make]
  split
  · rename_i h
    simp [h, eq_comm]
  · rename_i h
    simp [h]

@[simp] theorem render_withKind (namer : BinaryName → String) (kind : TemplateKind)
    (t : Template) : (t.withKind kind).render namer = t.render namer := rfl

end Template

end ImmutableJava
