import ImmutableJava.Implementation

/-!
# The text of an implementation

The source of an implementation is the head of its compilation unit followed by
lines: the annotation that marks the class as generated, the class header, and in
the class the fields, the constructor and the accessors.  A line is a text at a
level of indentation, and each part of the class is the list of its lines, so the
shape of a source file can be read off these lists.

Every type is spelled by the unit's renderer.  A member's type is spelled once, for
its field, its constructor parameter and its accessor.
-/

namespace ImmutableJava

/-- What can be chosen about generated sources. -/
structure GeneratorOptions where
  /-- What the generating annotation names as the generator. -/
  processorName : String
  /-- The annotation that marks a generated class. -/
  marker : BinaryName
  /-- The tag of reported diagnostics. -/
  diagnosticTag : String
  deriving DecidableEq

/-- The choices made where nothing else is asked for. -/
def GeneratorOptions.standard : GeneratorOptions := ⟨"immgen", generatedMarker, "@Immutable"⟩

instance : Inhabited GeneratorOptions := ⟨.standard⟩

namespace SourceText

/-- A line of text at a level of indentation. -/
structure Line where
  /-- How many levels the text is indented. -/
  level : Nat
  /-- The text of the line. -/
  text : String
  deriving DecidableEq, Repr

/-- The indentation of one level. -/
def indentation : String := "    "

/-- A line with its indentation and its end. -/
def Line.render (line : Line) : String :=
  String.join (List.replicate line.level indentation) ++ line.text ++ "\n"

/-- Lines one after another. -/
def renderLines (lines : List Line) : String := String.join (lines.map Line.render)

/-- A line without text. -/
def blank : Line := ⟨0, ""⟩

/-- A member whose type is spelled. -/
structure Property where
  /-- The name of the member. -/
  name : String
  /-- The spelling of its type. -/
  type : String
  deriving DecidableEq, Repr

/-- The type and the name, as in a declaration. -/
def Property.typed (p : Property) : String := p.type ++ " " ++ p.name

/-- The field of a member. -/
def fieldLine (p : Property) : Line := ⟨1, "private final " ++ p.typed ++ ";"⟩

/-- The fields, after an empty line, if there are any. -/
def fieldLines (ps : List Property) : List Line :=
  if ps.isEmpty then [] else blank :: ps.map fieldLine

/-- The statement that sets a field. -/
def assignmentLine (p : Property) : Line := ⟨2, "this." ++ p.name ++ " = " ++ p.name ++ ";"⟩

/-- The constructor, which sets all fields. -/
def constructorLines (className : String) (ps : List Property) : List Line :=
  [blank, ⟨1, className ++ "(" ++ ", ".intercalate (ps.map Property.typed) ++ ") \x7b"⟩] ++
    ps.map assignmentLine ++ [⟨1, "\x7d"⟩]

/-- The accessor of a member. -/
def accessorLines (override : String) (p : Property) : List Line :=
  [blank,
    ⟨1, "@" ++ override⟩,
    ⟨1, "public " ++ p.typed ++ "() \x7b"⟩,
    ⟨2, "return " ++ p.name ++ ";"⟩,
    ⟨1, "\x7d"⟩]

/-- The annotation that names the generator. -/
def markerLine (marker processorName : String) : Line :=
  ⟨0, "@" ++ marker ++ "(\"" ++ processorName ++ "\")"⟩

/-- The header of the class. -/
def headerLine (header interface : String) : Line :=
  ⟨0, "class " ++ header ++ " implements " ++ interface ++ " \x7b"⟩

/-- The class with its annotation. -/
def classLines (marker processorName header interface className override : String)
    (ps : List Property) : List Line :=
  [markerLine marker processorName, headerLine header interface] ++ fieldLines ps ++
    constructorLines className ps ++ ps.flatMap (accessorLines override) ++ [⟨0, "\x7d"⟩]

end SourceText

/-- Why the source of an implementation cannot be written. -/
inductive SourceFault where
  /-- Types to be available share a simple name. -/
  | conflict (error : ConflictError)
  /-- The class is no declared type, or its header is misaligned. -/
  | template (fault : TemplateFault)

namespace Implementation

/-- The members with their types spelled. -/
def properties (i : Implementation) (renderer : NameRenderer) : List SourceText.Property :=
  i.members.map fun m => ⟨m.name, m.type.render renderer.render⟩

/-- The complete source of an implementation. -/
def source (i : Implementation) (options : GeneratorOptions) : Except SourceFault String := do
  let renderer ← (i.typeQualifier options.marker).nameRenderer.mapError .conflict
  let header ← i.type.classType.topLevelDeclaration.mapError .template
  return ImportBlock.render renderer ++ SourceText.renderLines
    (SourceText.classLines (renderer.render options.marker) options.processorName
      (header.render renderer.render) (i.type.interfaceType.render renderer.render) i.className
      (renderer.render JavaLang.override) (i.properties renderer))

end Implementation

end ImmutableJava
