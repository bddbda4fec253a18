import ImmutableJava.Proofs.Composition
import ImmutableJava.Proofs.References
import ImmutableJava.Proofs.Spelling

/-!
# The shape of a source file

A source is put together from lines at levels of indentation, and its types come out of
templates.  `SourceShape.text` is the same file without lines, levels or templates: a text
with gaps, one for each name and each type that a declaration can choose.  The source of a
model, if it can be written, is such a text.

Two things keep a source in this shape.

* Each part of the class is the text of its lines, member by member (`renderLines_flatMap`), so
  the levels can be replaced by the blanks that they stand for (`renderLines_classLines`).
* The header of the class is made by writing the simple name over the first placeholder of the
  class's own template, while the constructor takes its name from the raw type.  The template
  is rooted at that type, so the header begins with the name of the constructor and goes on
  with the type parameters (`IsRooted.render_topLevelDeclaration`).

The types in the gaps are what the templates of the declaration's descriptors render to
(`TypeDescriptor.IsWrittenAs`).  A method has one template, and so its field, its parameter and
its accessor have one type.
-/

namespace ImmutableJava

open Pattern Reporting

/-! ## Texts of lines -/

namespace SourceText

@[simp] theorem renderLines_nil : renderLines [] = "" := rfl

@[simp] theorem renderLines_cons (line : Line) (lines : List Line) :
    renderLines (line :: lines) = line.render ++ renderLines lines := by
  rw [renderLines, List.map_cons, String.join_cons, ← renderLines]

@[simp] theorem renderLines_append (lines more : List Line) :
    renderLines (lines ++ more) = renderLines lines ++ renderLines more := by
  rw [renderLines, List.map_append, String.join_append, ← renderLines, ← renderLines]

/-- What is written for each member is written member by member. -/
theorem renderLines_flatMap {α : Type} (f : α → List Line) (l : List α) :
    renderLines (l.flatMap f) = String.join (l.map fun a => renderLines (f a)) := by
  induction l with
  | nil => rfl
  | cons a l ih => rw [List.flatMap_cons, renderLines_append, ih, List.map_cons, String.join_cons]

theorem renderLines_map {α : Type} (f : α → Line) (l : List α) :
    renderLines (l.map f) = String.join (l.map fun a => (f a).render) := by
  rw [renderLines, List.map_map]
  rfl

@[simp] theorem render_level_zero (text : String) : Line.render ⟨0, text⟩ = text ++ "\n" := by
  simp [Line.render]

@[simp] theorem render_level_one (text : String) :
    Line.render ⟨1, text⟩ = "    " ++ text ++ "\n" := by
  simp [Line.render, indentation, List.replicate]

@[simp] theorem render_level_two (text : String) :
    Line.render ⟨2, text⟩ = "        " ++ text ++ "\n" := by
  simp [Line.render, indentation, List.replicate]

end SourceText

/-! ## A text with gaps -/

/-- A type parameter whose bounds are spelled. -/
structure BoundedName where
  /-- The name of the type variable. -/
  name : String
  /-- The spellings of its bounds. -/
  bounds : List String

/-- The type parameter as a header introduces it. -/
def BoundedName.text (p : BoundedName) : String :=
  if p.bounds = [] then p.name else p.name ++ " extends " ++ " & ".intercalate p.bounds

/-- What one source file has and another one has not. -/
structure SourceShape where
  /-- The package, and the empty text for the unnamed package. -/
  packageName : String
  /-- The qualified names of the imported types. -/
  imports : List String
  /-- The annotation that marks the class. -/
  marker : String
  /-- What the annotation names as the generator. -/
  processorName : String
  /-- The name of the class. -/
  className : String
  /-- The type parameters of the class with their bounds. -/
  typeParameters : List BoundedName
  /-- The interface. -/
  interface : String
  /-- The type arguments of the interface. -/
  typeVariables : List String
  /-- The annotation of an accessor. -/
  override : String
  /-- The members, each with its type. -/
  members : List SourceText.Property

namespace SourceShape

/-- The package declaration and the imports, each with an empty line after it. -/
def importBlock (s : SourceShape) : String :=
  (if s.packageName = "" then "" else "package " ++ s.packageName ++ ";\n\n") ++
    String.join (s.imports.map fun name => "import " ++ name ++ ";\n") ++
    (if s.imports = [] then "" else "\n")

/-- The line of the annotation and the line of the class. -/
def header (s : SourceShape) : String :=
  "@" ++ s.marker ++ "(\"" ++ s.processorName ++ "\")\n" ++
    "class " ++ s.className ++ angleBrackets (s.typeParameters.map (·.text)) ++
    " implements " ++ s.interface ++ angleBrackets s.typeVariables ++ " \x7b\n"

/-- The fields. -/
def fields (s : SourceShape) : String :=
  if s.members = [] then ""
  else "\n" ++ String.join (s.members.map fun m =>
    "    private final " ++ m.type ++ " " ++ m.name ++ ";\n")

/-- The constructor. -/
def constructor (s : SourceShape) : String :=
  "\n    " ++ s.className ++
    "(" ++ ", ".intercalate (s.members.map fun m => m.type ++ " " ++ m.name) ++ ") \x7b\n" ++
    String.join (s.members.map fun m => "        this." ++ m.name ++ " = " ++ m.name ++ ";\n") ++
    "    \x7d\n"

/-- The accessors. -/
def accessors (s : SourceShape) : String :=
  String.join (s.members.map fun m =>
    "\n    @" ++ s.override ++ "\n" ++
      "    public " ++ m.type ++ " " ++ m.name ++ "() \x7b\n" ++
      "        return " ++ m.name ++ ";\n" ++
      "    \x7d\n")

/-- The whole file. -/
def text (s : SourceShape) : String :=
  s.importBlock ++ s.header ++ s.fields ++ s.constructor ++ s.accessors ++ "\x7d\n"

end SourceShape

namespace SourceText

theorem render_fieldLine (m : Property) :
    (fieldLine m).render = "    private final " ++ m.type ++ " " ++ m.name ++ ";\n" :=
  String.toList_inj.1 (by simp [fieldLine, Property.typed])

theorem render_assignmentLine (m : Property) :
    (assignmentLine m).render = "        this." ++ m.name ++ " = " ++ m.name ++ ";\n" :=
  String.toList_inj.1 (by simp [assignmentLine])

theorem renderLines_accessorLines (override : String) (m : Property) :
    renderLines (accessorLines override m) =
      "\n    @" ++ override ++ "\n" ++
        "    public " ++ m.type ++ " " ++ m.name ++ "() \x7b\n" ++
        "        return " ++ m.name ++ ";\n" ++
        "    \x7d\n" :=
  String.toList_inj.1 (by simp [accessorLines, blank, Property.typed])

theorem renderLines_fieldLines (s : SourceShape) :
    renderLines (fieldLines s.members) = s.fields := by
  by_cases hnil : s.members = []
  · simp [fieldLines, SourceShape.fields, hnil]
  · have hblank : blank.render = "\n" := by simp [blank]
    rw [fieldLines, if_neg (by simpa using hnil), renderLines_cons, renderLines_map, hblank,
      SourceShape.fields, if_neg hnil]
    simp only [render_fieldLine]

theorem renderLines_constructorLines (s : SourceShape) :
    renderLines (constructorLines s.className s.members) = s.constructor := by
  have htyped : s.members.map Property.typed =
      s.members.map fun m => m.type ++ " " ++ m.name := rfl
  -- `rw` would ask for the equation of this definition, which is slow to generate
  delta SourceShape.constructor
  rw [constructorLines, renderLines_append, renderLines_append, renderLines_map, htyped]
  simp only [render_assignmentLine]
  generalize ", ".intercalate _ = parameters
  generalize String.join _ = assignments
  exact String.toList_inj.1 (by simp [blank])

theorem renderLines_flatMap_accessorLines (s : SourceShape) :
    renderLines (s.members.flatMap (accessorLines s.override)) = s.accessors := by
  rw [renderLines_flatMap, SourceShape.accessors]
  simp only [renderLines_accessorLines]

theorem render_markerLine (marker processorName : String) :
    (markerLine marker processorName).render =
      "@" ++ marker ++ "(\"" ++ processorName ++ "\")\n" :=
  String.toList_inj.1 (by simp [markerLine])

theorem render_headerLine (header interface : String) :
    (headerLine header interface).render =
      "class " ++ header ++ " implements " ++ interface ++ " \x7b\n" :=
  String.toList_inj.1 (by simp [headerLine])

theorem renderLines_header (s : SourceShape) :
    renderLines [markerLine s.marker s.processorName,
      headerLine (s.className ++ angleBrackets (s.typeParameters.map (·.text)))
        (s.interface ++ angleBrackets s.typeVariables)] = s.header := by
  delta SourceShape.header
  simp only [renderLines_cons, renderLines_nil, String.append_empty, render_markerLine,
    render_headerLine, String.append_assoc]

/-- The class of a source is written in its shape. -/
theorem renderLines_classLines (s : SourceShape) :
    renderLines (classLines s.marker s.processorName
      (s.className ++ angleBrackets (s.typeParameters.map (·.text)))
      (s.interface ++ angleBrackets s.typeVariables) s.className s.override s.members) =
        s.header ++ s.fields ++ s.constructor ++ s.accessors ++ "\x7d\n" := by
  rw [classLines, renderLines_append, renderLines_append, renderLines_append, renderLines_append,
    renderLines_header, renderLines_fieldLines, renderLines_constructorLines,
    renderLines_flatMap_accessorLines]
  simp

end SourceText

theorem SourceShape.text_eq (s : SourceShape) :
    s.text = s.importBlock ++ SourceText.renderLines
      (SourceText.classLines s.marker s.processorName
        (s.className ++ angleBrackets (s.typeParameters.map (·.text)))
        (s.interface ++ angleBrackets s.typeVariables) s.className s.override s.members) := by
  rw [SourceText.renderLines_classLines, text]
  simp only [String.append_assoc]

/-- The head of a unit is written in its shape. -/
theorem ImportBlock.render_eq_importBlock (s : SourceShape) {renderer : NameRenderer}
    (hpackage : s.packageName = renderer.packageName)
    (himports : s.imports = renderer.importDeclarations.map (·.qualifiedName)) :
    ImportBlock.render renderer = s.importBlock := by
  have hjoin : String.join (s.imports.map fun name => "import " ++ name ++ ";\n") =
      String.join (renderer.importDeclarations.map importDeclaration) := by
    rw [himports, List.map_map]
    rfl
  have hnil : s.imports = [] ↔ renderer.importDeclarations = [] := by
    rw [himports, List.map_eq_nil_iff]
  simp only [ImportBlock.render, declarations, packageDeclaration, importDeclarations,
    SourceShape.importBlock, hjoin, hpackage, List.isEmpty_iff, hnil]
  by_cases hempty : renderer.importDeclarations = []
  · simp [hempty]
  · rw [if_neg hempty, if_neg hempty]
    simp only [String.append_assoc]

/-! ## What fills the gaps -/

/-- The text is what the template of the descriptor renders to. -/
def TypeDescriptor.IsWrittenAs (element : String) (namer : BinaryName → String)
    (d : TypeDescriptor) (text : String) : Prop :=
  ∃ t, TypeDescriptor.HasTemplate element d t ∧ t.render namer = text

theorem TypeDescriptor.forall₂_isWrittenAs {element : String} {ds : List TypeDescriptor}
    {ts : List Template} (h : List.Forall₂ (HasTemplate element) ds ts)
    (namer : BinaryName → String) :
    List.Forall₂ (IsWrittenAs element namer) ds (ts.map (·.render namer)) :=
  List.forall₂_map_right_iff.2 (h.imp fun _ t ht => ⟨t, ht, rfl⟩)

namespace TypeParameter

variable {element : String} {p : TypeParameter} {t : Template} {ps : List TypeParameter}
  {ts : List Template}

/-- The text is what a header shows for the type parameter. -/
def IsWrittenAs (element : String) (namer : BinaryName → String) (p : TypeParameter)
    (text : BoundedName) : Prop :=
  text.name = p.name ∧
    List.Forall₂ (TypeDescriptor.IsWrittenAs element namer) p.shownBounds text.bounds

theorem aligned_of_run_template (h : (p.template element).run = .ok ⟨t, []⟩) : t.Aligned := by
  obtain ⟨ts, -, hmade⟩ := run_template_eq_ok_nil h
  exact Template.aligned_of_make (Template.typeParameter_eq p.name ts ▸ hmade)

/-- The template of a type parameter renders to its name and its bounds. -/
theorem exists_text_eq_render (h : (p.template element).run = .ok ⟨t, []⟩)
    (namer : BinaryName → String) :
    ∃ text, p.IsWrittenAs element namer text ∧ text.text = t.render namer := by
  obtain ⟨ts, hts, hmade⟩ := run_template_eq_ok_nil h
  refine ⟨⟨p.name, ts.map (·.render namer)⟩,
    ⟨rfl, TypeDescriptor.forall₂_isWrittenAs hts namer⟩, ?_⟩
  rw [Template.render_typeParameter (TypeDescriptor.aligned_of_forall₂ hts) hmade, BoundedName.text]
  simp only [List.map_eq_nil_iff]

/-- The type parameters of a class are written one by one. -/
theorem exists_map_text_eq_map_render
    (h : List.Forall₂ (fun p t => (TypeParameter.template element p).run = .ok ⟨t, []⟩) ps ts)
    (namer : BinaryName → String) :
    ∃ texts, List.Forall₂ (IsWrittenAs element namer) ps texts ∧
      texts.map (·.text) = ts.map (·.render namer) := by
  induction h with
  | nil => exact ⟨[], .nil, rfl⟩
  | cons hp _ ih =>
    obtain ⟨texts, htexts, hrender⟩ := ih
    obtain ⟨text, htext, hhead⟩ := exists_text_eq_render hp namer
    refine ⟨text :: texts, .cons htext htexts, ?_⟩
    rw [List.map_cons, List.map_cons, hhead, hrender]

/-- The type arguments of the interface are the names of the type parameters. -/
theorem map_render_typeVariable
    (h : List.Forall₂ (fun p t => Template.typeVariable p.name = .ok t) ps ts)
    (namer : BinaryName → String) : ts.map (·.render namer) = ps.map (·.name) := by
  induction h with
  | nil => rfl
  | cons hp _ ih => rw [List.map_cons, List.map_cons, ih, Template.render_of_make_nil hp]

end TypeParameter

/-- A member has the name of a method and the spelling of its return type. -/
def Declaration.IsWrittenAs (d : Declaration) (namer : BinaryName → String) (m : Method)
    (p : SourceText.Property) : Prop :=
  p.name = m.name ∧ TypeDescriptor.IsWrittenAs (d.methodElement m) namer m.returnType p.type

/-- The shape of the source of an implementation, given its interface and the spellings of its
type parameters. -/
def Implementation.shape (i : Implementation) (options : GeneratorOptions)
    (renderer : NameRenderer) (rawInterface : BinaryName) (typeParameters : List BoundedName) :
    SourceShape where
  packageName := i.packageName
  imports := renderer.importDeclarations.map (·.qualifiedName)
  marker := renderer.render options.marker
  processorName := options.processorName
  className := i.className
  typeParameters := typeParameters
  interface := renderer.render rawInterface
  typeVariables := i.type.typeVariables
  override := renderer.render JavaLang.override
  members := i.properties renderer

/-! ## The source of a model -/

namespace Implementation

variable {i : Implementation} {options : GeneratorOptions}

/-- A source is written with a header. -/
theorem exists_header_of_source {text : String} (h : i.source options = .ok text) :
    ∃ header, i.type.classType.topLevelDeclaration = .ok header := by
  rw [source] at h
  obtain ⟨renderer, -, hrest⟩ := bind_eq_ok_iff.1 h
  obtain ⟨header, hheader, -⟩ := bind_eq_ok_iff.1 hrest
  exact ⟨header, mapError_eq_ok_iff.1 hheader⟩

/-- The names of a unit are those of its package. -/
theorem exists_nameRenderer (i : Implementation) (marker : BinaryName) :
    ∃ renderer, (i.typeQualifier marker).nameRenderer = .ok renderer ∧
      renderer.packageName = i.packageName :=
  ⟨_, TypeQualifier.nameRenderer_eq_ok (i.isProjected_typeQualifier marker), rfl⟩

/-- The source of a class that is rooted at its raw type, with type parameters behind it, and
of an interface with the type variables for its arguments. -/
theorem source_eq_ok_text {renderer : NameRenderer} {rawInterface : BinaryName} {tail : String}
    {rest : List BinaryName} {typeParameters : List BoundedName} {header : Template}
    (hrenderer : (i.typeQualifier options.marker).nameRenderer = .ok renderer)
    (hpackage : renderer.packageName = i.packageName)
    (hroot : i.type.classType.IsRooted i.type.rawType tail rest)
    (htail : filled tail (rest.map renderer.render) = angleBrackets (typeParameters.map (·.text)))
    (hinterface : i.type.interfaceType.render renderer.render =
      renderer.render rawInterface ++ angleBrackets i.type.typeVariables)
    (hheader : i.type.classType.topLevelDeclaration = .ok header) :
    i.source options = .ok (i.shape options renderer rawInterface typeParameters).text := by
  -- the header names the class as the constructor does
  have hname := hroot.render_topLevelDeclaration hheader renderer.render
  rw [htail] at hname
  rw [source_eq_ok hrenderer hheader, classText, hname, hinterface,
    ImportBlock.render_eq_importBlock (i.shape options renderer rawInterface typeParameters)
      hpackage.symm rfl, SourceShape.text_eq]
  rfl

end Implementation

namespace Declaration

variable {d : Declaration} {i : Implementation} {ds : List Diagnostic}

/-- The members of a model are made from the methods to implement, in their order. -/
theorem forall₂_isWrittenAs_properties (h : d.members.run = .ok ⟨i.members, []⟩)
    (renderer : NameRenderer) :
    List.Forall₂ (d.IsWrittenAs renderer.render) d.methodsToImplement (i.properties renderer) := by
  refine List.forall₂_map_right_iff.2 ((run_members_eq_ok_nil_iff.1 h).imp fun m member hm => ?_)
  obtain ⟨hname, htype⟩ := run_member_eq_ok_nil hm
  exact ⟨hname, member.type, htype, rfl⟩

/-- The class of a model is rooted at its raw type, with the type parameters behind it, and
the interface has the type variables for its arguments. -/
theorem exists_isRooted_of_implementation (h : d.implementation = .ok ⟨some i, ds⟩)
    (namer : BinaryName → String) :
    ∃ rawInterface tail rest typeParameters,
      BinaryName.ofText d.binaryName = .ok rawInterface ∧
      i.type.classType.IsRooted i.type.rawType tail rest ∧
      List.Forall₂ (TypeParameter.IsWrittenAs d.binaryName namer) d.typeParameters
        typeParameters ∧
      i.type.typeVariables = d.typeParameters.map (·.name) ∧
      filled tail (rest.map namer) = angleBrackets (typeParameters.map (·.text)) ∧
      i.type.interfaceType.render namer =
        namer rawInterface ++ angleBrackets i.type.typeVariables := by
  obtain ⟨-, htype, -⟩ := implementation_eq_ok_some_iff.1 h
  obtain ⟨rawInterface, rawType, type, hsome, hname, -, hmade⟩ :=
    run_immutableType?_eq_ok_nil htype
  obtain rfl := Option.some.inj hsome
  obtain ⟨parameters, names, hparameters, hnames, hclass, hinterface, hraw, hvariables⟩ :=
    run_immutableType_eq_ok_nil hmade
  have hroot := Template.isRooted_of_declared hclass
  obtain ⟨texts, htexts, hrender⟩ := TypeParameter.exists_map_text_eq_map_render hparameters namer
  refine ⟨rawInterface, _, _, texts, hname, hraw ▸ hroot, htexts, hvariables, ?_, ?_⟩
  · have haligned := forall_mem_of_forall₂ hparameters fun _ _ ht =>
      TypeParameter.aligned_of_run_template ht
    rw [Template.filled_angleBrackets haligned hroot.count_tail, hrender]
  · have haligned := forall_mem_of_forall₂ hnames fun _ _ ht =>
      Template.aligned_of_make ht
    rw [Template.render_declared haligned hinterface,
      TypeParameter.map_render_typeVariable hnames, hvariables]

/-- The source of a model can be written exactly when the name of the class has no
placeholder, and then it has the shape of a source file. -/
theorem source_eq_ok_iff_of_implementation (h : d.implementation = .ok ⟨some i, ds⟩)
    (options : GeneratorOptions) :
    ∃ renderer rawInterface typeParameters,
      (i.typeQualifier options.marker).nameRenderer = .ok renderer ∧
      BinaryName.ofText d.binaryName = .ok rawInterface ∧
      List.Forall₂ (TypeParameter.IsWrittenAs d.binaryName renderer.render) d.typeParameters
        typeParameters ∧
      i.type.typeVariables = d.typeParameters.map (·.name) ∧
      List.Forall₂ (d.IsWrittenAs renderer.render) d.methodsToImplement (i.properties renderer) ∧
      ∀ text, i.source options = .ok text ↔
        ¬ placeholder.toList <:+: i.className.toList ∧
          text = (i.shape options renderer rawInterface typeParameters).text := by
  obtain ⟨renderer, hrenderer, hpackage⟩ := i.exists_nameRenderer options.marker
  obtain ⟨rawInterface, tail, rest, typeParameters, hname, hroot, hparameters, hvariables, htail,
    hinterface⟩ := exists_isRooted_of_implementation h renderer.render
  have hmembers := forall₂_isWrittenAs_properties (implementation_eq_ok_some_iff.1 h).2.2 renderer
  have hsource : ∀ header, i.type.classType.topLevelDeclaration = .ok header →
      i.source options = .ok (i.shape options renderer rawInterface typeParameters).text :=
    fun _ => Implementation.source_eq_ok_text hrenderer hpackage hroot htail hinterface
  refine ⟨renderer, rawInterface, typeParameters, hrenderer, hname, hparameters, hvariables,
    hmembers, fun text => ⟨fun htext => ?_, ?_⟩⟩
  · obtain ⟨header, hheader⟩ := Implementation.exists_header_of_source htext
    exact ⟨count_eq_zero_iff.1 (hroot.exists_topLevelDeclaration_iff.1 ⟨header, hheader⟩),
      Except.ok.inj (htext.symm.trans (hsource header hheader))⟩
  · rintro ⟨hplain, rfl⟩
    obtain ⟨header, hheader⟩ := hroot.exists_topLevelDeclaration_iff.2 (count_eq_zero_iff.2 hplain)
    exact hsource header hheader

/-- The source of a generic nested interface with two methods. -/
theorem source_eq_ok_iff_of_implementation_nested :
    ∃ i,
      ({ Declaration.ofName "test.Outer$Box" with
        typeParameters := [⟨"T", []⟩]
        methods := [.accessor "values" (.generic "java.util.List" [.typeVariable "T"]),
          .accessor "size" (.primitive "int")] } : Declaration).implementation =
        .ok ⟨some i, []⟩ ∧
      i.source .standard = .ok (
        "package test;\n\n" ++
        "import java.util.List;\n" ++
        "import javax.annotation.processing.Generated;\n\n" ++
        "@Generated(\"immgen\")\n" ++
        "class ImmutableOuter_Box<T> implements Outer.Box<T> \x7b\n\n" ++
        "    private final List<T> values;\n" ++
        "    private final int size;\n\n" ++
        "    ImmutableOuter_Box(List<T> values, int size) \x7b\n" ++
        "        this.values = values;\n" ++
        "        this.size = size;\n" ++
        "    \x7d\n\n" ++
        "    @Override\n" ++
        "    public List<T> values() \x7b\n" ++
        "        return values;\n" ++
        "    \x7d\n\n" ++
        "    @Override\n" ++
        "    public int size() \x7b\n" ++
        "        return size;\n" ++
        "    \x7d\n" ++
        "\x7d\n") := by
  obtain ⟨renderer, rawInterface, typeParameters, hrenderer, hname, hparameters, -, -, hsource⟩ :=
    source_eq_ok_iff_of_implementation
      (d := { Declaration.ofName "test.Outer$Box" with
        typeParameters := [⟨"T", []⟩]
        methods := [.accessor "values" (.generic "java.util.List" [.typeVariable "T"]),
          .accessor "size" (.primitive "int")] })
      rfl .standard
  have hunit := Except.ok.inj (hrenderer.symm.trans (TypeQualifier.nameRenderer_eq_ok
    (Implementation.isProjected_typeQualifier _ _)))
  have hheader : typeParameters = [⟨"T", []⟩] := by
    obtain ⟨⟨name, bounds⟩, others, ⟨hhead, hbounds⟩, hnil, hall⟩ :=
      List.forall₂_cons_left_iff.1 hparameters
    have hvariable : name = "T" := hhead
    have hunbounded : bounds = [] := List.forall₂_nil_left_iff.1 hbounds
    rw [hall, List.forall₂_nil_left_iff.1 hnil, hvariable, hunbounded]
  refine ⟨_, rfl, (hsource _).2 ⟨?_, ?_⟩⟩
  · decide +kernel
  · clear hsource hrenderer hparameters
    cases hname
    rw [hheader, hunit]
    decide +kernel

end Declaration

end ImmutableJava
