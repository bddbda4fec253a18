import ImmutableJava.Generator
import ImmutableJava.Proofs.Model
import ImmutableJava.Proofs.PlainName
import ImmutableJava.Proofs.Qualification
import ImmutableJava.Proofs.Template

/-!
# A validated declaration can be written

A declaration whose names contain no placeholder never leads to a misaligned template.
The reason is the same at every step: the texts that are put between names are delimiters,
which make no placeholder with anything, and what stands behind a name is empty or starts
with a delimiter.  `Reporting.Ensures` carries this through the walk over a descriptor
(`TypeDescriptor.ensures_template`) and through the making of a model.

Such a walk reports errors only, so there is a model exactly when nothing is reported.
The source of a model can be written, because the class of a model is a declared type and
because a renderer exists for every set of references.  `GeneratorOptions.generate_cases`
puts these together.
-/

namespace ImmutableJava

open Pattern Reporting

/-! ## Giving arguments to enclosing types -/

namespace Template

variable {t : Template} {raw outer : BinaryName} {tail : String} {rest : List BinaryName}
  {ts : List Template}

theorem IsRooted.exists_addOuterArguments (h : t.IsRooted raw tail rest)
    (hmem : outer ∈ raw.enclosingTypes) (hraw : count raw.qualifiedName = 0)
    (hts : ∀ a ∈ ts, a.Aligned) (hne : ts ≠ []) :
    ∃ u tail' rest', t.addOuterArguments outer ts = .ok u ∧ u.IsRooted outer tail' rest' := by
  have hsuffix : count (outer.nameAfter raw) = 0 := by
    have hle := BinaryName.count_add_nameAfter_le hmem
    omega
  have hbrackets : (angleBrackets (ts.map (·.pattern))).toList.getLast? ≠ some '%' := by
    rw [angleBrackets_of_ne_nil (by simpa using hne), String.toList_append, List.getLast?_append]
    have hclosing : ">".toList.getLast? = some '>' := by decide
    rw [hclosing, Option.some_or]
    decide
  have hcount : count (angleBrackets (ts.map (·.pattern)) ++ outer.nameAfter raw ++ tail) =
      (ts.flatMap (·.args) ++ rest).length := by
    rw [count_append_of_head? h.head?_tail, count_append_of_getLast? hbrackets,
      count_angleBrackets hts, hsuffix, h.count_tail, List.length_append, Nat.add_zero]
  have hhead : (angleBrackets (ts.map (·.pattern)) ++ outer.nameAfter raw ++ tail).toList.head? ≠
      some 's' := by
    rw [String.append_assoc, head?_angleBrackets_append _ _ (by simpa using hne)]
    decide
  exact ⟨_, _, _, h.addOuterArguments_eq_ok_iff.2
    ⟨_, BinaryName.suffixAfter?_eq_nameAfter hmem, .inr ⟨hne, rfl, hcount, hhead⟩⟩,
    rfl, hcount, hhead⟩

/-- Arguments can be given along a chain of enclosing types whose names have no
placeholder. -/
theorem IsRooted.exists_addOuterArgumentLists (h : t.IsRooted raw tail rest)
    (hraw : count raw.qualifiedName = 0) {levels : List (BinaryName × List Template)}
    (halign : ∀ level ∈ levels, ∀ a ∈ level.2, a.Aligned)
    (hchain : (raw :: levels.map (·.1)).Pairwise fun inner outer => outer ∈ inner.enclosingTypes) :
    ∃ u, t.addOuterArgumentLists levels = .ok u ∧ u.Aligned := by
  induction levels generalizing t raw tail rest with
  | nil => exact ⟨t, rfl, h.aligned⟩
  | cons level levels ih =>
    obtain ⟨outer, ts⟩ := level
    obtain ⟨hlevel, hmore⟩ := List.forall_mem_cons.1 halign
    obtain ⟨hinner, houter⟩ := List.pairwise_cons.1 hchain
    have hmem : outer ∈ raw.enclosingTypes := hinner outer List.mem_cons_self
    by_cases hts : ts = []
    · subst hts
      have hstay : t.addOuterArguments outer [] = .ok t :=
        addOuterArguments_nil h.rawTypeOrFault_eq (BinaryName.suffixAfter?_eq_nameAfter hmem)
      have hskip : (raw :: levels.map (·.1)).Pairwise fun inner outer =>
          outer ∈ inner.enclosingTypes :=
        List.pairwise_cons.2 ⟨fun o ho => hinner o (List.mem_cons_of_mem _ ho), houter.tail⟩
      obtain ⟨u, hu, hualigned⟩ := ih h hraw hmore hskip
      exact ⟨u, addOuterArgumentLists_cons_eq_ok_iff.2 ⟨t, hstay, hu⟩, hualigned⟩
    · obtain ⟨v, tail', rest', hv, hroot⟩ := h.exists_addOuterArguments hmem hraw hlevel hts
      have hname : count outer.qualifiedName = 0 := by
        have hle := BinaryName.count_add_nameAfter_le hmem
        omega
      obtain ⟨u, hu, hualigned⟩ := ih hroot hname hmore houter
      exact ⟨u, addOuterArgumentLists_cons_eq_ok_iff.2 ⟨v, hv, hu⟩, hualigned⟩

end Template

/-! ## Templates of descriptors -/

namespace TypeDescriptor

theorem ensures_unsupported (element : String) (problem : TypeProblem) :
    Ensures (unsupported element problem) Template.Aligned := by
  have hmarker : count "!" = 0 := by decide
  exact ⟨_, run_unsupported element problem, hmarker⟩

theorem ensures_withOuterArguments {element : String} {plain : Template}
    {levels : List (BinaryName × List Template)}
    (h : ∃ u, plain.addOuterArgumentLists levels = .ok u ∧ u.Aligned) :
    Ensures (withOuterArguments element plain levels) Template.Aligned := by
  obtain ⟨u, hu, halign⟩ := h
  rw [withOuterArguments, hu]
  exact ensures_pure halign

/-- A descriptor whose names have no placeholder has an aligned template, perhaps with
errors reported. -/
theorem ensures_template (element : String) (d : TypeDescriptor)
    (h : ∀ name ∈ d.names, count name = 0) : Ensures (template element d) Template.Aligned := by
  induction d using TypeDescriptor.induction with
  | primitive name =>
    rw [template]
    exact ensures_align (Template.exists_make _ _ _ (h name (by simp)))
  | array component ih =>
    rw [template]
    exact (ih h).bind fun u hu => ensures_align (Template.exists_array hu)
  | declared name arguments enclosing ih ihl =>
    have harguments : Ensures (templates element arguments) fun ts => ∀ t ∈ ts, t.Aligned := by
      rw [templates_eq_mapM]
      refine ensures_mapM fun a ha => ih a ha fun n hn => h n ?_
      simp only [names_declared, List.mem_cons, List.mem_append, List.mem_flatMap]
      exact .inr (.inl ⟨a, ha, hn⟩)
    have hlevels : Ensures (templateLists element enclosing) fun tss =>
        ∀ ts ∈ tss, ∀ t ∈ ts, t.Aligned := by
      rw [templateLists_eq_mapM]
      apply ensures_mapM
      intro level hlevel
      rw [templates_eq_mapM]
      refine ensures_mapM fun a ha => ihl level hlevel a ha fun n hn => h n ?_
      simp only [names_declared, List.mem_cons, List.mem_append, List.mem_flatMap]
      exact .inr (.inr ⟨level, hlevel, a, ha, hn⟩)
    rw [template]
    cases hname : BinaryName.ofText name with
    | error refusal => exact ensures_unsupported _ _
    | ok raw =>
      have hraw : count raw.qualifiedName = 0 := by
        rw [← raw.count_text, BinaryName.ofText_eq_ok_iff.1 hname]
        exact h name (by simp)
      apply harguments.bind
      intro ts hts
      obtain ⟨plain, hplain⟩ := Template.exists_declared raw hts
      have hroot := Template.isRooted_of_declared hplain
      refine (ensures_align (P := fun u => u = plain) ⟨plain, hplain, rfl⟩).bind ?_
      rintro _ rfl
      split
      · exact ensures_unsupported _ _
      · refine hlevels.bind fun tss htss => ensures_withOuterArguments ?_
        exact hroot.exists_addOuterArgumentLists hraw
          (fun level hlevel => htss level.2 (List.of_mem_zip hlevel).2)
          (raw.pairwise_zip_enclosingTypes tss)
  | typeVariable name =>
    rw [template]
    exact ensures_align (Template.exists_make _ _ _ (h name (by simp)))
  | wildcard extendsBound superBound ihe ihs =>
    rcases extendsBound with _ | b <;> rcases superBound with _ | c
    · exact ensures_align (Template.exists_make _ _ _ rfl)
    · exact (ihs c rfl fun n hn => h n (mem_names_wildcard.2 (.inr ⟨c, rfl, hn⟩))).bind
        fun u hu => ensures_align (Template.exists_wildcardSuper hu)
    · exact (ihe b rfl fun n hn => h n (mem_names_wildcard.2 (.inl ⟨b, rfl, hn⟩))).bind
        fun u hu => ensures_align (Template.exists_wildcardExtends hu)
    · exact ensures_unsupported _ _
  | void => exact ensures_unsupported _ _
  | broken name => exact ensures_unsupported _ _
  | union alternatives => exact ensures_unsupported _ _
  | intersection bounds => exact ensures_unsupported _ _

end TypeDescriptor

/-! ## Models -/

/-- The names of a type parameter and of its bounds. -/
def TypeParameter.names (p : TypeParameter) : List String :=
  p.name :: p.bounds.flatMap TypeDescriptor.names

/-- The names of the types of a method. -/
def Method.names (m : Method) : List String :=
  m.returnType.names ++ m.parameters.flatMap (·.type.names) ++
    m.typeParameters.flatMap TypeParameter.names

theorem TypeParameter.ensures_template (element : String) (p : TypeParameter)
    (h : ∀ name ∈ p.names, count name = 0) :
    Ensures (p.template element) Template.Aligned := by
  obtain ⟨hname, hbounds⟩ := List.forall_mem_cons.1 h
  have hmake : ∀ ts : List Template, (∀ t ∈ ts, t.Aligned) →
      Ensures (align (Template.typeParameter p.name ts)) Template.Aligned :=
    fun ts hts => ensures_align (Template.exists_typeParameter hname hts)
  rw [template]
  split
  · rw [TypeDescriptor.templates_eq_mapM]
    refine (ensures_mapM fun b hb => ?_).bind hmake
    exact TypeDescriptor.ensures_template element b fun n hn =>
      hbounds n (List.mem_flatMap.2 ⟨b, hb, hn⟩)
  · rw [pure_bind]
    exact hmake [] fun t ht => absurd ht List.not_mem_nil

namespace Declaration

variable {d : Declaration}

/-- The names that a declaration is made of: its own, and those of its type parameters
and its methods. -/
def names (d : Declaration) : List String :=
  d.binaryName ::
    (d.typeParameters.flatMap TypeParameter.names ++ d.methods.flatMap Method.names)

theorem ensures_report (d : Declaration) (problem : DeclarationProblem) :
    Ensures (d.report problem) fun _ => True :=
  Reporting.ensures_report _

theorem ensures_rawInterface? (d : Declaration) :
    Ensures d.rawInterface? fun raw? => ∀ raw ∈ raw?, raw.text = d.binaryName := by
  unfold rawInterface?
  split
  · refine (ensures_reportIf _ _).bind fun _ _ => ?_
    split
    · rename_i n hn
      refine ensures_pure fun raw hraw => ?_
      rw [← Option.some.inj hraw, BinaryName.ofText_eq_ok_iff.1 hn]
    · exact (d.ensures_report _).bind fun _ _ => ensures_pure fun raw hraw => absurd hraw (by simp)
  · exact (d.ensures_report _).bind fun _ _ => ensures_pure fun raw hraw => absurd hraw (by simp)

theorem ensures_rawImplementation? (d : Declaration) (rawInterface : BinaryName) :
    Ensures (d.rawImplementation? rawInterface) fun raw? =>
      ∀ raw ∈ raw?, raw.text = rawInterface.implementationName.qualifiedName := by
  unfold rawImplementation?
  refine (ensures_reportIf _ _).bind fun _ _ => (ensures_reportIf _ _).bind fun _ _ => ?_
  split
  · rename_i n hn
    apply ensures_pure
    intro raw hraw
    rw [← Option.some.inj hraw, BinaryName.ofText_eq_ok_iff.1 hn]
  · exact (d.ensures_report _).bind fun _ _ => ensures_pure fun raw hraw => absurd hraw (by simp)

theorem ensures_immutableType (rawInterface rawType : BinaryName)
    (h : ∀ name ∈ d.names, count name = 0) :
    Ensures (d.immutableType rawInterface rawType) fun i =>
      i.rawType = rawType ∧ ∃ tail rest, i.classType.IsRooted rawType tail rest := by
  have hnames : ∀ p ∈ d.typeParameters, ∀ name ∈ p.names, count name = 0 := fun p hp n hn =>
    h n (List.mem_cons_of_mem _ (List.mem_append_left _ (List.mem_flatMap.2 ⟨p, hp, hn⟩)))
  have hparameters := ensures_mapM fun p hp =>
    TypeParameter.ensures_template d.binaryName p (hnames p hp)
  have hvariables : Ensures (d.typeParameters.mapM fun p =>
      align (Template.typeVariable p.name)) fun ts => ∀ t ∈ ts, t.Aligned :=
    ensures_mapM fun p hp => ensures_align
      (Template.exists_make _ _ _ (hnames p hp p.name List.mem_cons_self))
  unfold immutableType
  refine hparameters.bind fun parameters hps => hvariables.bind fun ts hts => ?_
  obtain ⟨classType, hclass⟩ := Template.exists_declared rawType hps
  obtain ⟨interfaceType, hinterface⟩ := Template.exists_declared rawInterface hts
  refine (ensures_align (P := fun t => t = classType) ⟨_, hclass, rfl⟩).bind ?_
  rintro _ rfl
  refine (ensures_align (P := fun t => t = interfaceType) ⟨_, hinterface, rfl⟩).bind ?_
  rintro _ rfl
  exact ensures_pure ⟨rfl, _, _, Template.isRooted_of_declared hclass⟩

theorem ensures_immutableType? (h : ∀ name ∈ d.names, count name = 0) :
    Ensures d.immutableType? fun i? => ∀ i ∈ i?, count i.rawType.simpleName = 0 ∧
      ∃ tail rest, i.classType.IsRooted i.rawType tail rest := by
  unfold immutableType?
  refine d.ensures_rawInterface?.bind fun raw? hraw => ?_
  cases raw? with
  | none => exact ensures_pure fun i hi => absurd hi (Option.not_mem_none i)
  | some rawInterface =>
    have hinterface : count rawInterface.text = 0 := by
      rw [hraw rawInterface rfl]
      exact h _ List.mem_cons_self
    refine (d.ensures_rawImplementation? rawInterface).bind fun impl? himpl => ?_
    cases impl? with
    | none => exact ensures_pure fun i hi => absurd hi (Option.not_mem_none i)
    | some rawType =>
      have htext : count rawType.text = 0 := by
        rw [himpl rawType rfl]
        exact BinaryName.count_implementationName hinterface
      refine (ensures_immutableType rawInterface rawType h).bind fun i hi => ?_
      apply ensures_pure
      intro j hj
      obtain ⟨hrawType, htail⟩ := hi
      obtain rfl := Option.some.inj hj
      rw [hrawType]
      refine ⟨?_, htail⟩
      have hle := rawType.count_simpleName_le
      omega

theorem ensures_member (m : Method) (h : ∀ name ∈ m.names, count name = 0) :
    Ensures (d.member m) fun _ => True := by
  unfold member
  refine (ensures_reportIf _ _).bind fun _ _ => (ensures_reportIf _ _).bind fun _ _ => ?_
  refine (TypeDescriptor.ensures_template _ m.returnType fun n hn => h n ?_).bind
    fun _ _ => ensures_pure trivial
  exact List.mem_append_left _ (List.mem_append_left _ hn)

theorem ensures_members (h : ∀ name ∈ d.names, count name = 0) :
    Ensures d.members fun _ => True := by
  unfold members
  refine (ensures_mapM fun m hm => ensures_member m fun n hn => h n ?_).mono fun _ _ => trivial
  have hmethod : m ∈ d.methods := (List.mem_filter.1 hm).1
  exact List.mem_cons_of_mem _
    (List.mem_append_right _ (List.mem_flatMap.2 ⟨m, hmethod, hn⟩))

end Declaration

/-! ## Sources -/

/-- The text of the class, with its types named by the given function. -/
def Implementation.classText (i : Implementation) (options : GeneratorOptions) (header : Template)
    (namer : BinaryName → String) : String :=
  SourceText.renderLines
    (SourceText.classLines (namer options.marker) options.processorName (header.render namer)
      (i.type.interfaceType.render namer) i.className (namer JavaLang.override)
      (i.members.map fun m => ⟨m.name, m.type.render namer⟩))

/-- A source is the head of its unit and the text of the class as the unit's renderer
names its types. -/
theorem Implementation.source_eq_ok {i : Implementation} {options : GeneratorOptions}
    {renderer : NameRenderer} {header : Template}
    (hrenderer : (i.typeQualifier options.marker).nameRenderer = .ok renderer)
    (hheader : i.type.classType.topLevelDeclaration = .ok header) :
    i.source options =
      .ok (ImportBlock.render renderer ++ i.classText options header renderer.render) := by
  rw [source, hrenderer, hheader]
  rfl

theorem Implementation.isProjected_typeQualifier (i : Implementation) (marker : BinaryName) :
    (i.typeQualifier marker).IsProjected :=
  (TypeQualifier.isProjected_resolve _ _ _).withPackageTypes _

/-- The source can be written if the class is a declared type with a name of its own that
has no placeholder. -/
theorem Implementation.exists_source (i : Implementation) (options : GeneratorOptions)
    {tail : String} {rest : List BinaryName} (hname : count i.type.rawType.simpleName = 0)
    (h : i.type.classType.IsRooted i.type.rawType tail rest) :
    ∃ text, i.source options = .ok text := by
  have hrenderer := TypeQualifier.nameRenderer_eq_ok
    (i.isProjected_typeQualifier options.marker)
  obtain ⟨header, hheader⟩ := h.exists_topLevelDeclaration_iff.2 hname
  exact ⟨_, source_eq_ok hrenderer hheader⟩

namespace GeneratorOptions

theorem generate_of_value_eq_none {options : GeneratorOptions} {d : Declaration}
    {r : Reported (Option Implementation)} (hrun : d.implementation = .ok r)
    (hvalue : r.value = none) :
    options.generate d = .error (.diagnostics d.binaryName r.diagnostics) := by
  rcases r with ⟨value, ds⟩
  obtain rfl : value = none := hvalue
  rw [generate, hrun]
  rfl

theorem generate_of_value_eq_some {options : GeneratorOptions} {d : Declaration}
    {r : Reported (Option Implementation)} (hrun : d.implementation = .ok r)
    {i : Implementation} (hvalue : r.value = some i) {text : String}
    (htext : i.source options = .ok text) :
    options.generate d = .ok ⟨i.sourceName, i.type.rawType.sourcePath, text⟩ := by
  rcases r with ⟨value, ds⟩
  obtain rfl : value = some i := hvalue
  refine bind_eq_ok_iff.2 ⟨_, mapError_eq_ok_iff.2 hrun, ?_⟩
  exact bind_eq_ok_iff.2 ⟨text, mapError_eq_ok_iff.2 htext, rfl⟩

/-- A declaration whose names have no placeholder is checked without a misaligned
template.  If nothing is reported its source is generated, and otherwise the generation
answers with the reports, which are errors. -/
theorem generate_cases (options : GeneratorOptions) (d : Declaration)
    (h : ∀ name ∈ d.names, ¬ placeholder.toList <:+: name.toList) :
    ∃ r, d.implementation = .ok r ∧
      ((r.diagnostics = [] ∧ ∃ source, options.generate d = .ok source) ∨
        (r.diagnostics ≠ [] ∧ (∀ x ∈ r.diagnostics, x.isError = true) ∧
          options.generate d = .error (.diagnostics d.binaryName r.diagnostics))) := by
  have hnames : ∀ name ∈ d.names, count name = 0 := fun name hname =>
    count_eq_zero_of_not_infix (h name hname)
  obtain ⟨type, htype, hheader⟩ := Declaration.ensures_immutableType? hnames
  obtain ⟨members, hmembers, -⟩ := Declaration.ensures_members hnames
  have hrun := Declaration.implementation_eq_ok_iff.2 ⟨type, members, htype, hmembers, rfl⟩
  refine ⟨_, hrun, ?_⟩
  by_cases hnil : (Declaration.outcome type members).diagnostics = []
  · obtain ⟨htypenil, hmembersnil⟩ := List.append_eq_nil_iff.1 hnil
    have htype' : d.immutableType?.run = .ok ⟨type.value, []⟩ := by rw [htype, ← htypenil]
    obtain ⟨-, -, t, hsome, -, -, -⟩ := Declaration.run_immutableType?_eq_ok_nil htype'
    obtain ⟨hname, tail, rest, hroot⟩ := hheader t hsome
    obtain ⟨text, htext⟩ := Implementation.exists_source ⟨t, members.value⟩ options hname hroot
    have hvalue : (Declaration.outcome type members).value = some ⟨t, members.value⟩ := by
      rw [Declaration.outcome, htypenil, hmembersnil, hsome]
      rfl
    exact .inl ⟨hnil, _, generate_of_value_eq_some hrun hvalue htext⟩
  · have hvalue : (Declaration.outcome type members).value = none := by
      rcases hsome : (Declaration.outcome type members).value with _ | i
      · rfl
      · have hmodel : d.implementation =
            .ok ⟨some i, (Declaration.outcome type members).diagnostics⟩ := by rw [hrun, ← hsome]
        exact absurd (Declaration.implementation_eq_ok_some_iff.1 hmodel).1 hnil
    exact .inr ⟨hnil, Declaration.isError_of_implementation_eq_ok hrun,
      generate_of_value_eq_none hrun hvalue⟩

/-- A generic nested interface is generated. -/
theorem generate_cases_nested :
    ∃ source, GeneratorOptions.standard.generate
      { Declaration.ofName "test.Outer$Box" with
        typeParameters := [⟨"T", [.plain "java.lang.Number"]⟩]
        methods := [.accessor "values"
          (.generic "java.util.List" [.wildcard (some (.typeVariable "T")) none])] } =
      .ok source := by
  obtain ⟨r, hrun, ⟨-, hsource⟩ | ⟨hnil, -⟩⟩ := generate_cases .standard
    { Declaration.ofName "test.Outer$Box" with
      typeParameters := [⟨"T", [.plain "java.lang.Number"]⟩]
      methods := [.accessor "values"
        (.generic "java.util.List" [.wildcard (some (.typeVariable "T")) none])] }
    (by decide +kernel)
  · exact hsource
  · refine absurd ?_ hnil
    cases hrun
    rfl

end GeneratorOptions

end ImmutableJava
