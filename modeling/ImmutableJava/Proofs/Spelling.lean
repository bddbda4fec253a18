import ImmutableJava.Proofs.DescriptorTemplate
import ImmutableJava.Proofs.EnclosingType
import ImmutableJava.Proofs.Template

/-!
# Templates spell their descriptors

`spelling?` writes a descriptor down directly, as source code does: a type from its
outermost generic enclosing type inwards (`nestedName`), and everything else from its
parts.  No pattern and no placeholder occurs in it.

The template of a declared type is built the other way round, from the inside out.  What
the two share is the text that is known so far: after any number of levels the template
is rooted at the type reached, and renders to that type's name and the text so far
(`render_addOuterArgumentLists`).  `spelling?_eq_some_render` is the conclusion for all
descriptors and all ways to name types.
-/

namespace ImmutableJava

/-! ## Names of nested types -/

/-- The name of a type and its own arguments in brackets, given the levels around it from
the inside out: it starts at the outermost level that has arguments. -/
def nestedName (namer : BinaryName → String) (type : BinaryName) (own : String) :
    List (BinaryName × List String) → String
  | [] => namer type ++ own
  | (outer, arguments) :: levels =>
    if arguments = [] ∧ ∀ level ∈ levels, level.2 = [] then namer type ++ own
    else nestedName namer outer (angleBrackets arguments) levels ++ outer.nameAfter type ++ own

section NestedName

variable {namer : BinaryName → String} {type outer : BinaryName} {own : String}
  {levels : List (BinaryName × List String)}

theorem nestedName_of_forall_eq_nil (h : ∀ level ∈ levels, level.2 = []) :
    nestedName namer type own levels = namer type ++ own := by
  cases levels with
  | nil => rfl
  | cons level levels =>
    rw [nestedName, if_pos]
    exact List.forall_mem_cons.1 h

theorem nestedName_append (own more : String) (levels : List (BinaryName × List String)) :
    nestedName namer type (own ++ more) levels = nestedName namer type own levels ++ more := by
  cases levels with
  | nil => rw [nestedName, nestedName, String.append_assoc]
  | cons level levels =>
    rw [nestedName, nestedName]
    split
    · rw [String.append_assoc]
    · simp only [String.append_assoc]

/-- A level without arguments can be left out. -/
theorem nestedName_of_outer (htype : outer ∈ type.enclosingTypes)
    (hlevels : ∀ level ∈ levels, level.1 ∈ outer.enclosingTypes)
    (hsome : ¬ ∀ level ∈ levels, level.2 = []) :
    nestedName namer type own levels =
      nestedName namer outer "" levels ++ outer.nameAfter type ++ own := by
  cases levels with
  | nil => exact absurd (fun level hlevel => absurd hlevel List.not_mem_nil) hsome
  | cons level levels =>
    have hne : ¬ (level.2 = [] ∧ ∀ l ∈ levels, l.2 = []) := fun h =>
      hsome (List.forall_mem_cons.2 h)
    have hname := BinaryName.nameAfter_append (hlevels level List.mem_cons_self) htype
    rw [nestedName, nestedName, if_neg hne, if_neg hne, ← hname]
    simp only [String.append_assoc, String.append_empty]

end NestedName

namespace Template

open Pattern

/-- Outer arguments, given from the inside out, spell a nested name. -/
theorem IsRooted.render_addOuterArgumentLists {t u : Template} {raw : BinaryName} {tail : String}
    {rest : List BinaryName} (h : t.IsRooted raw tail rest)
    {levels : List (BinaryName × List Template)} (halign : ∀ level ∈ levels, ∀ a ∈ level.2, a.Aligned)
    (hchain : (raw :: levels.map (·.1)).Pairwise fun inner outer => outer ∈ inner.enclosingTypes)
    (hu : t.addOuterArgumentLists levels = .ok u) (namer : BinaryName → String) :
    u.render namer = nestedName namer raw (filled tail (rest.map namer))
      (levels.map fun level => (level.1, level.2.map (·.render namer))) := by
  induction levels generalizing t raw tail rest with
  | nil =>
    cases hu
    exact h.render_eq namer
  | cons level levels ih =>
    obtain ⟨outer, ts⟩ := level
    obtain ⟨v, hv, hrest⟩ := addOuterArgumentLists_cons_eq_ok_iff.1 hu
    obtain ⟨hlevel, hmore⟩ := List.forall_mem_cons.1 halign
    obtain ⟨hraw, houter⟩ := List.pairwise_cons.1 hchain
    have hmem : outer ∈ raw.enclosingTypes := hraw outer List.mem_cons_self
    obtain ⟨suffix, hsuffix, hcase⟩ := h.addOuterArguments_eq_ok_iff.1 hv
    rw [BinaryName.suffixAfter?_eq_nameAfter hmem] at hsuffix
    cases hsuffix
    rcases hcase with ⟨rfl, rfl⟩ | ⟨hts, hroot⟩
    · -- the level has no arguments: the template stays rooted where it was
      have hskip : (raw :: levels.map (·.1)).Pairwise fun inner outer =>
          outer ∈ inner.enclosingTypes :=
        List.pairwise_cons.2 ⟨fun o ho => hraw o (List.mem_cons_of_mem _ ho), houter.tail⟩
      rw [ih h hmore hskip hrest, List.map_cons, nestedName]
      split
      · rename_i hnil
        exact nestedName_of_forall_eq_nil hnil.2
      · rename_i hsome
        refine nestedName_of_outer hmem ?_ fun hnil => hsome ⟨rfl, hnil⟩
        intro l hl
        obtain ⟨m, hm, rfl⟩ := List.mem_map.1 hl
        exact (List.pairwise_cons.1 houter).1 m.1 (List.mem_map_of_mem hm)
    · rw [ih hroot hmore houter hrest, List.map_cons, nestedName,
        if_neg fun hnil => hts (List.map_eq_nil_iff.1 hnil.1),
        filled_outer hlevel h.count_tail hroot.count_tail, nestedName_append, nestedName_append]

end Template

namespace TypeDescriptor

/-! ## Descriptors -/

mutual

/-- A descriptor as source code spells it, with its types named by the given function;
none if it cannot stand in a signature. -/
def spelling? (namer : BinaryName → String) : TypeDescriptor → Option String
  | primitive name => some name
  | array component => do return (← spelling? namer component) ++ "[]"
  | declared name typeArguments enclosing => do
    let raw ← BinaryName.ofText? name
    let arguments ← spellings? namer typeArguments
    let levels ← spellingLists? namer enclosing
    return nestedName namer raw (angleBrackets arguments) (raw.enclosingTypes.zip levels)
  | typeVariable name => some name
  | wildcard none none => some "?"
  | wildcard (some bound) none => do return "? extends " ++ (← spelling? namer bound)
  | wildcard none (some bound) => do return "? super " ++ (← spelling? namer bound)
  | wildcard (some _) (some _) => none
  | void => none
  | broken _ => none
  | union _ => none
  | intersection _ => none

/-- The spellings of descriptors in order. -/
def spellings? (namer : BinaryName → String) : List TypeDescriptor → Option (List String)
  | [] => some []
  | d :: ds => do return (← spelling? namer d) :: (← spellings? namer ds)

/-- The spellings of lists of descriptors in order. -/
def spellingLists? (namer : BinaryName → String) :
    List (List TypeDescriptor) → Option (List (List String))
  | [] => some []
  | ds :: levels => do return (← spellings? namer ds) :: (← spellingLists? namer levels)

end

variable {element : String} {namer : BinaryName → String} {d : TypeDescriptor} {t : Template}

theorem aligned_of_hasTemplate (h : HasTemplate element d t) : t.Aligned := by
  cases d with
  | primitive name => exact Template.aligned_of_make (hasTemplate_primitive_iff.1 h)
  | array component =>
    obtain ⟨u, -, hu⟩ := hasTemplate_array_iff.1 h
    exact Template.aligned_of_make (u.array_eq ▸ hu)
  | declared name arguments enclosing =>
    obtain ⟨raw, ts, plain, tss, -, -, hplain, -, -, houter⟩ := hasTemplate_declared_iff.1 h
    obtain ⟨raw', tail, rest, hroot⟩ :=
      (Template.isRooted_of_declared hplain).exists_of_addOuterArgumentLists houter
    exact hroot.aligned
  | typeVariable name => exact Template.aligned_of_make (hasTemplate_typeVariable_iff.1 h)
  | wildcard extendsBound superBound =>
    rcases hasTemplate_wildcard_iff.1 h with ⟨-, -, hu⟩ | ⟨-, b, -, u, -, hu⟩ | ⟨-, b, -, u, -, hu⟩
    · exact Template.aligned_of_make hu
    · exact Template.aligned_of_make (u.wildcardExtends_eq ▸ hu)
    · exact Template.aligned_of_make (u.wildcardSuper_eq ▸ hu)
  | void => exact absurd h run_unsupported_ne
  | broken name => exact absurd h run_unsupported_ne
  | union alternatives => exact absurd h run_unsupported_ne
  | intersection bounds => exact absurd h run_unsupported_ne

theorem aligned_of_forall₂ {ds : List TypeDescriptor} {ts : List Template}
    (h : List.Forall₂ (HasTemplate element) ds ts) : ∀ t ∈ ts, t.Aligned :=
  Reporting.forall_mem_of_forall₂ h fun _ _ ht => aligned_of_hasTemplate ht

theorem aligned_of_forall₂_forall₂ {levels : List (List TypeDescriptor)}
    {tss : List (List Template)}
    (h : List.Forall₂ (List.Forall₂ (HasTemplate element)) levels tss) :
    ∀ ts ∈ tss, ∀ t ∈ ts, t.Aligned :=
  Reporting.forall_mem_of_forall₂ h fun _ _ hts => aligned_of_forall₂ hts

theorem spellings?_of_forall₂ {ds : List TypeDescriptor} {ts : List Template}
    (h : List.Forall₂ (HasTemplate element) ds ts)
    (ih : ∀ d ∈ ds, ∀ t, HasTemplate element d t → d.spelling? namer = some (t.render namer)) :
    spellings? namer ds = some (ts.map (·.render namer)) := by
  induction h with
  | nil => rfl
  | cons hd hds ih' =>
    obtain ⟨hhead, htail⟩ := List.forall_mem_cons.1 ih
    rw [spellings?, hhead _ hd, ih' htail]
    rfl

theorem spellingLists?_of_forall₂ {levels : List (List TypeDescriptor)}
    {tss : List (List Template)}
    (h : List.Forall₂ (List.Forall₂ (HasTemplate element)) levels tss)
    (ih : ∀ ds ∈ levels, ∀ d ∈ ds, ∀ t, HasTemplate element d t →
      d.spelling? namer = some (t.render namer)) :
    spellingLists? namer levels = some (tss.map fun ts => ts.map (·.render namer)) := by
  induction h with
  | nil => rfl
  | cons hds hlevels ih' =>
    obtain ⟨hhead, htail⟩ := List.forall_mem_cons.1 ih
    rw [spellingLists?, spellings?_of_forall₂ hds hhead, ih' htail]
    rfl

/-- A descriptor that is turned into a template without a report is spelled by its
template, whatever its types are named. -/
theorem spelling?_eq_some_render (element : String)
    (h : (d.template element).run = .ok ⟨t, []⟩) (namer : BinaryName → String) :
    d.spelling? namer = some (t.render namer) := by
  induction d using TypeDescriptor.induction generalizing t with
  | primitive name =>
    rw [spelling?, Template.render_of_make_nil (hasTemplate_primitive_iff.1 h)]
  | array component ih =>
    obtain ⟨u, hu, hmade⟩ := hasTemplate_array_iff.1 h
    rw [spelling?, ih hu, Template.render_array (aligned_of_hasTemplate hu) hmade]
    rfl
  | declared name arguments enclosing ih ihl =>
    obtain ⟨raw, ts, plain, tss, hraw, hts, hplain, -, htss, houter⟩ :=
      hasTemplate_declared_iff.1 h
    have hname : BinaryName.ofText? name = some raw :=
      BinaryName.ofText?_eq_some_iff.2 (BinaryName.ofText_eq_ok_iff.1 hraw)
    have harguments : spellings? namer arguments = some (ts.map (·.render namer)) :=
      spellings?_of_forall₂ hts fun a ha _ hat => ih a ha hat
    have hlevels : spellingLists? namer enclosing =
        some (tss.map fun us => us.map (·.render namer)) :=
      spellingLists?_of_forall₂ htss fun level hlevel a ha _ hat => ihl level hlevel a ha hat
    have halign : ∀ level ∈ raw.enclosingTypes.zip tss, ∀ a ∈ level.2, a.Aligned :=
      fun level hlevel => aligned_of_forall₂_forall₂ htss level.2 (List.of_mem_zip hlevel).2
    have hroot := Template.isRooted_of_declared hplain
    have hrender := hroot.render_addOuterArgumentLists halign
      (raw.pairwise_zip_enclosingTypes tss) houter namer
    rw [Template.filled_angleBrackets (aligned_of_forall₂ hts) hroot.count_tail] at hrender
    rw [spelling?, hname, harguments, hlevels, hrender]
    show some (nestedName namer raw _ (raw.enclosingTypes.zip _)) = _
    rw [List.zip_map_right]
    rfl
  | typeVariable name =>
    rw [spelling?, Template.render_of_make_nil (hasTemplate_typeVariable_iff.1 h)]
  | wildcard extendsBound superBound ihe ihs =>
    rcases hasTemplate_wildcard_iff.1 h with ⟨rfl, rfl, hu⟩ | ⟨rfl, b, hb, u, hu, hmade⟩ |
      ⟨rfl, b, hb, u, hu, hmade⟩
    · rw [spelling?, Template.render_of_make_nil hu]
    · obtain rfl := Option.mem_def.1 hb
      rw [spelling?, ihe b rfl hu, Template.render_wildcardExtends (aligned_of_hasTemplate hu) hmade]
      rfl
    · obtain rfl := Option.mem_def.1 hb
      rw [spelling?, ihs b rfl hu, Template.render_wildcardSuper (aligned_of_hasTemplate hu) hmade]
      rfl
  | void => exact absurd h run_unsupported_ne
  | broken name => exact absurd h run_unsupported_ne
  | union alternatives => exact absurd h run_unsupported_ne
  | intersection bounds => exact absurd h run_unsupported_ne

/-- A type whose outermost enclosing type has an argument and whose other one has none. -/
theorem spelling?_eq_some_render_nested :
    ∃ t,
      ((declared "test.Outer$Inner$Deep" [array (plain "java.lang.String")]
        [[], [wildcard (some (plain "java.lang.Integer")) none]]).template "test.Box#deep").run =
          .ok ⟨t, []⟩ ∧
      (declared "test.Outer$Inner$Deep" [array (plain "java.lang.String")]
        [[], [wildcard (some (plain "java.lang.Integer")) none]]).spelling?
          BinaryName.qualifiedName = some (t.render BinaryName.qualifiedName) ∧
      t.display =
        "test.Outer<? extends java.lang.Integer>.Inner.Deep<java.lang.String[]>" :=
  ⟨_, rfl, spelling?_eq_some_render "test.Box#deep" rfl BinaryName.qualifiedName,
    by decide +kernel⟩

end TypeDescriptor

end ImmutableJava
