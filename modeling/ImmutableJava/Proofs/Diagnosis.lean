import ImmutableJava.Proofs.Model
import ImmutableJava.Proofs.QualifiedName

/-!
# Diagnoses

What is wrong with a declaration can be read off it problem by problem
(`Declaration.diagnosis`): the problems of the type, and then those of each method that has
to be implemented.  Making a model reports exactly these, in this order, and a declaration
has a model exactly when there are none (`Declaration.diagnosed_of_implementation`).

A problem of the type ends the work on the type in two places only, where there is no
interface and where the interface has no name.  The third place where it could end is never
reached, because the implementing class always has a name
(`BinaryName.exists_toBinaryName_implementationName`).  The methods are looked at in any
case.
-/

namespace ImmutableJava

open Reporting

/-! ## Diagnoses of declarations -/

/-- An error about an element if a condition holds, and nothing otherwise. -/
def Diagnostic.errorIf (condition : Prop) [Decidable condition] (message element : String) :
    List Diagnostic :=
  if condition then [.error message (some element)] else []

/-- What is wrong with a type, for an element that mentions it. -/
def TypeDescriptor.diagnosis (element : String) (d : TypeDescriptor) : List Diagnostic :=
  (d.template element).diagnostics

/-- What is wrong with the bounds of a type parameter. -/
def TypeParameter.diagnosis (element : String) (p : TypeParameter) : List Diagnostic :=
  if p.hasBounds then p.bounds.flatMap (TypeDescriptor.diagnosis element) else []

/-- What is wrong with a method that has to be implemented. -/
def Method.diagnosis (element : String) (m : Method) : List Diagnostic :=
  Diagnostic.errorIf (m.parameters ≠ []) "method must not have parameters" element ++
    Diagnostic.errorIf (m.typeParameters ≠ []) "method must not have type parameters" element ++
    m.returnType.diagnosis element

namespace Declaration

/-- What is wrong with the visibility of an interface. -/
def privacyDiagnosis (d : Declaration) : List Diagnostic :=
  Diagnostic.errorIf (d.isPrivate = true) "interface must not be privately visible" d.binaryName

/-- What is wrong with the names that an interface of the given name leads to. -/
def nameDiagnosis (d : Declaration) (n : BinaryName) : List Diagnostic :=
  Diagnostic.errorIf (n.isTopLevel = false ∧ n.flattened.qualifiedName ∈ d.immutableTypes)
      ("flat interface type already exists as @Immutable type: " ++ n.flattened.qualifiedName)
      d.binaryName ++
    Diagnostic.errorIf (n.implementationName.qualifiedName ∈ d.existingTypes)
      ("implementation type already exists: " ++ n.implementationName.qualifiedName)
      d.binaryName

/-- What is wrong with the type that a declaration declares. -/
def typeDiagnosis (d : Declaration) : List Diagnostic :=
  if d.kind.isInterface then
    d.privacyDiagnosis ++
      match BinaryName.ofText? d.binaryName with
      | none => [.error ("invalid binary name: '" ++ d.binaryName ++ "'") (some d.binaryName)]
      | some n =>
        d.nameDiagnosis n ++ d.typeParameters.flatMap (TypeParameter.diagnosis d.binaryName)
  else [.error "type must be an interface" (some d.binaryName)]

/-- What is wrong with the methods that have to be implemented. -/
def memberDiagnosis (d : Declaration) : List Diagnostic :=
  (d.methods.filter fun m => m.isStatic = false ∧ m.isDefault = false ∧
    m.declaringType? ≠ some "java.lang.Object").flatMap fun m =>
      m.diagnosis (d.binaryName ++ "#" ++ m.name)

/-- What is wrong with a declaration. -/
def diagnosis (d : Declaration) : List Diagnostic := d.typeDiagnosis ++ d.memberDiagnosis

end Declaration

/-! ## The name of the implementing class -/

/-- The characters of a joined text are those of the separator and of the texts. -/
theorem Pieces.mem_intercalate {sep : String} {l : List String} {c : Char}
    (h : c ∈ (sep.intercalate l).toList) : c ∈ sep.toList ∨ ∃ s ∈ l, c ∈ s.toList := by
  induction l with
  | nil => exact absurd h List.not_mem_nil
  | cons a l ih =>
    rcases eq_or_ne l [] with rfl | hne
    · exact .inr ⟨a, List.mem_cons_self, h⟩
    · rw [intercalate_cons sep a hne, String.toList_append, String.toList_append] at h
      rcases List.mem_append.1 h with h | h
      · rcases List.mem_append.1 h with h | h
        · exact .inr ⟨a, List.mem_cons_self, h⟩
        · exact .inl h
      · rcases ih h with h | ⟨s, hs, h⟩
        · exact .inl h
        · exact .inr ⟨s, List.mem_cons_of_mem a hs, h⟩

namespace BinaryName

theorem classSegments_subset_segments (n : BinaryName) : n.classSegments ⊆ n.segments := by
  induction n with
  | root s => exact List.Subset.refl _
  | dotted p s => exact List.subset_append_right _ _
  | nested o s ih =>
    exact List.append_subset.2 ⟨List.subset_append_of_subset_left _ ih,
      List.subset_append_right _ _⟩

/-- Flattening leaves no separator. -/
theorem not_separator_of_mem_flatName (n : BinaryName) :
    ∀ c ∈ n.flatName.toList, c ≠ '.' ∧ c ≠ '$' := by
  intro c hc
  rcases Pieces.mem_intercalate hc with hunderscore | ⟨s, hs, hc⟩
  · rw [List.mem_singleton.1 hunderscore]
    decide
  · obtain ⟨segment, rfl⟩ := exists_segment_of_mem_segments (n.classSegments_subset_segments hs)
    exact segment.not_separator c hc

/-- The simple name of the implementing class. -/
def implementationSegment (n : BinaryName) : Segment where
  text := "Immutable" ++ n.flatName
  text_ne_empty h := by
    have hlength := congrArg (fun s => s.toList.length) h
    simp at hlength
  not_separator c hc := by
    rw [String.toList_append] at hc
    rcases List.mem_append.1 hc with hprefix | hflat
    · have hletters : ∀ c ∈ "Immutable".toList, c ≠ '.' ∧ c ≠ '$' := by simp
      exact hletters c hprefix
    · exact n.not_separator_of_mem_flatName c hflat

/-- A package is unnamed, or it has the text of a name. -/
theorem packageName_eq_or (n : BinaryName) :
    n.packageName = "" ∨ ∃ p : BinaryName, n.packageName = p.text := by
  induction n with
  | root s => exact .inl rfl
  | dotted p s => exact .inr ⟨p, rfl⟩
  | nested o s ih => exact ih

/-- The implementing class has a name, in the package of the interface and with the simple
name that the naming of implementations gives. -/
theorem exists_toBinaryName_implementationName (n : BinaryName) :
    ∃ raw, n.implementationName.toBinaryName = .ok raw ∧ raw.packageName = n.packageName ∧
      raw.simpleName = "Immutable" ++ n.flatName := by
  rcases n.packageName_eq_or with hunnamed | ⟨p, hp⟩
  · refine ⟨root n.implementationSegment, ofText_eq_ok_iff.2 ?_, hunnamed.symm, rfl⟩
    exact (if_pos hunnamed).symm
  · refine ⟨dotted p n.implementationSegment, ofText_eq_ok_iff.2 ?_, hp.symm, rfl⟩
    have hnamed : n.packageName ≠ "" := fun h => p.text_ne_empty (hp ▸ h)
    rw [TopLevelName.qualifiedName, implementationName, if_neg hnamed, hp]
    rfl

end BinaryName

/-! ## Reports of the steps -/

theorem TypeParameter.reports_template (element : String) (p : TypeParameter) :
    Reports (p.template element) (p.diagnosis element) fun _ => True := by
  rw [template, diagnosis]
  split
  · rw [TypeDescriptor.templates_eq_mapM]
    exact (reports_mapM fun b _ => reports_diagnostics _).bind_nil fun _ _ => reports_align _
  · exact Reports.bind (P := fun _ => True) (reports_pure trivial) fun _ _ => reports_align _

namespace Declaration

variable {d : Declaration} {n : BinaryName}

theorem reports_rawInterface?_of_not_isInterface (h : d.kind.isInterface = false) :
    Reports d.rawInterface? [.error "type must be an interface" (some d.binaryName)]
      (· = none) := by
  rw [rawInterface?, h]
  exact (reports_report _).bind fun _ _ => reports_pure rfl

theorem reports_rawInterface?_of_unnamed (h : d.kind.isInterface = true)
    (hname : BinaryName.ofText? d.binaryName = none) :
    Reports d.rawInterface? (d.privacyDiagnosis ++
        [.error ("invalid binary name: '" ++ d.binaryName ++ "'") (some d.binaryName)])
      (· = none) := by
  rw [rawInterface?, if_pos h, BinaryName.ofText, hname]
  refine (reports_reportIf Iff.rfl _).bind fun _ _ => ?_
  exact (reports_report _).bind fun _ _ => reports_pure rfl

theorem reports_rawInterface?_of_named (h : d.kind.isInterface = true)
    (hname : BinaryName.ofText? d.binaryName = some n) :
    Reports d.rawInterface? d.privacyDiagnosis (· = some n) := by
  rw [rawInterface?, if_pos h, BinaryName.ofText, hname]
  exact (reports_reportIf Iff.rfl _).bind_nil fun _ _ => reports_pure rfl

theorem reports_rawImplementation? (d : Declaration) (n : BinaryName) :
    Reports (d.rawImplementation? n) (d.nameDiagnosis n) (∃ raw, · = some raw) := by
  obtain ⟨raw, hraw, -⟩ := n.exists_toBinaryName_implementationName
  rw [rawImplementation?]
  refine (reports_reportIf (by simp) _).bind fun _ _ => ?_
  refine (reports_reportIf (by simp) _).bind_nil fun _ _ => ?_
  rw [hraw]
  exact reports_pure ⟨raw, rfl⟩

theorem reports_immutableType (d : Declaration) (n raw : BinaryName) :
    Reports (d.immutableType n raw)
      (d.typeParameters.flatMap (TypeParameter.diagnosis d.binaryName)) fun _ => True := by
  -- only the templates of the type parameters are made with reports
  have hnames : Reports (d.typeParameters.mapM fun p => align (Template.typeVariable p.name)) []
      fun _ => True :=
    (reports_mapM fun p _ => reports_align _).congr (by simp)
  rw [immutableType]
  refine (reports_mapM fun p _ => p.reports_template _).bind_nil fun _ _ => ?_
  refine hnames.bind_nil fun _ _ => (reports_align _).bind_nil fun _ _ => ?_
  exact (reports_align _).bind_nil fun _ _ => reports_pure trivial

theorem reports_immutableType? (d : Declaration) :
    Reports d.immutableType? d.typeDiagnosis fun _ => True := by
  rw [immutableType?, typeDiagnosis]
  cases hkind : d.kind.isInterface with
  | false =>
    refine (reports_rawInterface?_of_not_isInterface hkind).bind_nil fun raw? hraw => ?_
    rw [hraw]
    exact reports_pure trivial
  | true =>
    rw [if_pos rfl]
    cases hname : BinaryName.ofText? d.binaryName with
    | none =>
      refine (reports_rawInterface?_of_unnamed hkind hname).bind_nil fun raw? hraw => ?_
      rw [hraw]
      exact reports_pure trivial
    | some n =>
      refine (reports_rawInterface?_of_named hkind hname).bind fun raw? hraw => ?_
      rw [hraw]
      refine (d.reports_rawImplementation? n).bind fun impl? himpl => ?_
      obtain ⟨raw, rfl⟩ := himpl
      exact (d.reports_immutableType n raw).bind_nil fun _ _ => reports_pure trivial

theorem reports_member (d : Declaration) (m : Method) :
    Reports (d.member m) (m.diagnosis (d.methodElement m)) fun _ => True := by
  rw [member, Method.diagnosis, List.append_assoc]
  refine (reports_reportIf (by simp) _).bind fun _ _ => ?_
  refine (reports_reportIf (by simp) _).bind fun _ _ => ?_
  exact (reports_diagnostics _).bind_nil fun _ _ => reports_pure trivial

theorem reports_members (d : Declaration) :
    Reports d.members d.memberDiagnosis fun _ => True := by
  have hmethods : d.methodsToImplement = d.methods.filter fun m => m.isStatic = false ∧
      m.isDefault = false ∧ m.declaringType? ≠ some "java.lang.Object" := by
    refine List.filter_congr fun m _ => ?_
    have hobject : JavaLang.object.qualifiedName = "java.lang.Object" := by decide
    rw [Method.isToImplement, hobject, Bool.eq_iff_iff]
    simp [and_comm, and_left_comm]
  rw [members, memberDiagnosis, hmethods]
  exact reports_mapM fun m _ => d.reports_member m

theorem diagnostics_eq_diagnosis {r : Reported (Option Implementation)}
    (h : d.implementation = .ok r) : r.diagnostics = d.diagnosis := by
  obtain ⟨type, members, htype, hmembers, rfl⟩ := implementation_eq_ok_iff.1 h
  rw [outcome, diagnosis, (d.reports_immutableType? _ htype).1, (d.reports_members _ hmembers).1]

end Declaration

end ImmutableJava
