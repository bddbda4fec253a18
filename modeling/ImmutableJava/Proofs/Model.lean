import ImmutableJava.Declaration.Implementation
import ImmutableJava.Proofs.DescriptorTemplate

/-!
# What a declaration's model consists of

Everything that is reported about a declaration is an error (`onlyErrors_immutableType?`,
`onlyErrors_members`).  So a declaration has a model exactly when nothing is reported, and
then every step of making the model went without a report
(`implementation_eq_ok_some_iff`).

Steps without a report are easy to describe.  The interface is the type that the
declaration names, and the class is the type that the naming of implementations gives
(`run_immutableType?_eq_ok_nil`); the class header has the templates of the type
parameters (`run_immutableType_eq_ok_nil`), and a member has the template of its method's return
type (`run_member_eq_ok_nil`).
-/

namespace ImmutableJava

open Reporting

/-! ## Errors only -/

namespace TypeDescriptor

theorem onlyErrors_unsupported (element : String) (problem : TypeProblem) :
    OnlyErrors (unsupported element problem) :=
  (onlyErrors_report rfl).bind fun _ => onlyErrors_align _

theorem onlyErrors_withOuterArguments (element : String) (plain : Template)
    (levels : List (BinaryName × List Template)) :
    OnlyErrors (withOuterArguments element plain levels) := by
  unfold withOuterArguments
  split
  · exact onlyErrors_pure _
  · exact onlyErrors_stop _
  · exact onlyErrors_unsupported _ _

/-- All that is reported about a descriptor are errors. -/
theorem onlyErrors_template (element : String) (d : TypeDescriptor) :
    OnlyErrors (template element d) := by
  induction d using TypeDescriptor.induction with
  | primitive name => exact onlyErrors_align _
  | array component ih => exact ih.bind fun _ => onlyErrors_align _
  | declared name arguments enclosing ih ihl =>
    rw [template]
    split
    · exact onlyErrors_unsupported _ _
    · rw [templates_eq_mapM, templateLists_eq_mapM]
      refine (onlyErrors_mapM ih).bind fun ts => (onlyErrors_align _).bind fun plain => ?_
      split
      · exact onlyErrors_unsupported _ _
      · refine (onlyErrors_mapM fun level hlevel => ?_).bind fun tss =>
          onlyErrors_withOuterArguments _ _ _
        rw [templates_eq_mapM]
        exact onlyErrors_mapM (ihl level hlevel)
  | typeVariable name => exact onlyErrors_align _
  | wildcard extendsBound superBound ihe ihs =>
    rcases extendsBound with _ | b <;> rcases superBound with _ | c
    · exact onlyErrors_align _
    · exact (ihs c rfl).bind fun _ => onlyErrors_align _
    · exact (ihe b rfl).bind fun _ => onlyErrors_align _
    · exact onlyErrors_unsupported _ _
  | void => exact onlyErrors_unsupported _ _
  | broken name => exact onlyErrors_unsupported _ _
  | union alternatives => exact onlyErrors_unsupported _ _
  | intersection bounds => exact onlyErrors_unsupported _ _

end TypeDescriptor

theorem TypeParameter.onlyErrors_template (element : String) (p : TypeParameter) :
    OnlyErrors (p.template element) := by
  rw [template]
  split
  · rw [TypeDescriptor.templates_eq_mapM]
    exact (onlyErrors_mapM fun b _ => TypeDescriptor.onlyErrors_template element b).bind
      fun _ => onlyErrors_align _
  · exact (onlyErrors_pure _).bind fun _ => onlyErrors_align _

namespace Declaration

variable {d : Declaration}

theorem onlyErrors_report (d : Declaration) (problem : DeclarationProblem) :
    OnlyErrors (d.report problem) :=
  Reporting.onlyErrors_report rfl

theorem onlyErrors_rawInterface? (d : Declaration) : OnlyErrors d.rawInterface? := by
  unfold rawInterface?
  split
  · refine (onlyErrors_reportIf _ rfl).bind fun _ => ?_
    split
    · exact onlyErrors_pure _
    · exact (d.onlyErrors_report _).bind fun _ => onlyErrors_pure _
  · exact (d.onlyErrors_report _).bind fun _ => onlyErrors_pure _

theorem onlyErrors_rawImplementation? (d : Declaration) (rawInterface : BinaryName) :
    OnlyErrors (d.rawImplementation? rawInterface) := by
  unfold rawImplementation?
  refine (onlyErrors_reportIf _ rfl).bind fun _ => (onlyErrors_reportIf _ rfl).bind fun _ => ?_
  split
  · exact onlyErrors_pure _
  · exact (d.onlyErrors_report _).bind fun _ => onlyErrors_pure _

theorem onlyErrors_immutableType (d : Declaration) (rawInterface rawType : BinaryName) :
    OnlyErrors (d.immutableType rawInterface rawType) := by
  unfold immutableType
  refine (onlyErrors_mapM fun p _ => p.onlyErrors_template _).bind fun _ => ?_
  refine (onlyErrors_mapM fun p _ => onlyErrors_align _).bind fun _ => ?_
  exact (onlyErrors_align _).bind fun _ => (onlyErrors_align _).bind fun _ => onlyErrors_pure _

theorem onlyErrors_immutableType? (d : Declaration) : OnlyErrors d.immutableType? := by
  unfold immutableType?
  refine d.onlyErrors_rawInterface?.bind fun raw? => ?_
  cases raw? with
  | none => exact onlyErrors_pure _
  | some rawInterface =>
    refine (d.onlyErrors_rawImplementation? rawInterface).bind fun impl? => ?_
    cases impl? with
    | none => exact onlyErrors_pure _
    | some rawType =>
      exact (d.onlyErrors_immutableType rawInterface rawType).bind fun _ => onlyErrors_pure _

theorem onlyErrors_members (d : Declaration) : OnlyErrors d.members := by
  unfold members
  refine onlyErrors_mapM fun m _ => ?_
  unfold member
  refine (onlyErrors_reportIf _ rfl).bind fun _ => (onlyErrors_reportIf _ rfl).bind fun _ => ?_
  exact (TypeDescriptor.onlyErrors_template _ _).bind fun _ => onlyErrors_pure _

/-! ## The outcome -/

/-- The outcome of checking a declaration, from the outcomes of its two parts. -/
def outcome (type : Reported (Option ImmutableType)) (members : Reported (List Member)) :
    Reported (Option Implementation) where
  value := if (type.diagnostics ++ members.diagnostics).any (·.isError) then none
    else type.value.map fun t => ⟨t, members.value⟩
  diagnostics := type.diagnostics ++ members.diagnostics

theorem implementation_eq (d : Declaration) :
    d.implementation = do
      let type ← d.immutableType?.run
      let members ← d.members.run
      return outcome type members := by
  unfold implementation
  rcases d.immutableType?.run with fault | ⟨value, ds⟩
  · rfl
  rcases d.members.run with fault | ⟨members, es⟩
  · rfl
  have hdiagnostics : ((({} : DiagnosticBag).extend ds).extend es).diagnostics = ds ++ es := by
    rw [DiagnosticBag.diagnostics_extend, DiagnosticBag.diagnostics_extend, List.nil_append]
  have herrors : ((({} : DiagnosticBag).extend ds).extend es).hasErrors =
      (ds ++ es).any (·.isError) := by
    rw [← DiagnosticBag.hasErrors_finish _ (), DiagnosticBag.finish, Reported.hasErrors,
      hdiagnostics]
  cases value with
  | none =>
    show Except.ok (DiagnosticBag.finish _ none) = Except.ok (outcome ⟨none, ds⟩ ⟨members, es⟩)
    rw [DiagnosticBag.finish, hdiagnostics, outcome, Option.map_none, ite_self]
  | some type =>
    show Except.ok (DiagnosticBag.finish _ (if _ then none else some ⟨type, members⟩)) =
      Except.ok (outcome ⟨some type, ds⟩ ⟨members, es⟩)
    rw [DiagnosticBag.finish, hdiagnostics, herrors, outcome, Option.map_some]

theorem implementation_eq_ok_iff {r : Reported (Option Implementation)} :
    d.implementation = .ok r ↔
      ∃ type members, d.immutableType?.run = .ok type ∧ d.members.run = .ok members ∧
        r = outcome type members := by
  rw [implementation_eq, bind_eq_ok_iff]
  simp only [bind_eq_ok_iff]
  constructor
  · rintro ⟨type, htype, members, hmembers, hr⟩
    exact ⟨type, members, htype, hmembers, (Except.ok.inj hr).symm⟩
  · rintro ⟨type, members, htype, hmembers, rfl⟩
    exact ⟨type, htype, members, hmembers, rfl⟩

/-- All that is reported about a declaration are errors. -/
theorem isError_of_implementation_eq_ok {r : Reported (Option Implementation)}
    (h : d.implementation = .ok r) : ∀ x ∈ r.diagnostics, x.isError = true := by
  obtain ⟨type, members, htype, hmembers, rfl⟩ := implementation_eq_ok_iff.1 h
  intro x hx
  rcases List.mem_append.1 hx with hx | hx
  · exact d.onlyErrors_immutableType? type htype x hx
  · exact d.onlyErrors_members members hmembers x hx

/-- A declaration has a model exactly when nothing is reported about it. -/
theorem implementation_eq_ok_some_iff {i : Implementation} {ds : List Diagnostic} :
    d.implementation = .ok ⟨some i, ds⟩ ↔
      ds = [] ∧ d.immutableType?.run = .ok ⟨some i.type, []⟩ ∧
        d.members.run = .ok ⟨i.members, []⟩ := by
  constructor
  · intro h
    have herrors := isError_of_implementation_eq_ok h
    obtain ⟨⟨type?, ds'⟩, ⟨ms, es⟩, htype, hmembers, hr⟩ := implementation_eq_ok_iff.1 h
    obtain ⟨hvalue, rfl⟩ := Reported.mk.inj hr
    have hnil : ds' ++ es = [] := by
      rcases hds : ds' ++ es with _ | ⟨x, xs⟩
      · rfl
      · have hx : (ds' ++ es).any (·.isError) = true :=
          List.any_eq_true.2 ⟨x, by rw [hds]; exact List.mem_cons_self,
            herrors x (by rw [hds]; exact List.mem_cons_self)⟩
        rw [if_pos hx] at hvalue
        cases hvalue
    obtain ⟨rfl, rfl⟩ := List.append_eq_nil_iff.1 hnil
    obtain ⟨t, rfl, rfl⟩ := Option.map_eq_some_iff.1 hvalue.symm
    exact ⟨rfl, htype, hmembers⟩
  · rintro ⟨rfl, htype, hmembers⟩
    exact implementation_eq_ok_iff.2 ⟨_, _, htype, hmembers, rfl⟩

/-! ## The parts of a model -/

theorem run_report_ne {problem : DeclarationProblem} {u : Unit} :
    (d.report problem).run ≠ .ok ⟨u, []⟩ := by
  intro h
  cases h

theorem run_rawInterface?_eq_ok_nil {raw? : Option BinaryName}
    (h : d.rawInterface?.run = .ok ⟨raw?, []⟩) :
    ∃ raw, raw? = some raw ∧ BinaryName.ofText d.binaryName = .ok raw := by
  rw [rawInterface?] at h
  split at h
  · obtain ⟨-, -, hname⟩ := run_bind_eq_ok_nil_iff.1 h
    split at hname
    · rename_i raw hraw
      cases hname
      exact ⟨raw, rfl, hraw⟩
    · obtain ⟨u, hreport, -⟩ := run_bind_eq_ok_nil_iff.1 hname
      exact absurd hreport run_report_ne
  · obtain ⟨u, hreport, -⟩ := run_bind_eq_ok_nil_iff.1 h
    exact absurd hreport run_report_ne

theorem run_rawImplementation?_eq_ok_nil {rawInterface : BinaryName} {raw? : Option BinaryName}
    (h : (d.rawImplementation? rawInterface).run = .ok ⟨raw?, []⟩) :
    ∃ raw, raw? = some raw ∧ rawInterface.implementationName.toBinaryName = .ok raw := by
  rw [rawImplementation?] at h
  obtain ⟨-, -, hflat⟩ := run_bind_eq_ok_nil_iff.1 h
  obtain ⟨-, -, hname⟩ := run_bind_eq_ok_nil_iff.1 hflat
  split at hname
  · rename_i raw hraw
    cases hname
    exact ⟨raw, rfl, hraw⟩
  · obtain ⟨u, hreport, -⟩ := run_bind_eq_ok_nil_iff.1 hname
    exact absurd hreport run_report_ne

/-- Without a report there is a class, made for the interface that the declaration names
and the class that the naming of implementations gives. -/
theorem run_immutableType?_eq_ok_nil {type? : Option ImmutableType}
    (h : d.immutableType?.run = .ok ⟨type?, []⟩) :
    ∃ rawInterface rawType type, type? = some type ∧
      BinaryName.ofText d.binaryName = .ok rawInterface ∧
      rawInterface.implementationName.toBinaryName = .ok rawType ∧
      (d.immutableType rawInterface rawType).run = .ok ⟨type, []⟩ := by
  rw [immutableType?] at h
  obtain ⟨raw?, hraw, hrest⟩ := run_bind_eq_ok_nil_iff.1 h
  obtain ⟨rawInterface, rfl, hinterface⟩ := run_rawInterface?_eq_ok_nil hraw
  obtain ⟨impl?, himpl, hmade⟩ := run_bind_eq_ok_nil_iff.1 hrest
  obtain ⟨rawType, rfl, hclass⟩ := run_rawImplementation?_eq_ok_nil himpl
  obtain ⟨type, htype, hpure⟩ := run_bind_eq_ok_nil_iff.1 hmade
  cases hpure
  exact ⟨rawInterface, rawType, type, rfl, hinterface, hclass, htype⟩

/-- The class and the interface of a model, from the templates of the type parameters. -/
theorem run_immutableType_eq_ok_nil {rawInterface rawType : BinaryName} {type : ImmutableType}
    (h : (d.immutableType rawInterface rawType).run = .ok ⟨type, []⟩) :
    ∃ parameters names,
      List.Forall₂ (fun p t => (TypeParameter.template d.binaryName p).run = .ok ⟨t, []⟩)
        d.typeParameters parameters ∧
      List.Forall₂ (fun p t => Template.typeVariable p.name = .ok t) d.typeParameters names ∧
      Template.declared rawType parameters = .ok type.classType ∧
      Template.declared rawInterface names = .ok type.interfaceType ∧
      type.rawType = rawType ∧ type.typeVariables = d.typeParameters.map (·.name) := by
  rw [immutableType] at h
  obtain ⟨parameters, hparameters, h⟩ := run_bind_eq_ok_nil_iff.1 h
  obtain ⟨names, hnames, h⟩ := run_bind_eq_ok_nil_iff.1 h
  obtain ⟨classType, hclass, h⟩ := run_bind_eq_ok_nil_iff.1 h
  obtain ⟨interfaceType, hinterface, h⟩ := run_bind_eq_ok_nil_iff.1 h
  cases h
  refine ⟨parameters, names, run_mapM_eq_ok_nil_iff.1 hparameters, ?_,
    run_align_eq_ok_nil_iff.1 hclass, run_align_eq_ok_nil_iff.1 hinterface, rfl, rfl⟩
  simpa only [run_align_eq_ok_nil_iff] using run_mapM_eq_ok_nil_iff.1 hnames

theorem run_members_eq_ok_nil_iff {ms : List Member} :
    d.members.run = .ok ⟨ms, []⟩ ↔
      List.Forall₂ (fun m member => (d.member m).run = .ok ⟨member, []⟩)
        d.methodsToImplement ms := by
  rw [members, run_mapM_eq_ok_nil_iff]

theorem run_member_eq_ok_nil {m : Method} {member : Member}
    (h : (d.member m).run = .ok ⟨member, []⟩) :
    member.name = m.name ∧
      TypeDescriptor.HasTemplate (d.methodElement m) m.returnType member.type := by
  rw [Declaration.member] at h
  obtain ⟨-, -, hparameters⟩ := run_bind_eq_ok_nil_iff.1 h
  obtain ⟨-, -, htypes⟩ := run_bind_eq_ok_nil_iff.1 hparameters
  obtain ⟨t, ht, hpure⟩ := run_bind_eq_ok_nil_iff.1 htypes
  cases hpure
  exact ⟨rfl, ht⟩

end Declaration

end ImmutableJava
