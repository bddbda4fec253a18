import ImmutableJava.Proofs.DescriptorNode
import ImmutableJava.Proofs.Reporting
import ImmutableJava.TypeDescriptor.Template

/-!
# When a descriptor has a template

`HasTemplate` says that the walk over a descriptor arrived at a template and reported
nothing.  There is one lemma for each shape of a descriptor; the shapes that cannot stand
in a signature have no template.  For a declared type the lemma lists all that has to go
well: the name, the arguments, the enclosing lists, and the re-rooting at the enclosing
types.
-/

namespace ImmutableJava

namespace TypeDescriptor

/-! ## Lists of descriptors -/

theorem templates_cons (element : String) (d : TypeDescriptor) (ds : List TypeDescriptor) :
    templates element (d :: ds) =
      (do return (← template element d) :: (← templates element ds)) := rfl

theorem templateLists_cons (element : String) (ds : List TypeDescriptor)
    (levels : List (List TypeDescriptor)) :
    templateLists element (ds :: levels) =
      (do return (← templates element ds) :: (← templateLists element levels)) := rfl

theorem templates_eq_mapM (element : String) (ds : List TypeDescriptor) :
    templates element ds = ds.mapM (template element) := by
  induction ds with
  | nil => rfl
  | cons d ds ih => rw [templates_cons, ih, List.mapM_cons]

theorem templateLists_eq_mapM (element : String) (levels : List (List TypeDescriptor)) :
    templateLists element levels = levels.mapM (templates element) := by
  induction levels with
  | nil => rfl
  | cons level levels ih => rw [templateLists_cons, ih, List.mapM_cons]

/-! ## Templates without reports -/

/-- The descriptor has the template, and nothing is reported. -/
def HasTemplate (element : String) (d : TypeDescriptor) (t : Template) : Prop :=
  (d.template element).run = .ok ⟨t, []⟩

variable {element name : String} {t : Template}

/-- A shape that cannot stand in a signature is reported. -/
theorem run_unsupported (element : String) (problem : TypeProblem) :
    (unsupported element problem).run = .ok ⟨⟨"!", [], .error⟩, [problem.diagnostic element]⟩ := rfl

theorem run_unsupported_ne {problem : TypeProblem} :
    (unsupported element problem).run ≠ .ok ⟨t, []⟩ := by
  rw [run_unsupported]
  simp

theorem template_primitive (element name : String) :
    template element (.primitive name) = Reporting.align (Template.primitive name) := rfl

theorem template_typeVariable (element name : String) :
    template element (.typeVariable name) = Reporting.align (Template.typeVariable name) := rfl

theorem template_array (element : String) (component : TypeDescriptor) :
    template element (.array component) =
      (template element component >>= fun u => Reporting.align u.array) := rfl

theorem hasTemplate_primitive_iff :
    HasTemplate element (.primitive name) t ↔ Template.primitive name = .ok t := by
  rw [HasTemplate, template_primitive, Reporting.run_align_eq_ok_nil_iff]

theorem hasTemplate_typeVariable_iff :
    HasTemplate element (.typeVariable name) t ↔ Template.typeVariable name = .ok t := by
  rw [HasTemplate, template_typeVariable, Reporting.run_align_eq_ok_nil_iff]

theorem hasTemplate_array_iff {component : TypeDescriptor} :
    HasTemplate element (.array component) t ↔
      ∃ u, HasTemplate element component u ∧ u.array = .ok t := by
  simp only [HasTemplate, template_array, Reporting.run_bind_eq_ok_nil_iff,
    Reporting.run_align_eq_ok_nil_iff]

theorem hasTemplate_wildcard_iff {extendsBound superBound : Option TypeDescriptor} :
    HasTemplate element (.wildcard extendsBound superBound) t ↔
      (extendsBound = none ∧ superBound = none ∧ Template.wildcard = .ok t) ∨
      (superBound = none ∧ ∃ b ∈ extendsBound, ∃ u,
        HasTemplate element b u ∧ u.wildcardExtends = .ok t) ∨
      (extendsBound = none ∧ ∃ b ∈ superBound, ∃ u,
        HasTemplate element b u ∧ u.wildcardSuper = .ok t) := by
  rcases extendsBound with _ | b <;> rcases superBound with _ | c
  · simp [HasTemplate, template, Reporting.run_align_eq_ok_nil_iff]
  · simp [HasTemplate, template, Reporting.run_bind_eq_ok_nil_iff,
      Reporting.run_align_eq_ok_nil_iff]
  · simp [HasTemplate, template, Reporting.run_bind_eq_ok_nil_iff,
      Reporting.run_align_eq_ok_nil_iff]
  · simp [HasTemplate, template, run_unsupported_ne]

/-- Nothing is reported while outer arguments are given if and only if they can be. -/
theorem run_withOuterArguments_eq_ok_nil_iff {plain : Template}
    {levels : List (BinaryName × List Template)} :
    (withOuterArguments element plain levels).run = .ok ⟨t, []⟩ ↔
      plain.addOuterArgumentLists levels = .ok t := by
  unfold withOuterArguments
  rcases plain.addOuterArgumentLists levels with (fault | refusal) | u
  · simp
  · simp [run_unsupported_ne]
  · simp

theorem hasTemplate_declared_iff {arguments : List TypeDescriptor}
    {enclosing : List (List TypeDescriptor)} :
    HasTemplate element (.declared name arguments enclosing) t ↔
      ∃ raw ts plain tss, BinaryName.ofText name = .ok raw ∧
        List.Forall₂ (HasTemplate element) arguments ts ∧
        Template.declared raw ts = .ok plain ∧
        enclosing.length ≤ raw.enclosingTypes.length ∧
        List.Forall₂ (List.Forall₂ (HasTemplate element)) enclosing tss ∧
        plain.addOuterArgumentLists (raw.enclosingTypes.zip tss) = .ok t := by
  rw [HasTemplate, template]
  cases hraw : BinaryName.ofText name with
  | error refusal => simp [run_unsupported_ne]
  | ok raw =>
    have hlevels : ∀ tss, (templateLists element enclosing).run = .ok ⟨tss, []⟩ ↔
        List.Forall₂ (List.Forall₂ (HasTemplate element)) enclosing tss := by
      intro tss
      simp only [templateLists_eq_mapM, Reporting.run_mapM_eq_ok_nil_iff, templates_eq_mapM]
      rfl
    have harguments : ∀ ts, (templates element arguments).run = .ok ⟨ts, []⟩ ↔
        List.Forall₂ (HasTemplate element) arguments ts := by
      intro ts
      rw [templates_eq_mapM, Reporting.run_mapM_eq_ok_nil_iff]
      rfl
    simp only [Reporting.run_bind_eq_ok_nil_iff, harguments, Reporting.run_align_eq_ok_nil_iff]
    constructor
    · rintro ⟨ts, hts, plain, hplain, hrest⟩
      split at hrest
      · exact absurd hrest run_unsupported_ne
      · rename_i hlength
        obtain ⟨tss, htss, houter⟩ := Reporting.run_bind_eq_ok_nil_iff.1 hrest
        exact ⟨raw, ts, plain, tss, rfl, hts, hplain, Nat.le_of_not_lt hlength,
          (hlevels tss).1 htss, run_withOuterArguments_eq_ok_nil_iff.1 houter⟩
    · rintro ⟨_, ts, plain, tss, hname, hts, hplain, hlength, htss, houter⟩
      cases hname
      refine ⟨ts, hts, plain, hplain, ?_⟩
      rw [if_neg (Nat.not_lt.2 hlength), Reporting.run_bind_eq_ok_nil_iff]
      exact ⟨tss, (hlevels tss).2 htss, run_withOuterArguments_eq_ok_nil_iff.2 houter⟩

end TypeDescriptor

end ImmutableJava
