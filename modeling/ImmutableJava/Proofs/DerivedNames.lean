import ImmutableJava.Proofs.Diagnosis
import ImmutableJava.Proofs.EnclosingType
import ImmutableJava.Proofs.ShortestName

/-!
# When the names of a type fit together

The names of a type are read off its binary name in four ways.  The package ends at the
last dot, and the class name starts behind it.  The qualified name has a dot for every
dollar sign.  The top-level type ends at the first dollar sign, and an enclosing type ends
at each of them.

As long as no dollar sign stands before the last dot, these readings agree (`NamesAgree`):
package and class name make up the qualified name, and on the way outwards from a nested
type the package stays the same.  A dollar sign before the last dot belongs to the package
in the first reading and ends a type in the others.  No type with such a name has names
that agree (`namesAgree_iff`): the qualified name contains no dollar sign, so it is not
even made up of package and class name.
-/

namespace ImmutableJava

namespace BinaryName

variable {n : BinaryName}

/-- The names of a type describe one place in one package. -/
structure NamesAgree (n : BinaryName) : Prop where
  /-- The package and the class name, joined by a dot, are the qualified name. -/
  qualifiedName_eq : n.qualifiedName = (TopLevelName.mk n.packageName n.className).qualifiedName
  /-- A type is a top-level type if its class name has a single segment, and only then. -/
  isTopLevel_iff : n.isTopLevel = true ↔ (Pieces.cut '.' n.className).length = 1
  /-- The top-level type is in the same package. -/
  packageName_topLevelType : n.topLevelType.packageName = n.packageName
  /-- The enclosing types are in the same package. -/
  packageName_enclosingTypes : ∀ outer ∈ n.enclosingTypes, outer.packageName = n.packageName
  /-- The class name of the top-level type is the first segment of the class name. -/
  head?_className : (Pieces.cut '.' n.className).head? = some n.topLevelType.className

/-! ## Dots and dollar signs in the names -/

/-- Cutting the class name at its dots gives its segments. -/
theorem cut_className (n : BinaryName) : Pieces.cut '.' n.className = n.classSegments :=
  Pieces.cut_intercalate n.classSegments_ne_nil fun _ hs =>
    ne_dot_of_mem_segments (n.classSegments_subset_segments hs)

theorem dollar_not_mem_qualifiedName (n : BinaryName) : '$' ∉ n.qualifiedName.toList := by
  have hsegment : ∀ s : Segment, '$' ∉ s.text.toList := fun s h => (s.not_separator _ h).2 rfl
  induction n with
  | root s => exact hsegment s
  | dotted p s ih => simp [qualifiedName, ih, hsegment]
  | nested o s ih => simp [qualifiedName, ih, hsegment]

theorem className_nested (o : BinaryName) (s : Segment) :
    (nested o s).className = o.className ++ "." ++ s.text :=
  Pieces.intercalate_concat _ _ o.classSegments_ne_nil

theorem className_of_isTopLevel (h : n.isTopLevel = true) : n.className = n.simpleName := by
  cases n with
  | root s => rfl
  | dotted p s => rfl
  | nested o s => exact absurd h Bool.false_ne_true

/-! ## Names without a dollar sign in the package -/

theorem qualifiedName_eq_of_dollar_not_mem (h : '$' ∉ n.packageName.toList) :
    n.qualifiedName = (TopLevelName.mk n.packageName n.className).qualifiedName := by
  induction n with
  | root s => rfl
  | dotted p s =>
    rw [qualifiedName, ← text_eq_qualifiedName (isTopLevel_of_dollar_not_mem h)]
    exact (if_neg p.text_ne_empty).symm
  | nested o s ih =>
    rw [qualifiedName, ih h, className_nested, TopLevelName.qualifiedName,
      TopLevelName.qualifiedName]
    show _ = if o.packageName = "" then _ else o.packageName ++ "." ++ _
    split
    · rfl
    · simp only [String.append_assoc]

theorem isTopLevel_iff_of_dollar_not_mem (h : '$' ∉ n.packageName.toList) :
    n.isTopLevel = true ↔ n.classSegments.length = 1 := by
  cases n with
  | root s => exact iff_of_true rfl rfl
  | dotted p s =>
    have htop : p.isTopLevel = true := isTopLevel_of_dollar_not_mem h
    exact iff_of_true htop rfl
  | nested o s =>
    have hpos := List.length_pos_of_ne_nil o.classSegments_ne_nil
    refine iff_of_false Bool.false_ne_true ?_
    rw [classSegments, List.length_append, List.length_singleton]
    omega

theorem packageName_of_mem_enclosingTypes (h : '$' ∉ n.packageName.toList) {outer : BinaryName}
    (houter : outer ∈ n.enclosingTypes) : outer.packageName = n.packageName := by
  induction n with
  | root s => exact absurd houter List.not_mem_nil
  | dotted p s =>
    rw [enclosingTypes, enclosingTypes_eq_nil_iff.2 (isTopLevel_of_dollar_not_mem h)] at houter
    exact absurd houter List.not_mem_nil
  | nested o s ih =>
    rcases List.mem_cons.1 houter with rfl | houter
    · rfl
    · exact ih h houter

/-- The names of a type agree exactly when its package has no dollar sign. -/
theorem namesAgree_iff (n : BinaryName) : n.NamesAgree ↔ '$' ∉ n.packageName.toList := by
  constructor
  · intro h hdollar
    have hname := n.dollar_not_mem_qualifiedName
    have hne : n.packageName ≠ "" := by
      intro hempty
      rw [hempty] at hdollar
      exact absurd hdollar (by simp)
    rw [h.qualifiedName_eq, TopLevelName.qualifiedName, if_neg hne] at hname
    exact hname (by simp [hdollar])
  · intro h
    obtain ⟨rest, hpackage, hclass, -⟩ := exists_classSegments_eq h
    refine ⟨qualifiedName_eq_of_dollar_not_mem h, ?_, hpackage,
      fun outer => packageName_of_mem_enclosingTypes h, ?_⟩
    · rw [cut_className]
      exact isTopLevel_iff_of_dollar_not_mem h
    · rw [cut_className, hclass, className_of_isTopLevel n.isTopLevel_topLevelType]
      rfl

/-- A class `C` in a package `a$b`: it is taken for a type nested in a type `a`. -/
theorem not_namesAgree_dollar_in_package :
    ∃ n, ofText "a$b.C" = .ok n ∧ n.packageName = "a$b" ∧ n.className = "C" ∧
      n.qualifiedName = "a.b.C" ∧ n.isTopLevel = false ∧
      n.enclosingTypes.map text = ["a"] ∧ n.topLevelType.packageName = "" ∧
      n.topLevelType.className = "a" ∧ ¬ n.NamesAgree := by
  refine ⟨_, by rfl, by decide, by decide, by decide, by decide, by decide, by decide,
    by decide, ?_⟩
  exact fun h => absurd h.qualifiedName_eq (by decide)

end BinaryName

end ImmutableJava
