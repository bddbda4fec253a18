import ImmutableJava.Declaration.Implementation
import ImmutableJava.Proofs.EnclosingType
import ImmutableJava.Proofs.Pattern

/-!
# Names without placeholders

The separators of a name make no placeholder with the segments around them.  So the
placeholders of a name are those of its segments, and a name without any has none in its
qualified name, in its package, in the names of its enclosing types, or in the name of
the class that implements it.
-/

namespace ImmutableJava

open Pattern

namespace Pattern

theorem isDelimiter_dot : IsDelimiter "." := ⟨by decide, by decide, by decide, by decide⟩

theorem isDelimiter_dollar : IsDelimiter "$" := ⟨by decide, by decide, by decide, by decide⟩

theorem isDelimiter_underscore : IsDelimiter "_" := ⟨by decide, by decide, by decide, by decide⟩

theorem count_between_dot (first second : String) :
    count (first ++ "." ++ second) = count first + count second :=
  IsDelimiter.count_between isDelimiter_dot first second

theorem count_between_dollar (first second : String) :
    count (first ++ "$" ++ second) = count first + count second :=
  IsDelimiter.count_between isDelimiter_dollar first second

end Pattern

namespace BinaryName

variable {outer n : BinaryName}

theorem count_text (n : BinaryName) : count n.text = count n.qualifiedName := by
  induction n with
  | root s => rfl
  | dotted p s ih =>
    rw [text, qualifiedName, count_between_dot, count_between_dot, ih]
  | nested o s ih =>
    rw [text, qualifiedName, count_between_dollar, count_between_dot, ih]

theorem count_simpleName_le (n : BinaryName) : count n.simpleName ≤ count n.text := by
  cases n with
  | root s => exact Nat.le_refl _
  | dotted p s =>
    rw [text, count_between_dot]
    exact Nat.le_add_left _ _
  | nested o s =>
    rw [text, count_between_dollar]
    exact Nat.le_add_left _ _

theorem count_packageName_le (n : BinaryName) : count n.packageName ≤ count n.text := by
  induction n with
  | root s => exact Nat.zero_le _
  | dotted p s =>
    rw [text, count_between_dot]
    exact Nat.le_add_right _ _
  | nested o s ih =>
    rw [text, count_between_dollar]
    exact Nat.le_trans ih (Nat.le_add_right _ _)

theorem count_le_of_mem_classSegments {segment : String} (h : segment ∈ n.classSegments) :
    count segment ≤ count n.text := by
  induction n with
  | root s => exact Nat.le_of_eq (congrArg count (List.mem_singleton.1 h))
  | dotted p s =>
    rw [text, count_between_dot, List.mem_singleton.1 h]
    exact Nat.le_add_left _ _
  | nested o s ih =>
    rw [text, count_between_dollar]
    rcases List.mem_append.1 h with h | h
    · exact Nat.le_trans (ih h) (Nat.le_add_right _ _)
    · rw [List.mem_singleton.1 h]
      exact Nat.le_add_left _ _

/-- The name of an enclosing type and what follows it have no more placeholders than the
name that they make up. -/
theorem count_add_nameAfter_le (h : outer ∈ n.enclosingTypes) :
    count outer.qualifiedName + count (outer.nameAfter n) ≤ count n.qualifiedName := by
  rw [← qualifiedName_append_nameAfter h]
  exact le_count_append _ _

theorem count_flatName (h : count n.text = 0) : count n.flatName = 0 := by
  have hsegments : ∀ segment ∈ n.classSegments, count (id segment) = ([] : List Unit).length := by
    intro segment hsegment
    have hle := count_le_of_mem_classSegments hsegment
    exact Nat.eq_zero_of_le_zero (h ▸ hle)
  have hjoined := IsDelimiter.count_intercalate isDelimiter_underscore hsegments
  rw [List.map_id] at hjoined
  rw [flatName, hjoined, List.flatMap_eq_nil_iff.2 fun _ _ => rfl]
  rfl

/-- The name of the implementing class has no placeholder if the interface's name has
none. -/
theorem count_implementationName (h : count n.text = 0) :
    count n.implementationName.qualifiedName = 0 := by
  have himmutable : count "Immutable" = 0 := by decide
  have hsimple : count ("Immutable" ++ n.flatName) = 0 := by
    rw [count_append_of_getLast? (by decide), himmutable, count_flatName h]
  have hpackage := n.count_packageName_le
  unfold TopLevelName.qualifiedName
  split
  · exact hsimple
  · rw [count_between_dot]
    have hzero : count n.implementationName.packageName = 0 := by
      show count n.packageName = 0
      omega
    have hname : count n.implementationName.simpleName = 0 := hsimple
    omega

end BinaryName

end ImmutableJava
