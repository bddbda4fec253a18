import ImmutableJava.BinaryName.Parse
import ImmutableJava.SortedSet

/-!
# The order of types

Types are listed by qualified name, as import declarations are; types that differ
only in which separators are dollar signs are listed by binary name.  Both
comparisons are by code point.  Two types that compare equal are equal, so a
sorted set of types can serve wherever a set of types is meant.
-/

namespace ImmutableJava

namespace BinaryName

/-- By qualified name, then by binary name. -/
instance : Ord BinaryName := ⟨compareLex (compareOn qualifiedName) (compareOn text)⟩

theorem compare_eq (m n : BinaryName) :
    compare m n = (compare m.qualifiedName n.qualifiedName).then (compare m.text n.text) := rfl

instance : Std.TransOrd BinaryName :=
  inferInstanceAs (Std.TransCmp (compareLex (compareOn qualifiedName) (compareOn text)))

instance : Std.LawfulEqOrd BinaryName where
  compare_self := by simp
  eq_of_compare {m n} h := by
    rw [compare_eq, Ordering.then_eq_eq] at h
    exact text_injective (Std.LawfulEqOrd.eq_of_compare h.2)

/-- Types with smaller qualified names come first. -/
theorem compare_eq_lt_of_qualifiedName {m n : BinaryName}
    (h : compare m.qualifiedName n.qualifiedName = .lt) : compare m n = .lt := by
  rw [compare_eq, h]
  rfl

end BinaryName

end ImmutableJava
