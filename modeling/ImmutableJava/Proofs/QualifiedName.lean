import ImmutableJava.Import.Trie
import ImmutableJava.TopLevelName

/-!
# Qualified names as segments

A qualified name and its list of segments determine each other, because no segment
contains a dot and none is empty: joining the segments with dots and cutting the
name at its dots are inverse (`cut_qualifiedName`).  The same holds between a
package name and its path in the import trie, for every text
(`intercalate_packagePath`).

A top-level type has no dollar sign, so its text is its qualified name, and that is
its package and its simple name joined by a dot.  Package and simple name determine
a top-level type (`eq_of_isTopLevel`); this is what lets at most one type of a
package bear a simple name.
-/

namespace ImmutableJava

namespace Pieces

/-- Texts that are joined first count as one piece. -/
theorem intercalate_append (sep : String) {l : List String} (h : l ≠ []) (m : List String) :
    sep.intercalate (l ++ m) = sep.intercalate (sep.intercalate l :: m) := by
  cases m with
  | nil => rw [List.append_nil, intercalate_singleton]
  | cons a m =>
    induction l with
    | nil => exact absurd rfl h
    | cons b l ih =>
      cases l with
      | nil => rfl
      | cons c l =>
        rw [List.cons_append, intercalate_cons _ _ (by simp), ih (by simp),
          intercalate_cons sep (sep.intercalate (c :: l)) (by simp),
          intercalate_cons sep (sep.intercalate (b :: c :: l)) (by simp),
          intercalate_cons sep b (by simp)]
        simp only [String.append_assoc]

/-- Two texts around a separator are cut apart. -/
theorem cutChars_append_cons (sep : Char) (cs ds : List Char) :
    cutChars sep (cs ++ sep :: ds) = cutChars sep cs ++ cutChars sep ds := by
  induction cs with
  | nil => simp [cutChars]
  | cons c cs ih =>
    rw [List.cons_append, cutChars, cutChars, ih]
    split
    · rfl
    · rcases h : cutChars sep cs with _ | ⟨piece, pieces⟩
      · exact absurd h (cutChars_ne_nil sep cs)
      · rfl

end Pieces

namespace ImportTrie

/-- The path of a package name joined by dots is the name. -/
@[simp] theorem intercalate_packagePath (packageName : String) :
    ".".intercalate (packagePath packageName) = packageName := by
  unfold packagePath
  split
  · rename_i h
    rw [h]
    rfl
  · exact Pieces.intercalate_cut '.' packageName

theorem packagePath_injective {p q : String} (h : packagePath p = packagePath q) : p = q := by
  rw [← intercalate_packagePath p, h, intercalate_packagePath]

/-- Names without dots are the path of the package that they spell. -/
theorem packagePath_intercalate {l : List String} (hne : ∀ s ∈ l, s ≠ "")
    (hdot : ∀ s ∈ l, ∀ c ∈ s.toList, c ≠ '.') : packagePath (".".intercalate l) = l := by
  cases l with
  | nil => rfl
  | cons a l =>
    have hcut : Pieces.cut '.' (".".intercalate (a :: l)) = a :: l :=
      Pieces.cut_intercalate (by simp) hdot
    rw [packagePath, if_neg, hcut]
    intro hempty
    rw [hempty] at hcut
    have ha : a = "" := by
      have h0 : Pieces.cut '.' "" = [""] := rfl
      rw [h0] at hcut
      exact (List.cons.inj hcut).1.symm
    exact hne a List.mem_cons_self ha

end ImportTrie

namespace BinaryName

/-! ## Segments -/

theorem exists_segment_of_mem_segments {n : BinaryName} {s : String} (h : s ∈ n.segments) :
    ∃ segment : Segment, segment.text = s := by
  induction n with
  | root segment => exact ⟨segment, (List.mem_singleton.1 h).symm⟩
  | dotted p segment ih =>
    rcases List.mem_append.1 h with h | h
    · exact ih h
    · exact ⟨segment, (List.mem_singleton.1 h).symm⟩
  | nested o segment ih =>
    rcases List.mem_append.1 h with h | h
    · exact ih h
    · exact ⟨segment, (List.mem_singleton.1 h).symm⟩

theorem ne_empty_of_mem_segments {n : BinaryName} {s : String} (h : s ∈ n.segments) : s ≠ "" := by
  obtain ⟨segment, rfl⟩ := exists_segment_of_mem_segments h
  exact segment.text_ne_empty

theorem ne_dot_of_mem_segments {n : BinaryName} {s : String} (h : s ∈ n.segments) :
    ∀ c ∈ s.toList, c ≠ '.' := by
  obtain ⟨segment, rfl⟩ := exists_segment_of_mem_segments h
  exact fun c hc => (segment.not_separator c hc).1

/-- Cutting a qualified name at its dots gives its segments. -/
theorem cut_qualifiedName (n : BinaryName) : Pieces.cut '.' n.qualifiedName = n.segments := by
  rw [qualifiedName_eq]
  exact Pieces.cut_intercalate n.segments_ne_nil fun _ hs => ne_dot_of_mem_segments hs

/-- The segments before the last one. -/
def containerSegments : BinaryName → List String
  | root _ => []
  | dotted p _ => p.segments
  | nested o _ => o.segments

theorem segments_eq_concat (n : BinaryName) :
    n.segments = n.containerSegments ++ [n.simpleName] := by
  cases n <;> rfl

theorem ne_dot_of_mem_simpleName (n : BinaryName) : ∀ c ∈ n.simpleName.toList, c ≠ '.' :=
  ne_dot_of_mem_segments (n := n) (by rw [segments_eq_concat]; simp)

@[simp] theorem dropLast_segments (n : BinaryName) :
    n.segments.dropLast = n.containerSegments := by
  rw [segments_eq_concat, List.dropLast_concat]

/-- What stands before the last segment of the qualified name, and the empty text if
nothing does. -/
def containerName (n : BinaryName) : String := ".".intercalate n.containerSegments

theorem packagePath_containerName (n : BinaryName) :
    ImportTrie.packagePath n.containerName = n.containerSegments := by
  have hsub : ∀ s ∈ n.containerSegments, s ∈ n.segments := fun s hs => by
    rw [segments_eq_concat]
    exact List.mem_append_left _ hs
  exact ImportTrie.packagePath_intercalate (fun s hs => ne_empty_of_mem_segments (hsub s hs))
    fun s hs => ne_dot_of_mem_segments (hsub s hs)

/-- A type stands in a package of the trie exactly when the package has the name
before its last segment. -/
theorem containerSegments_eq_packagePath_iff {n : BinaryName} {packageName : String} :
    n.containerSegments = ImportTrie.packagePath packageName ↔ n.containerName = packageName := by
  rw [← packagePath_containerName]
  exact ⟨ImportTrie.packagePath_injective, fun h => by rw [h]⟩

/-! ## Top-level types -/

theorem isTopLevel_topLevelType (n : BinaryName) : n.topLevelType.isTopLevel = true := by
  induction n with
  | root s => rfl
  | dotted p s ih =>
    unfold topLevelType
    split
    · rename_i h
      exact h
    · exact ih
  | nested o s ih => exact ih

theorem text_eq_qualifiedName {n : BinaryName} (h : n.isTopLevel = true) :
    n.text = n.qualifiedName := by
  induction n with
  | root s => rfl
  | dotted p s ih => rw [text, qualifiedName, ih h]
  | nested o s => exact absurd h Bool.false_ne_true

theorem packageName_eq_containerName {n : BinaryName} (h : n.isTopLevel = true) :
    n.packageName = n.containerName := by
  cases n with
  | root s => rfl
  | dotted p s =>
    have hp : p.isTopLevel = true := h
    rw [packageName, text_eq_qualifiedName hp, qualifiedName_eq]
    rfl
  | nested o s => exact absurd h Bool.false_ne_true

theorem text_ne_empty (n : BinaryName) : n.text ≠ "" := by
  intro h
  have hlength := congrArg (fun s => s.toList.length) h
  cases n with
  | root s => exact s.text_ne_empty h
  | dotted p s => simp [text] at hlength
  | nested o s => simp [text] at hlength

/-- The qualified name of a top-level type, from its package and its simple name. -/
theorem qualifiedName_topLevelName {n : BinaryName} (h : n.isTopLevel = true) :
    (TopLevelName.mk n.packageName n.simpleName).qualifiedName = n.qualifiedName := by
  cases n with
  | root s => rfl
  | dotted p s =>
    have hp : p.isTopLevel = true := h
    rw [qualifiedName, ← text_eq_qualifiedName hp]
    exact if_neg p.text_ne_empty
  | nested o s => exact absurd h Bool.false_ne_true

/-- A top-level type has the qualified name of a package and a simple name exactly when
it has both of them. -/
theorem qualifiedName_eq_iff {n : BinaryName} (hn : n.isTopLevel = true) {t : TopLevelName}
    (hdot : ∀ c ∈ t.simpleName.toList, c ≠ '.') :
    n.qualifiedName = t.qualifiedName ↔
      n.packageName = t.packageName ∧ n.simpleName = t.simpleName := by
  constructor
  · intro h
    have hcut : Pieces.cut '.' t.simpleName = [t.simpleName] := by
      simp [Pieces.cut, Pieces.cutChars_of_not_mem hdot]
    rw [packageName_eq_containerName hn, containerName]
    by_cases hpackage : t.packageName = ""
    · have hsegments : n.containerSegments ++ [n.simpleName] = [] ++ [t.simpleName] := by
        rw [← segments_eq_concat, ← cut_qualifiedName, h, TopLevelName.qualifiedName,
          if_pos hpackage, hcut, List.nil_append]
      obtain ⟨hcontainer, hsimple⟩ := List.append_inj' hsegments rfl
      exact ⟨by rw [hcontainer, hpackage, Pieces.intercalate_nil], (List.cons.inj hsimple).1⟩
    · have hsegments : n.containerSegments ++ [n.simpleName] =
          Pieces.cut '.' t.packageName ++ [t.simpleName] := by
        rw [← segments_eq_concat, ← cut_qualifiedName, h, TopLevelName.qualifiedName,
          if_neg hpackage, ← hcut]
        simp [Pieces.cut, Pieces.cutChars_append_cons]
      obtain ⟨hcontainer, hsimple⟩ := List.append_inj' hsegments rfl
      exact ⟨by rw [hcontainer]; exact Pieces.intercalate_cut '.' _, (List.cons.inj hsimple).1⟩
  · rintro ⟨hpackage, hsimple⟩
    rw [← qualifiedName_topLevelName hn, hpackage, hsimple]

/-- A qualified name identifies a top-level type. -/
theorem eq_of_qualifiedName_eq {m n : BinaryName} (hm : m.isTopLevel = true)
    (hn : n.isTopLevel = true) (h : m.qualifiedName = n.qualifiedName) : m = n :=
  text_injective (by rw [text_eq_qualifiedName hm, text_eq_qualifiedName hn, h])

/-- Package and simple name identify a top-level type. -/
theorem eq_of_isTopLevel {m n : BinaryName} (hm : m.isTopLevel = true)
    (hn : n.isTopLevel = true) (hpackage : m.packageName = n.packageName)
    (hsimple : m.simpleName = n.simpleName) : m = n := by
  refine eq_of_qualifiedName_eq hm hn ?_
  rw [← qualifiedName_topLevelName hm, ← qualifiedName_topLevelName hn, hpackage, hsimple]

end BinaryName

end ImmutableJava
