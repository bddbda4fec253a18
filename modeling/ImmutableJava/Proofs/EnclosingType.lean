import ImmutableJava.TypeError

/-!
# Enclosing types and the names between them

The enclosing types of a type are listed from the inside out, and each encloses those
before it (`pairwise_enclosingTypes`); the last one is the top-level type
(`getLast?_enclosingTypes`).

A type has a suffix after another one exactly when the other one encloses it, and then the
suffix completes the qualified name (`suffixAfter?_eq_some_iff`).  `nameAfter` reads the
suffix off the two names alone, and suffixes along a chain of enclosing types compose
(`nameAfter_append`).
-/

namespace ImmutableJava

namespace BinaryName

variable {outer mid n : BinaryName}

/-! ## Chains of enclosing types -/

/-- Each of a type and its enclosing types is enclosed by all that follow. -/
theorem pairwise_enclosingTypes (n : BinaryName) :
    (n :: n.enclosingTypes).Pairwise fun inner outer => outer ∈ inner.enclosingTypes := by
  refine List.pairwise_cons.2 ⟨fun outer ho => ho, ?_⟩
  induction n with
  | root s => exact .nil
  | dotted p s ih => exact ih
  | nested o s ih => exact List.pairwise_cons.2 ⟨fun outer ho => ho, ih⟩

/-- Levels that are paired with the enclosing types from the inside out form a chain. -/
theorem pairwise_zip_enclosingTypes {α : Type} (n : BinaryName) (levels : List α) :
    (n :: (n.enclosingTypes.zip levels).map (·.1)).Pairwise fun inner outer =>
      outer ∈ inner.enclosingTypes := by
  have hsub : ∀ (l : List BinaryName) (m : List α), List.Sublist ((l.zip m).map (·.1)) l := by
    intro l
    induction l with
    | nil => exact fun m => List.nil_sublist _
    | cons a l ih =>
      intro m
      cases m with
      | nil => exact List.nil_sublist _
      | cons b m => exact (ih m).cons_cons a
  exact n.pairwise_enclosingTypes.sublist ((hsub _ _).cons_cons n)

theorem isTopLevel_of_dollar_not_mem (h : '$' ∉ n.text.toList) : n.isTopLevel = true := by
  induction n with
  | root s => rfl
  | dotted p s ih => exact ih fun hmem => h (by simp [text, hmem])
  | nested o s => exact absurd (by simp [text]) h

theorem topLevelType_of_isTopLevel (h : n.isTopLevel = true) : n.topLevelType = n := by
  cases n with
  | root s => rfl
  | dotted p s => exact if_pos h
  | nested o s => exact absurd h Bool.false_ne_true

theorem enclosingTypes_eq_nil_iff : n.enclosingTypes = [] ↔ n.isTopLevel = true := by
  induction n with
  | root s => exact iff_of_true rfl rfl
  | dotted p s ih => exact ih
  | nested o s => exact iff_of_false (List.cons_ne_nil _ _) Bool.false_ne_true

/-- The outermost of the enclosing types is the top-level type. -/
theorem getLast?_enclosingTypes (h : n.enclosingTypes ≠ []) :
    n.enclosingTypes.getLast? = some n.topLevelType := by
  induction n with
  | root s => exact absurd rfl h
  | dotted p s ih =>
    have hp : p.isTopLevel ≠ true := mt enclosingTypes_eq_nil_iff.2 h
    rw [enclosingTypes, ih h, topLevelType, if_neg hp]
  | nested o s ih =>
    rw [enclosingTypes, topLevelType]
    by_cases ho : o.enclosingTypes = []
    · rw [ho, List.getLast?_singleton,
        topLevelType_of_isTopLevel (enclosingTypes_eq_nil_iff.1 ho)]
    · obtain ⟨first, others, hcons⟩ := List.exists_cons_of_ne_nil ho
      rw [← ih ho, hcons, List.getLast?_cons_cons]

theorem qualifiedName_append_of_suffixAfter? {suffix : String}
    (h : suffixAfter? outer n = some suffix) :
    outer.qualifiedName ++ suffix = n.qualifiedName := by
  induction n generalizing suffix with
  | root s => cases h
  | dotted p s ih =>
    obtain ⟨before, hbefore, rfl⟩ := Option.map_eq_some_iff.1 h
    rw [qualifiedName, ← ih hbefore]
    simp only [String.append_assoc]
  | nested o s ih =>
    rw [suffixAfter?] at h
    split at h
    · rename_i ho
      cases h
      rw [ho, qualifiedName, String.append_assoc]
    · obtain ⟨before, hbefore, rfl⟩ := Option.map_eq_some_iff.1 h
      rw [qualifiedName, ← ih hbefore]
      simp only [String.append_assoc]

theorem isSome_suffixAfter?_iff :
    (suffixAfter? outer n).isSome = true ↔ outer ∈ n.enclosingTypes := by
  induction n with
  | root s => simp [suffixAfter?, enclosingTypes]
  | dotted p s ih => rw [suffixAfter?, Option.isSome_map, ih, enclosingTypes]
  | nested o s ih =>
    rw [suffixAfter?, enclosingTypes, List.mem_cons]
    split
    · rename_i ho
      simp [ho]
    · rename_i ho
      rw [Option.isSome_map, ih]
      exact ⟨.inr, fun h => h.resolve_left fun heq => ho heq.symm⟩

theorem suffixAfter?_eq_none_iff : suffixAfter? outer n = none ↔ outer ∉ n.enclosingTypes := by
  rw [← Option.not_isSome_iff_eq_none, isSome_suffixAfter?_iff]

/-- A type has a suffix after each type that encloses it and no other, and the suffix
completes the qualified name. -/
theorem suffixAfter?_eq_some_iff {suffix : String} :
    suffixAfter? outer n = some suffix ↔
      outer ∈ n.enclosingTypes ∧ outer.qualifiedName ++ suffix = n.qualifiedName := by
  constructor
  · intro h
    exact ⟨isSome_suffixAfter?_iff.1 (by rw [h]; rfl), qualifiedName_append_of_suffixAfter? h⟩
  · rintro ⟨hmem, hname⟩
    obtain ⟨found, hfound⟩ := Option.isSome_iff_exists.1 (isSome_suffixAfter?_iff.2 hmem)
    have hsame := (qualifiedName_append_of_suffixAfter? hfound).trans hname.symm
    rw [hfound, (String.append_right_inj outer.qualifiedName).1 hsame]

/-- What a qualified name has after the qualified name of an outer type. -/
def nameAfter (outer n : BinaryName) : String :=
  String.ofList (n.qualifiedName.toList.drop outer.qualifiedName.toList.length)

theorem nameAfter_eq {suffix : String} (h : outer.qualifiedName ++ suffix = n.qualifiedName) :
    outer.nameAfter n = suffix := by
  rw [nameAfter, ← h, String.toList_append, List.drop_left, String.ofList_toList]

theorem qualifiedName_append_nameAfter (h : outer ∈ n.enclosingTypes) :
    outer.qualifiedName ++ outer.nameAfter n = n.qualifiedName := by
  obtain ⟨suffix, hsuffix⟩ := Option.isSome_iff_exists.1 (isSome_suffixAfter?_iff.2 h)
  have hname := qualifiedName_append_of_suffixAfter? hsuffix
  rw [nameAfter_eq hname, hname]

theorem suffixAfter?_eq_nameAfter (h : outer ∈ n.enclosingTypes) :
    suffixAfter? outer n = some (outer.nameAfter n) :=
  suffixAfter?_eq_some_iff.2 ⟨h, qualifiedName_append_nameAfter h⟩

/-- The names between the types of a chain compose. -/
theorem nameAfter_append (ho : outer ∈ mid.enclosingTypes) (hm : mid ∈ n.enclosingTypes) :
    outer.nameAfter mid ++ mid.nameAfter n = outer.nameAfter n := by
  refine (nameAfter_eq ?_).symm
  rw [← String.append_assoc, qualifiedName_append_nameAfter ho, qualifiedName_append_nameAfter hm]

end BinaryName

end ImmutableJava
