/-!
# Texts cut at a separator

Package names are cut at dots and file paths at slashes.  `Pieces.cut` keeps
every piece, empty ones included, so a text always has one piece more than it has
separators, and joining the pieces gives the text back (`intercalate_cut`).  Pieces
that do not contain the separator are found again after joining
(`cut_intercalate`).
-/

namespace ImmutableJava

namespace Pieces

/-- The runs of characters between the separators. -/
def cutChars (sep : Char) : List Char → List (List Char)
  | [] => [[]]
  | c :: cs =>
    if c = sep then [] :: cutChars sep cs
    else
      match cutChars sep cs with
      | [] => [[c]]
      | piece :: pieces => (c :: piece) :: pieces

/-- The texts between the separators. -/
def cut (sep : Char) (text : String) : List String :=
  (cutChars sep text.toList).map String.ofList

theorem cutChars_ne_nil (sep : Char) (cs : List Char) : cutChars sep cs ≠ [] := by
  cases cs with
  | nil => simp [cutChars]
  | cons c cs =>
    rw [cutChars]
    split
    · simp
    · split <;> simp

theorem cut_ne_nil (sep : Char) (text : String) : cut sep text ≠ [] := by
  simp [cut, cutChars_ne_nil]

/-! ## Joining -/

@[simp] theorem intercalate_nil (sep : String) : sep.intercalate [] = "" := rfl

@[simp] theorem intercalate_singleton (sep a : String) : sep.intercalate [a] = a := rfl

theorem flatten_intersperse_cons {α : Type} (sep a : List α) {l : List (List α)} (h : l ≠ []) :
    sep.intercalate (a :: l) = a ++ sep ++ sep.intercalate l := by
  obtain ⟨b, l, rfl⟩ := List.exists_cons_of_ne_nil h
  simp [List.intercalate]

/-- A joined list with one more text in front. -/
theorem intercalate_cons (sep a : String) {l : List String} (h : l ≠ []) :
    sep.intercalate (a :: l) = a ++ sep ++ sep.intercalate l := by
  apply String.toList_inj.1
  simp only [String.toList_intercalate, String.toList_append, List.map_cons]
  exact flatten_intersperse_cons _ _ (by simpa using h)

/-- A joined list with one more text at its end. -/
theorem intercalate_concat (sep a : String) {l : List String} (h : l ≠ []) :
    sep.intercalate (l ++ [a]) = sep.intercalate l ++ sep ++ a := by
  induction l with
  | nil => exact absurd rfl h
  | cons b l ih =>
    cases l with
    | nil => simp [intercalate_cons]
    | cons c l =>
      rw [List.cons_append, intercalate_cons _ _ (by simp), ih (by simp),
        intercalate_cons _ b (by simp)]
      simp only [String.append_assoc]

/-! ## Cutting and joining undo each other -/

theorem intercalate_cutChars (sep : Char) (cs : List Char) :
    [sep].intercalate (cutChars sep cs) = cs := by
  induction cs with
  | nil => simp [cutChars, List.intercalate]
  | cons c cs ih =>
    rw [cutChars]
    split
    · rename_i h
      rw [flatten_intersperse_cons _ _ (cutChars_ne_nil sep cs), ih, h]
      rfl
    · split
      · rename_i h
        exact absurd h (cutChars_ne_nil sep cs)
      · rename_i piece pieces h
        rw [h] at ih
        cases pieces with
        | nil => simpa [List.intercalate] using ih
        | cons q pieces =>
          rw [flatten_intersperse_cons _ _ (by simp)] at ih ⊢
          simpa using ih

/-- Joining the pieces gives the text back. -/
theorem intercalate_cut (sep : Char) (text : String) :
    (String.singleton sep).intercalate (cut sep text) = text := by
  apply String.toList_inj.1
  have h : (cut sep text).map String.toList = cutChars sep text.toList := by
    simp [cut, Function.comp_def]
  rw [String.toList_intercalate, h, String.toList_singleton]
  exact intercalate_cutChars sep text.toList

theorem cutChars_of_not_mem {sep : Char} {cs : List Char} (h : ∀ c ∈ cs, c ≠ sep) :
    cutChars sep cs = [cs] := by
  induction cs with
  | nil => rfl
  | cons c cs ih =>
    have hc : c ≠ sep := h c (by simp)
    rw [cutChars, if_neg hc, ih fun d hd => h d (by simp [hd])]

theorem cutChars_append {sep : Char} {cs : List Char} (h : ∀ c ∈ cs, c ≠ sep)
    (ds : List Char) : cutChars sep (cs ++ sep :: ds) = cs :: cutChars sep ds := by
  induction cs with
  | nil => simp [cutChars]
  | cons c cs ih =>
    have hc : c ≠ sep := h c (by simp)
    rw [List.cons_append, cutChars, if_neg hc, ih fun d hd => h d (by simp [hd])]

theorem cutChars_intercalate {sep : Char} {l : List (List Char)} (hl : l ≠ [])
    (h : ∀ cs ∈ l, ∀ c ∈ cs, c ≠ sep) : cutChars sep ([sep].intercalate l) = l := by
  induction l with
  | nil => exact absurd rfl hl
  | cons a l ih =>
    cases l with
    | nil => simpa [List.intercalate] using cutChars_of_not_mem (h a (by simp))
    | cons b l =>
      rw [flatten_intersperse_cons _ _ (by simp), List.append_assoc, List.singleton_append,
        cutChars_append (h a (by simp)), ih (by simp) fun cs hcs => h cs (by simp [hcs])]

/-- Pieces free of the separator are found again after joining. -/
theorem cut_intercalate {sep : Char} {l : List String} (hl : l ≠ [])
    (h : ∀ s ∈ l, ∀ c ∈ s.toList, c ≠ sep) :
    cut sep ((String.singleton sep).intercalate l) = l := by
  rw [cut, String.toList_intercalate, String.toList_singleton,
    cutChars_intercalate (by simpa using hl) (by simpa using h)]
  simp [Function.comp_def]

end Pieces

end ImmutableJava
