import ImmutableJava.BinaryName.Parse
import ImmutableJava.Proofs.EnclosingType

/-!
# Nesting read off the text

Whether one type encloses another can be asked of the two texts alone.  There are two ways
to do it, and both occur.

* **A search for dollar signs.**  What stands before the last dollar sign of a name is the
  type directly outside it, and the search goes on in that name until there is no dollar
  sign left (`OutwardSearch`).
* **A comparison.**  A type encloses another one if its text, followed by a dollar sign,
  starts the other text (`mem_enclosingTypes_iff`).  The dollar sign matters: it keeps a type
  apart from itself, and from a sibling whose name merely goes on.

`EnclosureAgrees` says that the two ways find the same types, and that the suffixes which
the second one cuts off fit together along the list which the first one makes.

The reason is that a segment has no dollar sign.  A text that ends in a dollar sign and
starts a name therefore ends at one of the separators of the name
(`prefix_append_iff_of_not_mem`), and the separators are what a name is built with.
-/

namespace ImmutableJava

/-- A list that ends in `c` starts `l ++ m` only within `l` if `m` has no `c`. -/
theorem prefix_append_iff_of_not_mem {α : Type} {c : α} {k l m : List α} (h : c ∉ m) :
    k ++ [c] <+: l ++ m ↔ k ++ [c] <+: l := by
  constructor
  · intro hstart
    rcases List.prefix_or_prefix_of_prefix hstart (List.prefix_append l m) with hshort | hlong
    · exact hshort
    · rcases List.prefix_concat_iff.1 hlong with heq | ⟨between, rfl⟩
      · exact heq ▸ List.prefix_refl _
      · -- then the `c` at the end would lie in `m`
        obtain ⟨rest, hrest⟩ := hstart
        rw [List.append_assoc, List.append_assoc] at hrest
        have hm := List.append_cancel_left hrest
        exact absurd (by simp [← hm]) h
  · exact fun hstart => hstart.trans (List.prefix_append l m)

namespace BinaryName

variable {outer n : BinaryName}

theorem dollar_not_mem_segment (s : Segment) : '$' ∉ s.text.toList := fun h =>
  (s.not_separator _ h).2 rfl

/-! ## The comparison -/

/-- The texts of the enclosing types are the starts of a name that a dollar sign follows. -/
theorem mem_map_text_enclosingTypes_iff (n : BinaryName) (start : String) :
    start ∈ n.enclosingTypes.map text ↔ start.toList ++ ['$'] <+: n.text.toList := by
  induction n with
  | root s =>
    have hnone := prefix_append_iff_of_not_mem (k := start.toList) (l := [])
      (dollar_not_mem_segment s)
    rw [List.nil_append] at hnone
    simp [enclosingTypes, text, hnone]
  | dotted p s ih =>
    have htail : '$' ∉ '.' :: s.text.toList := by simp [dollar_not_mem_segment]
    have htext : (dotted p s).text.toList = p.text.toList ++ '.' :: s.text.toList := by
      simp [text]
    rw [enclosingTypes, ih, htext, prefix_append_iff_of_not_mem htail]
  | nested o s ih =>
    have htext : (nested o s).text.toList = (o.text.toList ++ ['$']) ++ s.text.toList := by
      simp [text]
    rw [enclosingTypes, List.map_cons, List.mem_cons, ih, htext,
      prefix_append_iff_of_not_mem (dollar_not_mem_segment s), List.prefix_concat_iff,
      List.append_cancel_right_eq, String.toList_inj]

/-- A type encloses another one if its text and a dollar sign start the other text. -/
theorem mem_enclosingTypes_iff :
    outer ∈ n.enclosingTypes ↔ outer.text.toList ++ ['$'] <+: n.text.toList := by
  rw [← mem_map_text_enclosingTypes_iff]
  constructor
  · exact List.mem_map_of_mem
  · intro h
    obtain ⟨found, hfound, htext⟩ := List.mem_map.1 h
    exact text_injective htext ▸ hfound

theorem mem_enclosingTypes_trans {mid : BinaryName} (ho : outer ∈ mid.enclosingTypes)
    (hm : mid ∈ n.enclosingTypes) : outer ∈ n.enclosingTypes := by
  rw [mem_enclosingTypes_iff] at ho hm ⊢
  exact ho.trans ((List.prefix_append _ _).trans hm)

/-! ## The search -/

/-- The texts that are found by cutting a text before its last dollar sign, and then what is
left, until there is no dollar sign left. -/
inductive OutwardSearch : String → List String → Prop where
  | stop {start : String} (h : '$' ∉ start.toList) : OutwardSearch start []
  | step {start rest : String} {found : List String} (h : '$' ∉ rest.toList)
      (search : OutwardSearch start found) : OutwardSearch (start ++ "$" ++ rest) (start :: found)

/-- A text without dollar signs at the end changes nothing. -/
theorem OutwardSearch.append {start rest : String} {found : List String}
    (h : OutwardSearch start found) (hrest : '$' ∉ rest.toList) :
    OutwardSearch (start ++ rest) found := by
  cases h with
  | stop hstart => exact .stop (by simp [hstart, hrest])
  | step hbetween search =>
    rw [String.append_assoc]
    exact .step (by simp [hbetween, hrest]) search

/-- The last dollar sign of a text is in one place. -/
theorem eq_of_append_dollar {start start' rest rest' : String} (h : '$' ∉ rest.toList)
    (h' : '$' ∉ rest'.toList) (heq : start ++ "$" ++ rest = start' ++ "$" ++ rest') :
    start = start' := by
  have hlists : (start.toList ++ ['$']) ++ rest.toList =
      (start'.toList ++ ['$']) ++ rest'.toList := by
    simpa using congrArg String.toList heq
  have hle := (prefix_append_iff_of_not_mem h').1 ⟨rest.toList, hlists⟩
  have hge := (prefix_append_iff_of_not_mem h).1 ⟨rest'.toList, hlists.symm⟩
  have hends := hle.eq_of_length (Nat.le_antisymm hle.length_le hge.length_le)
  exact String.toList_inj.1 (List.append_cancel_right hends)

/-- A search has one outcome. -/
theorem OutwardSearch.unique {start : String} {found found' : List String}
    (h : OutwardSearch start found) (h' : OutwardSearch start found') : found = found' := by
  induction h generalizing found' with
  | stop hnone =>
    cases h' with
    | stop => rfl
    | step => exact absurd (by simp) hnone
  | @step start rest found hrest search ih =>
    generalize hwhole : start ++ "$" ++ rest = whole at h'
    cases h' with
    | stop hnone =>
      subst hwhole
      exact absurd (by simp) hnone
    | step hrest' search' =>
      obtain rfl := eq_of_append_dollar hrest hrest' hwhole
      rw [ih search']

/-- A search ends, and what it finds are the texts of the enclosing types. -/
theorem outwardSearch_iff (n : BinaryName) (found : List String) :
    OutwardSearch n.text found ↔ found = n.enclosingTypes.map text := by
  have hsearch : OutwardSearch n.text (n.enclosingTypes.map text) := by
    induction n with
    | root s => exact .stop (dollar_not_mem_segment s)
    | dotted p s ih =>
      rw [text, String.append_assoc]
      exact ih.append (by simp [dollar_not_mem_segment])
    | nested o s ih => exact .step (dollar_not_mem_segment s) ih
  constructor
  · exact fun h => h.unique hsearch
  · rintro rfl
    exact hsearch

/-! ## The suffix that is cut off -/

/-- A text with a dot for each dollar sign. -/
def dotsForDollars (text : String) : String :=
  String.ofList (text.toList.map fun c => if c = '$' then '.' else c)

theorem dotsForDollars_append (first second : String) :
    dotsForDollars (first ++ second) = dotsForDollars first ++ dotsForDollars second := by
  rw [dotsForDollars, String.toList_append, List.map_append, String.ofList_append]
  rfl

theorem dotsForDollars_of_not_mem {text : String} (h : '$' ∉ text.toList) :
    dotsForDollars text = text := by
  have hsame : ∀ c ∈ text.toList, (if c = '$' then '.' else c) = id c := by
    intro c hc
    rw [if_neg (ne_of_mem_of_not_mem hc h), id]
  rw [dotsForDollars, List.map_congr_left hsame, List.map_id, String.ofList_toList]

/-- The qualified name is the text with a dot for each dollar sign. -/
theorem dotsForDollars_text (n : BinaryName) : dotsForDollars n.text = n.qualifiedName := by
  have hsegment : ∀ s : Segment, dotsForDollars s.text = s.text := fun s =>
    dotsForDollars_of_not_mem (dollar_not_mem_segment s)
  induction n with
  | root s => exact hsegment s
  | dotted p s ih =>
    rw [text, dotsForDollars_append, dotsForDollars_append, ih, hsegment]
    rfl
  | nested o s ih =>
    rw [text, dotsForDollars_append, dotsForDollars_append, ih, hsegment]
    rfl

theorem qualifiedSuffix_of_mem (h : outer ∈ n.enclosingTypes) :
    n.qualifiedSuffix outer = .ok (outer.nameAfter n) := by
  rw [qualifiedSuffix, suffixAfter?_eq_nameAfter h]

theorem qualifiedSuffix_of_not_mem (h : outer ∉ n.enclosingTypes) :
    n.qualifiedSuffix outer = .error (.notAnOuterType outer n) := by
  rw [qualifiedSuffix, suffixAfter?_eq_none_iff.2 h]

theorem exists_qualifiedSuffix_iff :
    (∃ suffix, n.qualifiedSuffix outer = .ok suffix) ↔ outer ∈ n.enclosingTypes := by
  by_cases h : outer ∈ n.enclosingTypes
  · exact iff_of_true ⟨_, qualifiedSuffix_of_mem h⟩ h
  · rw [qualifiedSuffix_of_not_mem h]
    simp [h]

/-- The suffix is the rest of the text from the dollar sign on, with dots. -/
theorem qualifiedSuffix_of_text_eq {rest : String} (h : n.text = outer.text ++ "$" ++ rest) :
    n.qualifiedSuffix outer = .ok (dotsForDollars ("$" ++ rest)) := by
  have hmem : outer ∈ n.enclosingTypes := by
    rw [mem_enclosingTypes_iff, h]
    exact ⟨rest.toList, by simp⟩
  have hname : outer.qualifiedName ++ dotsForDollars ("$" ++ rest) = n.qualifiedName := by
    rw [← dotsForDollars_text, ← dotsForDollars_text, h, String.append_assoc,
      dotsForDollars_append outer.text]
  rw [qualifiedSuffix_of_mem hmem, nameAfter_eq hname]

/-! ## Both ways together -/

/-- The search and the comparison find the same enclosing types, and their names and suffixes
fit together. -/
structure EnclosureAgrees (n : BinaryName) : Prop where
  /-- The search ends, and it finds the enclosing types, from the inside out. -/
  search_iff : ∀ found, OutwardSearch n.text found ↔ found = n.enclosingTypes.map text
  head?_eq : n.enclosingTypes.head? = n.enclosingType?
  length_eq : n.enclosingTypes.length = n.text.toList.count '$'
  valid : ∀ outer ∈ n.enclosingTypes, ofText outer.text = .ok outer
  /-- Each type is a shorter start of those before it. -/
  pairwise_text : (n :: n.enclosingTypes).Pairwise fun inner outer =>
    outer.text.toList <+: inner.text.toList ∧ outer.text.toList.length < inner.text.toList.length
  getLast?_eq : n.enclosingTypes ≠ [] → n.enclosingTypes.getLast? = some n.topLevelType
  /-- The comparison finds the same types. -/
  mem_iff : ∀ outer, outer ∈ n.enclosingTypes ↔ outer.text.toList ++ ['$'] <+: n.text.toList
  /-- A type has a suffix after its enclosing types and after no other type. -/
  suffix_iff : ∀ outer, (∃ suffix, n.qualifiedSuffix outer = .ok suffix) ↔ outer ∈ n.enclosingTypes
  /-- What the comparison cuts off, with a dot for each dollar sign. -/
  suffix_of_text : ∀ outer rest, n.text = outer.text ++ "$" ++ rest →
    n.qualifiedSuffix outer = .ok (dotsForDollars ("$" ++ rest))
  name_append : ∀ outer suffix, n.qualifiedSuffix outer = .ok suffix →
    outer.qualifiedName ++ suffix = n.qualifiedName
  suffix_append : ∀ outer suffix, n.qualifiedSuffix outer = .ok suffix →
    ∀ outermost ∈ outer.enclosingTypes, ∃ before,
      outer.qualifiedSuffix outermost = .ok before ∧
      n.qualifiedSuffix outermost = .ok (before ++ suffix)

theorem head?_enclosingTypes (n : BinaryName) : n.enclosingTypes.head? = n.enclosingType? := by
  induction n with
  | root s => rfl
  | dotted p s ih => exact ih
  | nested o s => rfl

/-- There is an enclosing type for each dollar sign. -/
theorem length_enclosingTypes (n : BinaryName) :
    n.enclosingTypes.length = n.text.toList.count '$' := by
  have hsegment : ∀ s : Segment, s.text.toList.count '$' = 0 := fun s =>
    List.count_eq_zero.2 (dollar_not_mem_segment s)
  induction n with
  | root s => exact (hsegment s).symm
  | dotted p s ih => simp [enclosingTypes, text, ih, hsegment]
  | nested o s ih => simp [enclosingTypes, text, ih, hsegment]

theorem pairwise_text_enclosingTypes (n : BinaryName) :
    (n :: n.enclosingTypes).Pairwise fun inner outer =>
      outer.text.toList <+: inner.text.toList ∧
        outer.text.toList.length < inner.text.toList.length := by
  refine n.pairwise_enclosingTypes.imp fun {inner outer} h => ?_
  have hstart := mem_enclosingTypes_iff.1 h
  refine ⟨(List.prefix_append _ _).trans hstart, ?_⟩
  have hle := hstart.length_le
  rw [List.length_append, List.length_singleton] at hle
  omega

/-- Suffixes along a chain of enclosing types are put together from the outside in. -/
theorem exists_qualifiedSuffix_append {outermost : BinaryName} (hm : outer ∈ n.enclosingTypes)
    (ho : outermost ∈ outer.enclosingTypes) :
    ∃ before, outer.qualifiedSuffix outermost = .ok before ∧
      n.qualifiedSuffix outermost = .ok (before ++ outer.nameAfter n) := by
  refine ⟨_, qualifiedSuffix_of_mem ho, ?_⟩
  rw [qualifiedSuffix_of_mem (mem_enclosingTypes_trans ho hm), nameAfter_append ho hm]

/-- The two ways to find enclosing types agree for every name, whatever stands between its
dollar signs. -/
theorem enclosureAgrees (n : BinaryName) : n.EnclosureAgrees where
  search_iff := outwardSearch_iff n
  head?_eq := n.head?_enclosingTypes
  length_eq := n.length_enclosingTypes
  valid outer _ := ofText_text outer
  pairwise_text := n.pairwise_text_enclosingTypes
  getLast?_eq := getLast?_enclosingTypes
  mem_iff _ := mem_enclosingTypes_iff
  suffix_iff _ := exists_qualifiedSuffix_iff
  suffix_of_text _ _ := qualifiedSuffix_of_text_eq
  name_append outer suffix h := by
    have hmem := exists_qualifiedSuffix_iff.1 ⟨suffix, h⟩
    obtain rfl := Except.ok.inj ((qualifiedSuffix_of_mem hmem).symm.trans h)
    exact qualifiedName_append_nameAfter hmem
  suffix_append outer suffix h outermost ho := by
    have hmem := exists_qualifiedSuffix_iff.1 ⟨suffix, h⟩
    obtain rfl := Except.ok.inj ((qualifiedSuffix_of_mem hmem).symm.trans h)
    exact exists_qualifiedSuffix_append hmem ho

/-- A dollar sign in the package and two behind it; the sibling starts like an enclosing
type. -/
theorem enclosureAgrees_nested :
    ∃ package outer inner sibling n : BinaryName, package.text = "a" ∧ outer.text = "a$b.C" ∧
      inner.text = "a$b.C$D" ∧ sibling.text = "a$b.CX$D" ∧ n.text = "a$b.C$D$E" ∧
      OutwardSearch n.text ["a$b.C$D", "a$b.C", "a"] ∧
      n.enclosingTypes = [inner, outer, package] ∧ n.topLevelType = package ∧
      n.qualifiedSuffix inner = .ok ".E" ∧ inner.qualifiedSuffix outer = .ok ".D" ∧
      n.qualifiedSuffix outer = .ok ".D.E" ∧
      ¬ ∃ suffix, sibling.qualifiedSuffix outer = .ok suffix := by
  refine ⟨.root ⟨"a", by simp, by simp⟩,
    .dotted (.nested (.root ⟨"a", by simp, by simp⟩) ⟨"b", by simp, by simp⟩)
      ⟨"C", by simp, by simp⟩,
    .nested (.dotted (.nested (.root ⟨"a", by simp, by simp⟩) ⟨"b", by simp, by simp⟩)
      ⟨"C", by simp, by simp⟩) ⟨"D", by simp, by simp⟩,
    .nested (.dotted (.nested (.root ⟨"a", by simp, by simp⟩) ⟨"b", by simp, by simp⟩)
      ⟨"CX", by simp, by simp⟩) ⟨"D", by simp, by simp⟩,
    .nested (.nested (.dotted (.nested (.root ⟨"a", by simp, by simp⟩) ⟨"b", by simp, by simp⟩)
      ⟨"C", by simp, by simp⟩) ⟨"D", by simp, by simp⟩) ⟨"E", by simp, by simp⟩,
    by decide, by decide, by decide, by decide, by decide, ?_, rfl, rfl, ?_, ?_, ?_, ?_⟩
  · exact ((enclosureAgrees _).search_iff _).2 (by decide)
  · exact (enclosureAgrees _).suffix_of_text _ "E" (by decide)
  · exact (enclosureAgrees _).suffix_of_text _ "D" (by decide)
  · exact (enclosureAgrees _).suffix_of_text _ "D$E" (by decide)
  · rw [(enclosureAgrees _).suffix_iff]
    decide

end BinaryName

end ImmutableJava
