import ImmutableJava.Path
import ImmutableJava.Proofs.QualifiedName
import Mathlib.Data.List.Basic
import Mathlib.Tactic.ByContra

/-!
# Paths put together

What joining does to a path is decided by its components, not by its text: the components
of a path that is put behind another one follow those of the other (`components_join`).
That holds of a path that is *plain*, made of names only.  A path from the root replaces what
stands before it, and then the joined path starts at the root as well (`isAbsolute_join`).

A text is a plain path unless it starts with a slash or one of its pieces is a dot or two
dots.  So texts without dots are plain if they do not start with a slash (`isPlain_of_ne_dot`),
and an ending without a slash may be added to them if it is longer than two characters
(`isPlain_append`).
-/

namespace ImmutableJava

namespace Pieces

/-- The pieces of a text that is made of two texts and a separator. -/
theorem cut_append_singleton (sep : Char) (first second : String) :
    cut sep (first ++ String.singleton sep ++ second) = cut sep first ++ cut sep second := by
  have hchars : (first ++ String.singleton sep ++ second).toList =
      first.toList ++ sep :: second.toList := by simp
  rw [cut, hchars, cutChars_append_cons, List.map_append]
  rfl

/-- A piece has characters of the text only, and no separator. -/
theorem mem_of_mem_cutChars {sep : Char} {cs piece : List Char} (h : piece ∈ cutChars sep cs) :
    ∀ c ∈ piece, c ∈ cs ∧ c ≠ sep := by
  induction cs generalizing piece with
  | nil =>
    rw [List.mem_singleton.1 h]
    simp
  | cons d cs ih =>
    intro c hc
    rw [cutChars] at h
    split at h
    · rcases List.mem_cons.1 h with rfl | h
      · exact absurd hc List.not_mem_nil
      · exact ⟨List.mem_cons_of_mem d (ih h c hc).1, (ih h c hc).2⟩
    · rename_i hd
      rcases hcut : cutChars sep cs with _ | ⟨first, rest⟩
      · exact absurd hcut (cutChars_ne_nil sep cs)
      · rw [hcut] at h ih
        rcases List.mem_cons.1 h with rfl | h
        · rcases List.mem_cons.1 hc with rfl | hc
          · exact ⟨List.mem_cons_self, hd⟩
          · have hmem := ih List.mem_cons_self c hc
            exact ⟨List.mem_cons_of_mem d hmem.1, hmem.2⟩
        · have hmem := ih (List.mem_cons_of_mem first h) c hc
          exact ⟨List.mem_cons_of_mem d hmem.1, hmem.2⟩

theorem mem_of_mem_cut {sep : Char} {text piece : String} (h : piece ∈ cut sep text) :
    ∀ c ∈ piece.toList, c ∈ text.toList ∧ c ≠ sep := by
  obtain ⟨cs, hcs, rfl⟩ := List.mem_map.1 h
  rw [String.toList_ofList]
  exact mem_of_mem_cutChars hcs

/-- A text without separators that is put behind another one goes to the last piece. -/
theorem cutChars_append_of_not_mem {sep : Char} {ds : List Char} (h : ∀ c ∈ ds, c ≠ sep)
    (cs : List Char) :
    ∃ first last, cutChars sep cs = first ++ [last] ∧
      cutChars sep (cs ++ ds) = first ++ [last ++ ds] := by
  induction cs with
  | nil => exact ⟨[], [], rfl, by rw [List.nil_append, cutChars_of_not_mem h]; rfl⟩
  | cons c cs ih =>
    obtain ⟨first, last, hcs, hds⟩ := ih
    rw [List.cons_append, cutChars, cutChars, hcs, hds]
    split
    · exact ⟨[] :: first, last, rfl, rfl⟩
    · cases first with
      | nil => exact ⟨[], c :: last, rfl, rfl⟩
      | cons piece first => exact ⟨(c :: piece) :: first, last, rfl, rfl⟩

theorem cut_append_of_not_mem {sep : Char} {ending : String} (h : ∀ c ∈ ending.toList, c ≠ sep)
    (text : String) :
    ∃ first last, cut sep text = first ++ [last] ∧
      cut sep (text ++ ending) = first ++ [last ++ ending] := by
  obtain ⟨first, last, htext, hending⟩ := cutChars_append_of_not_mem h text.toList
  refine ⟨first.map String.ofList, String.ofList last, ?_, ?_⟩
  · rw [cut, htext, List.map_append]
    rfl
  · rw [cut, String.toList_append, hending, List.map_append, List.map_singleton,
      String.ofList_append, String.ofList_toList]

end Pieces

namespace Path

variable {p q : Path} {text : String}

/-! ## The start of a path and its steps -/

/-- The component that only the start of a path can have. -/
def start (p : Path) : List Component :=
  if p.isAbsolute then [.root]
  else if (Pieces.cut '/' p.text).head? = some "." then [.current] else []

/-- The components that a text stands for behind a slash. -/
def steps (text : String) : List Component :=
  (Pieces.cut '/' text).filterMap componentOfPiece?

theorem components_eq (p : Path) : p.components = p.start ++ steps p.text := rfl

theorem steps_append_slash (first second : String) :
    steps (first ++ "/" ++ second) = steps first ++ steps second := by
  have hcut := Pieces.cut_append_singleton '/' first second
  rw [steps, show "/" = String.singleton '/' from rfl, hcut, List.filterMap_append]
  rfl

/-- A path has components if a piece of its text means something. -/
theorem components_ne_nil {piece : String} (h : piece ∈ Pieces.cut '/' text) (hempty : piece ≠ "")
    (hcurrent : piece ≠ ".") : (Path.mk text).components ≠ [] := by
  obtain ⟨c, hc⟩ : ∃ c, componentOfPiece? piece = some c := by
    by_cases hparent : piece = ".."
    · exact ⟨.parent, by simp [componentOfPiece?, hparent]⟩
    · exact ⟨.normal piece, by simp [componentOfPiece?, hempty, hcurrent, hparent]⟩
  have hmem : c ∈ (Path.mk text).components := by
    rw [components_eq]
    exact List.mem_append_right _ (List.mem_filterMap.2 ⟨piece, h, hc⟩)
  exact List.ne_nil_of_mem hmem

/-- What follows the first slash of a path does not matter for its start. -/
theorem start_append_slash (first second : String) :
    (Path.mk (first ++ "/" ++ second)).start = (Path.mk (first ++ "/")).start := by
  have hcut : (Pieces.cut '/' (first ++ "/" ++ second)).head? =
      (Pieces.cut '/' (first ++ "/")).head? := by
    have hsecond := Pieces.cut_append_singleton '/' first second
    have hempty := Pieces.cut_append_singleton '/' first ""
    rw [String.append_empty] at hempty
    rw [show "/" = String.singleton '/' from rfl, hsecond, hempty,
      List.head?_append_of_ne_nil _ (Pieces.cut_ne_nil '/' first),
      List.head?_append_of_ne_nil _ (Pieces.cut_ne_nil '/' first)]
  have habsolute : (Path.mk (first ++ "/" ++ second)).isAbsolute =
      (Path.mk (first ++ "/")).isAbsolute := by
    have hne : (first ++ "/").toList ≠ [] := by simp
    rw [isAbsolute, isAbsolute, @String.toList_append (first ++ "/"),
      List.head?_append_of_ne_nil _ hne]
  rw [start, start, hcut, habsolute]

/-- A slash at the end of a path means nothing, unless it is the whole path. -/
theorem components_append_slash (h : text ≠ "") :
    (Path.mk (text ++ "/")).components = (Path.mk text).components := by
  have hchars : text.toList ≠ [] := fun hnil => h (String.toList_inj.1 (by simpa using hnil))
  have hcut := Pieces.cut_append_singleton '/' text ""
  rw [String.append_empty] at hcut
  have hstart : (Path.mk (text ++ "/")).start = (Path.mk text).start := by
    rw [start, start, isAbsolute, isAbsolute, String.toList_append,
      List.head?_append_of_ne_nil _ hchars, show "/" = String.singleton '/' from rfl, hcut,
      List.head?_append_of_ne_nil _ (Pieces.cut_ne_nil '/' text)]
  have hsteps := steps_append_slash text ""
  rw [String.append_empty] at hsteps
  rw [components_eq, components_eq, hstart, hsteps, show steps "" = [] from rfl, List.append_nil]

/-! ## Plain paths -/

/-- A path that goes from one named entry to the next, and to nothing else. -/
def IsPlain (p : Path) : Prop := ∀ c ∈ p.components, ∃ name, c = .normal name

theorem IsPlain.start_eq_nil (h : p.IsPlain) : p.start = [] := by
  have hplain : ∀ c ∈ p.start, ∃ name, c = .normal name := by
    intro c hc
    exact h c (by rw [components_eq]; exact List.mem_append_left _ hc)
  unfold start at hplain ⊢
  split
  · rename_i habsolute
    rw [if_pos habsolute] at hplain
    obtain ⟨name, hname⟩ := hplain _ List.mem_cons_self
    cases hname
  · rename_i habsolute
    rw [if_neg habsolute] at hplain
    split
    · rename_i hcurrent
      rw [if_pos hcurrent] at hplain
      obtain ⟨name, hname⟩ := hplain _ List.mem_cons_self
      cases hname
    · rfl

theorem IsPlain.isAbsolute_eq_false (h : p.IsPlain) : p.isAbsolute = false := by
  by_contra habsolute
  have hstart := h.start_eq_nil
  rw [start, if_pos (by simpa using habsolute)] at hstart
  cases hstart

/-- The components of a plain path that is put behind another path follow the components
of the other path. -/
theorem components_join (p : Path) (h : q.IsPlain) :
    (p.join q.text).components = p.components ++ q.components := by
  have hrelative : ¬ q.text.toList.head? = some '/' := by
    have habsolute := h.isAbsolute_eq_false
    simpa [isAbsolute] using habsolute
  have hq : q.components = steps q.text := by
    rw [components_eq, h.start_eq_nil, List.nil_append]
  have hslash : ∀ text : String, (Path.mk (text ++ "/" ++ q.text)).components =
      (Path.mk (text ++ "/")).components ++ q.components := by
    intro text
    have hsteps := steps_append_slash text ""
    rw [String.append_empty] at hsteps
    rw [components_eq, start_append_slash, steps_append_slash, components_eq, hsteps, hq,
      show steps "" = [] from rfl, List.append_nil, List.append_assoc]
  rw [join, if_neg hrelative]
  by_cases hempty : p.text = ""
  · obtain ⟨text⟩ := p
    obtain rfl : text = "" := hempty
    rw [if_pos (by simp), String.empty_append]
    rfl
  · by_cases hlast : p.text.toList.getLast? = some '/'
    · -- the text of `p` ends in the slash that the joined path needs
      obtain ⟨cs, hcs⟩ := List.getLast?_eq_some_iff.1 hlast
      have htext : p.text = String.ofList cs ++ "/" :=
        String.toList_inj.1 (by rw [hcs]; simp)
      rw [if_pos (by simp [hlast]), htext, hslash, ← htext]
    · rw [if_neg (by simp [hempty, hlast]), hslash, components_append_slash hempty]

/-- Plain paths that are put one behind another. -/
theorem components_foldl_join (p : Path) {texts : List String}
    (h : ∀ text ∈ texts, (Path.mk text).IsPlain) :
    (texts.foldl join p).components =
      p.components ++ texts.flatMap fun text => (Path.mk text).components := by
  induction texts generalizing p with
  | nil => simp
  | cons text texts ih =>
    obtain ⟨hhead, htail⟩ := List.forall_mem_cons.1 h
    rw [List.foldl_cons, ih _ htail, components_join p hhead, List.flatMap_cons,
      List.append_assoc]

/-- The path leads from the directory down, through one named entry or more. -/
def IsBelow (p directory : Path) : Prop :=
  ∃ rest, rest ≠ [] ∧ p.components = directory.components ++ rest ∧
    ∀ c ∈ rest, ∃ name, c = .normal name

theorem isBelow_join (directory : Path) (h : q.IsPlain) (hne : q.components ≠ []) :
    (directory.join q.text).IsBelow directory :=
  ⟨q.components, hne, components_join directory h, h⟩

/-! ## Absolute paths -/

/-- A joined path starts at the root if one of its parts does. -/
theorem isAbsolute_join (p : Path) (text : String) :
    (p.join text).isAbsolute = (p.isAbsolute || (Path.mk text).isAbsolute) := by
  have happend : ∀ tail : String, p.text ≠ "" →
      (Path.mk (p.text ++ tail)).isAbsolute = p.isAbsolute := by
    intro tail hne
    have hchars : p.text.toList ≠ [] := fun hnil => hne (String.toList_inj.1 (by simpa using hnil))
    rw [isAbsolute, isAbsolute, String.toList_append, List.head?_append_of_ne_nil _ hchars]
  rw [join]
  split
  · rename_i htext
    have habsolute : (Path.mk text).isAbsolute = true := by simpa [isAbsolute] using htext
    rw [habsolute, Bool.or_true]
  · rename_i htext
    have hrelative : (Path.mk text).isAbsolute = false := by simpa [isAbsolute] using htext
    rw [hrelative, Bool.or_false]
    by_cases hempty : p.text = ""
    · obtain ⟨ptext⟩ := p
      obtain rfl : ptext = "" := hempty
      rw [if_pos (by simp), String.empty_append, hrelative]
      rfl
    · split
      · exact happend text hempty
      · rw [String.append_assoc]
        exact happend _ hempty

theorem isAbsolute_foldl_join (p : Path) (texts : List String) :
    (texts.foldl join p).isAbsolute =
      (p.isAbsolute || texts.any fun text => (Path.mk text).isAbsolute) := by
  induction texts generalizing p with
  | nil => simp
  | cons text texts ih => rw [List.foldl_cons, ih, isAbsolute_join, List.any_cons, Bool.or_assoc]

theorem components_of_isAbsolute (h : p.isAbsolute = true) :
    p.components = .root :: steps p.text := by
  rw [components_eq, start, if_pos h]
  rfl

/-- A path from the root replaces what it is put behind. -/
theorem join_of_isAbsolute (p : Path) (h : q.isAbsolute = true) : p.join q.text = q := by
  rw [join, if_pos (by simpa [isAbsolute] using h)]

/-- A path from the root is below no relative directory. -/
theorem not_isBelow_of_isAbsolute {name : String} {directory : Path} (h : p.isAbsolute = true)
    (hdirectory : directory.components = [.normal name]) : ¬ p.IsBelow directory := by
  rintro ⟨rest, -, hcomponents, -⟩
  rw [components_of_isAbsolute h, hdirectory] at hcomponents
  cases hcomponents

/-! ## Texts that are plain paths -/

theorem isPlain_of_pieces (hrelative : text.toList.head? ≠ some '/')
    (hpieces : ∀ piece ∈ Pieces.cut '/' text, piece ≠ "." ∧ piece ≠ "..") :
    (Path.mk text).IsPlain := by
  have hstart : (Path.mk text).start = [] := by
    have hcurrent : (Pieces.cut '/' text).head? ≠ some "." := fun hhead =>
      (hpieces "." (List.mem_of_mem_head? hhead)).1 rfl
    rw [start, if_neg (by simpa [isAbsolute] using hrelative), if_neg hcurrent]
  intro c hc
  rw [components_eq, hstart, List.nil_append] at hc
  obtain ⟨piece, hpiece, hstep⟩ := List.mem_filterMap.1 hc
  unfold componentOfPiece? at hstep
  split at hstep
  · cases hstep
  · rw [if_neg (hpieces piece hpiece).2] at hstep
    exact ⟨piece, (Option.some.inj hstep).symm⟩

theorem ne_dots_of_mem_cut (hdot : ∀ c ∈ text.toList, c ≠ '.') {piece : String}
    (h : piece ∈ Pieces.cut '/' text) : piece ≠ "." ∧ piece ≠ ".." := by
  have hmem := Pieces.mem_of_mem_cut h
  constructor
  · rintro rfl
    exact hdot '.' (hmem '.' (by simp)).1 rfl
  · rintro rfl
    exact hdot '.' (hmem '.' (by simp)).1 rfl

/-- A text without dots is a plain path if it does not start with a slash. -/
theorem isPlain_of_ne_dot (hrelative : text.toList.head? ≠ some '/')
    (hdot : ∀ c ∈ text.toList, c ≠ '.') : (Path.mk text).IsPlain :=
  isPlain_of_pieces hrelative fun _ hpiece => ne_dots_of_mem_cut hdot hpiece

/-- A text without dots and an ending of more than two characters make a plain path, if the
ending has no slash and the whole does not start with one. -/
theorem isPlain_append {ending : String} (hslash : ∀ c ∈ ending.toList, c ≠ '/')
    (hlength : 2 < ending.toList.length)
    (hrelative : (text ++ ending).toList.head? ≠ some '/') (hdot : ∀ c ∈ text.toList, c ≠ '.') :
    (Path.mk (text ++ ending)).IsPlain := by
  obtain ⟨first, last, htext, hending⟩ := Pieces.cut_append_of_not_mem hslash text
  apply isPlain_of_pieces hrelative
  intro piece hpiece
  rw [hending] at hpiece
  rcases List.mem_append.1 hpiece with hfirst | hlast
  · exact ne_dots_of_mem_cut hdot (by rw [htext]; exact List.mem_append_left _ hfirst)
  · -- the ending makes the last piece longer than two dots
    have hlong : 2 < piece.toList.length := by
      rw [List.mem_singleton.1 hlast, String.toList_append, List.length_append]
      omega
    constructor
    · rintro rfl
      simp at hlong
    · rintro rfl
      simp at hlong

/-- A text without slashes is one component, unless it means nothing or goes up. -/
theorem components_of_ne_slash (hslash : ∀ c ∈ text.toList, c ≠ '/')
    (hne : text ≠ "" ∧ text ≠ "." ∧ text ≠ "..") :
    (Path.mk text).components = [.normal text] := by
  obtain ⟨hempty, hcurrent, hparent⟩ := hne
  have hcut : Pieces.cut '/' text = [text] := by
    rw [Pieces.cut, Pieces.cutChars_of_not_mem hslash]
    simp
  have hrelative : text.toList.head? ≠ some '/' := fun hhead =>
    hslash '/' (List.mem_of_mem_head? hhead) rfl
  rw [components_eq, start, if_neg (by simpa [isAbsolute] using hrelative), hcut,
    if_neg (by simpa using hcurrent), steps, hcut]
  simp [componentOfPiece?, hempty, hcurrent, hparent]

end Path

end ImmutableJava
