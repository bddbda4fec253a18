import ImmutableJava.TypeError

/-!
# Reading a binary name

A text is cut at every dot and dollar sign.  It is a binary name when no piece is
empty; the first piece becomes the root and every further piece is attached with
the separator that stood before it.

`ofText?_eq_some_iff` says that reading accepts a text exactly as the name whose
text it is: nothing is normalised, and no two names share a text
(`text_injective`).
-/

namespace ImmutableJava

namespace BinaryName

/-- What joins a segment to the segments before it. -/
inductive Separator where
  /-- A dot. -/
  | dot
  /-- A dollar sign. -/
  | dollar
  deriving DecidableEq

namespace Separator

/-- The character of a separator. -/
def char : Separator → Char
  | dot => '.'
  | dollar => '$'

/-- The separator that a character is, if it is one. -/
def ofChar? (c : Char) : Option Separator :=
  if c = '.' then some dot else if c = '$' then some dollar else none

@[simp] theorem ofChar?_char (sep : Separator) : ofChar? sep.char = some sep := by
  cases sep <;> rfl

theorem ofChar?_eq_none_iff {c : Char} : ofChar? c = none ↔ c ≠ '.' ∧ c ≠ '$' := by
  by_cases h : c = '.' <;> by_cases h' : c = '$' <;> simp [ofChar?, h, h']

theorem char_eq_of_ofChar? {c : Char} {sep : Separator} (h : ofChar? c = some sep) :
    sep.char = c := by
  simp only [ofChar?] at h
  split at h
  · cases h
    simp_all [char]
  · split at h
    · cases h
      simp_all [char]
    · cases h

end Separator

/-- A piece of a text, with the separator before it. -/
abbrev Piece := Separator × List Char

/-- The first piece of a text, and every further piece. -/
def cutSegments : List Char → List Char × List Piece
  | [] => ([], [])
  | c :: cs =>
    match Separator.ofChar? c with
    | some sep => ([], (sep, (cutSegments cs).1) :: (cutSegments cs).2)
    | none => (c :: (cutSegments cs).1, (cutSegments cs).2)

/-- Whether characters spell a segment: there are some, and none of them separates. -/
def isSegment (cs : List Char) : Bool :=
  !cs.isEmpty && cs.all fun c => (Separator.ofChar? c).isNone

theorem isSegment_iff {cs : List Char} :
    isSegment cs = true ↔ cs ≠ [] ∧ ∀ c ∈ cs, c ≠ '.' ∧ c ≠ '$' := by
  simp [isSegment, Separator.ofChar?_eq_none_iff]

theorem ofList_ne_empty {cs : List Char} (h : isSegment cs = true) : String.ofList cs ≠ "" :=
  fun he => (isSegment_iff.1 h).1 (by simpa using congrArg String.toList he)

theorem not_separator_of_mem_ofList {cs : List Char} (h : isSegment cs = true) :
    ∀ c ∈ (String.ofList cs).toList, c ≠ '.' ∧ c ≠ '$' := by
  simpa using (isSegment_iff.1 h).2

/-- A piece as a segment, if it spells one. -/
def segmentOfChars? (cs : List Char) : Option Segment :=
  if h : isSegment cs = true then
    some ⟨String.ofList cs, ofList_ne_empty h, not_separator_of_mem_ofList h⟩
  else none

/-- The name with one more segment at its end. -/
def extend (n : BinaryName) : Separator → Segment → BinaryName
  | .dot, s => dotted n s
  | .dollar, s => nested n s

/-- Attaches a piece to a name. -/
def attach? (n : BinaryName) (piece : Piece) : Option BinaryName :=
  (segmentOfChars? piece.2).map (n.extend piece.1)

/-- The name that a list of characters spells. -/
def ofChars? (cs : List Char) : Option BinaryName := do
  let first ← segmentOfChars? (cutSegments cs).1
  (cutSegments cs).2.foldlM attach? (root first)

/-- The name that a text spells. -/
def ofText? (text : String) : Option BinaryName := ofChars? text.toList

/-- The name that a text spells, or the refusal of the text. -/
def ofText (text : String) : Except TypeError BinaryName :=
  match ofText? text with
  | some n => .ok n
  | none => .error (.invalidBinaryName text)

/-! ## Cutting a text -/

theorem cutSegments_cons_separator (sep : Separator) (cs : List Char) :
    cutSegments (sep.char :: cs) = ([], (sep, (cutSegments cs).1) :: (cutSegments cs).2) := by
  cases sep <;> rfl

theorem cutSegments_cons_of_eq_none {c : Char} (h : Separator.ofChar? c = none) (cs : List Char) :
    cutSegments (c :: cs) = (c :: (cutSegments cs).1, (cutSegments cs).2) := by
  rw [cutSegments, h]

theorem flatten_cutSegments (cs : List Char) :
    (cutSegments cs).1 ++ (cutSegments cs).2.flatMap (fun p => p.1.char :: p.2) = cs := by
  induction cs with
  | nil => rfl
  | cons c cs ih =>
    cases h : Separator.ofChar? c with
    | none => rw [cutSegments_cons_of_eq_none h, List.cons_append, ih]
    | some sep =>
      obtain rfl := Separator.char_eq_of_ofChar? h
      rw [cutSegments_cons_separator, List.nil_append, List.flatMap_cons, List.cons_append, ih]

theorem cutSegments_append (cs : List Char) (sep : Separator) (ds : List Char) :
    cutSegments (cs ++ sep.char :: ds) =
      ((cutSegments cs).1,
        (cutSegments cs).2 ++ (sep, (cutSegments ds).1) :: (cutSegments ds).2) := by
  induction cs with
  | nil => exact cutSegments_cons_separator sep ds
  | cons c cs ih =>
    cases h : Separator.ofChar? c with
    | none =>
      rw [List.cons_append, cutSegments_cons_of_eq_none h, cutSegments_cons_of_eq_none h, ih]
    | some first =>
      obtain rfl := Separator.char_eq_of_ofChar? h
      rw [List.cons_append, cutSegments_cons_separator, cutSegments_cons_separator, ih,
        List.cons_append]

theorem cutSegments_segment (s : Segment) : cutSegments s.text.toList = (s.text.toList, []) := by
  have h := s.not_separator
  generalize s.text.toList = cs at h
  induction cs with
  | nil => rfl
  | cons c cs ih =>
    have hc : Separator.ofChar? c = none := Separator.ofChar?_eq_none_iff.2 (h c (by simp))
    rw [cutSegments_cons_of_eq_none hc, ih fun d hd => h d (by simp [hd])]

/-! ## Reading and writing undo each other -/

@[simp] theorem toList_text_extend (n : BinaryName) (sep : Separator) (s : Segment) :
    (n.extend sep s).text.toList = n.text.toList ++ sep.char :: s.text.toList := by
  cases sep <;> simp [extend, text, Separator.char]

theorem segmentOfChars?_eq_some_iff {cs : List Char} {s : Segment} :
    segmentOfChars? cs = some s ↔ s.text.toList = cs := by
  constructor
  · intro h
    simp only [segmentOfChars?] at h
    split at h
    · cases h
      simp
    · cases h
  · rintro rfl
    have h : isSegment s.text.toList = true :=
      isSegment_iff.2
        ⟨fun he => s.text_ne_empty (String.toList_inj.1 (by simpa using he)), s.not_separator⟩
    rw [segmentOfChars?, dif_pos h]
    simp

@[simp] theorem segmentOfChars?_toList (s : Segment) : segmentOfChars? s.text.toList = some s :=
  segmentOfChars?_eq_some_iff.2 rfl

/-- A text is read by reading its first piece and attaching every further piece. -/
theorem ofChars?_eq_some_iff {cs : List Char} {n : BinaryName} :
    ofChars? cs = some n ↔ ∃ first, segmentOfChars? (cutSegments cs).1 = some first ∧
      (cutSegments cs).2.foldlM attach? (root first) = some n := Option.bind_eq_some_iff

theorem ofChars?_extend (n : BinaryName) (sep : Separator) (s : Segment)
    (h : ofChars? n.text.toList = some n) :
    ofChars? (n.extend sep s).text.toList = some (n.extend sep s) := by
  obtain ⟨first, hfirst, hrest⟩ := ofChars?_eq_some_iff.1 h
  rw [toList_text_extend, ofChars?_eq_some_iff, cutSegments_append, cutSegments_segment]
  refine ⟨first, hfirst, ?_⟩
  simp only [List.foldlM_append, hrest]
  simp [attach?]

theorem ofChars?_text (n : BinaryName) : ofChars? n.text.toList = some n := by
  induction n with
  | root s =>
    have hcut : cutSegments (root s).text.toList = (s.text.toList, []) := cutSegments_segment s
    rw [ofChars?_eq_some_iff, hcut]
    exact ⟨s, segmentOfChars?_toList s, rfl⟩
  | dotted p s ih => exact ofChars?_extend p .dot s ih
  | nested o s ih => exact ofChars?_extend o .dollar s ih

theorem toList_text_of_foldlM {pieces : List Piece} {start n : BinaryName}
    (h : pieces.foldlM attach? start = some n) :
    n.text.toList = start.text.toList ++ pieces.flatMap (fun p => p.1.char :: p.2) := by
  induction pieces generalizing start with
  | nil =>
    cases h
    simp
  | cons piece pieces ih =>
    rw [List.foldlM_cons] at h
    obtain ⟨next, hnext, hrest⟩ := Option.bind_eq_some_iff.1 h
    obtain ⟨s, hs, rfl⟩ := Option.map_eq_some_iff.1 hnext
    rw [ih hrest, toList_text_extend, segmentOfChars?_eq_some_iff.1 hs]
    simp

theorem text_of_ofChars? {cs : List Char} {n : BinaryName} (h : ofChars? cs = some n) :
    n.text.toList = cs := by
  obtain ⟨first, hfirst, hrest⟩ := ofChars?_eq_some_iff.1 h
  have hroot : (root first).text.toList = (cutSegments cs).1 :=
    segmentOfChars?_eq_some_iff.1 hfirst
  rw [toList_text_of_foldlM hrest, hroot, flatten_cutSegments]

/-- A text is read as the name whose text it is, and as no other. -/
theorem ofText?_eq_some_iff {text : String} {n : BinaryName} :
    ofText? text = some n ↔ n.text = text := by
  constructor
  · exact fun h => String.toList_inj.1 (text_of_ofChars? h)
  · rintro rfl
    exact ofChars?_text n

@[simp] theorem ofText?_text (n : BinaryName) : ofText? n.text = some n :=
  ofText?_eq_some_iff.2 rfl

@[simp] theorem ofText_text (n : BinaryName) : ofText n.text = .ok n := by
  simp [ofText]

theorem ofText_eq_ok_iff {text : String} {n : BinaryName} :
    ofText text = .ok n ↔ n.text = text := by
  rw [← ofText?_eq_some_iff, ofText]
  cases ofText? text <;> simp

/-- Names with the same text are equal. -/
theorem text_injective {m n : BinaryName} (h : m.text = n.text) : m = n :=
  Option.some.inj (by rw [← ofText?_text m, ← ofText?_text n, h])

end BinaryName

end ImmutableJava
