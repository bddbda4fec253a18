import ImmutableJava.Proofs.Obscuring
import Mathlib.Data.List.MinMax

/-!
# The naive rule for names

How a type is spelled can be said without a trie: look through the available types, take
the one with the most segments that the type's own segments start with, and write the
qualified name from the last segment of that type on; if there is none, write all of it.
`NameRenderer.shortName` is this rule, as a search of a list and a cut of a text.

A renderer does neither.  It walks down the trie and remembers the position of the last
type that it passed, and the position `0` stands for a type of one segment and for no type
at all.  `render_eq_shortName` says that the outcome is the same for every type, available
or not.

## Positions and texts

A position counts segments, and the text behind it begins after as many dots
(`afterDots?`).  A name always has enough of them, because a walk answers with a segment
of the name and every segment but the first has a dot in front.  So the case that there
are too few dots does not arise.
-/

namespace ImmutableJava

/-! ## Texts behind dots -/

/-- What stands behind the given number of dots, if there are so many. -/
def afterDots? : Nat → List Char → Option (List Char)
  | 0, cs => some cs
  | _ + 1, [] => none
  | k + 1, c :: cs => if c = '.' then afterDots? k cs else afterDots? (k + 1) cs

theorem afterDots?_append {segment : List Char} (h : ∀ c ∈ segment, c ≠ '.') (k : Nat)
    (cs : List Char) : afterDots? (k + 1) (segment ++ '.' :: cs) = afterDots? k cs := by
  induction segment with
  | nil => exact if_pos rfl
  | cons c segment ih =>
    obtain ⟨hc, hrest⟩ := List.forall_mem_cons.1 h
    rw [List.cons_append, afterDots?, if_neg hc, ih hrest]

/-- Behind as many dots stand the segments but as many. -/
theorem afterDots?_intercalate {l : List String} (h : ∀ s ∈ l, ∀ c ∈ s.toList, c ≠ '.')
    {k : Nat} (hk : k < l.length) :
    afterDots? k (".".intercalate l).toList = some (".".intercalate (l.drop k)).toList := by
  induction k generalizing l with
  | zero => rw [List.drop_zero, afterDots?]
  | succ k ih =>
    match l, h, hk with
    | s :: u :: l, h, hk =>
      obtain ⟨hs, hrest⟩ := List.forall_mem_cons.1 h
      have hdot : (".".intercalate (s :: u :: l)).toList =
          s.toList ++ '.' :: (".".intercalate (u :: l)).toList := by
        rw [Pieces.intercalate_cons _ _ (List.cons_ne_nil u l)]
        simp
      rw [hdot, afterDots?_append hs, List.drop_succ_cons, ih hrest (Nat.lt_of_succ_lt_succ hk)]

namespace BinaryName

variable {a t : BinaryName}

/-! ## Texts from a segment on -/

/-- What stands before the last segment of a qualified name, its dot included. -/
def lead (n : BinaryName) : String :=
  if n.containerSegments = [] then "" else n.containerName ++ "."

theorem lead_append_intercalate (n : BinaryName) {l : List String} (h : l ≠ []) :
    n.lead ++ ".".intercalate l = ".".intercalate (n.containerSegments ++ l) := by
  unfold lead
  split
  · rename_i hroot
    rw [hroot, List.nil_append]
    exact String.empty_append
  · rename_i hcontainer
    rw [Pieces.intercalate_append _ hcontainer, Pieces.intercalate_cons _ _ h, containerName]

theorem lead_append_simpleName (n : BinaryName) : n.lead ++ n.simpleName = n.qualifiedName := by
  rw [qualifiedName_eq, segments_eq_concat, ← lead_append_intercalate _ (List.cons_ne_nil _ _),
    Pieces.intercalate_singleton]

/-- What a qualified name has from the last segment of another type on. -/
def nameFrom (a t : BinaryName) : String :=
  String.ofList (t.qualifiedName.toList.drop (a.qualifiedName.length - a.simpleName.length))

/-- From the last segment of a type that it starts with on, a name has that segment and
those behind it. -/
theorem nameFrom_eq {rest : List String} (h : t.segments = a.segments ++ rest) :
    a.nameFrom t = ".".intercalate (a.simpleName :: rest) := by
  have hname : t.qualifiedName = a.lead ++ ".".intercalate (a.simpleName :: rest) := by
    rw [lead_append_intercalate _ (List.cons_ne_nil _ _), qualifiedName_eq, h, segments_eq_concat,
      List.append_assoc]
    rfl
  have hoffset : a.qualifiedName.length - a.simpleName.length = a.lead.toList.length := by
    rw [← a.lead_append_simpleName, String.length_append, String.length_toList]
    omega
  rw [nameFrom, hoffset, hname, String.toList_append, List.drop_left, String.ofList_toList]

end BinaryName

namespace NameRenderer

variable {packageName : String} {available : List BinaryName} {r : NameRenderer}
  {a t : BinaryName}

/-! ## The rule -/

/-- Of the types that a type's segments start with, the one with the most segments. -/
def longestStart? (available : List BinaryName) (t : BinaryName) : Option BinaryName :=
  (available.filter fun a => a.segments <+: t.segments).argmax fun a => a.segments.length

/-- The qualified name of a type from the last segment of its longest start on, and all of
it if there is no start. -/
def shortName (available : List BinaryName) (t : BinaryName) : String :=
  match longestStart? available t with
  | some a => a.nameFrom t
  | none => t.qualifiedName

theorem longestStart?_eq_none_iff :
    longestStart? available t = none ↔ ∀ a ∈ available, ¬ a.segments <+: t.segments := by
  rw [longestStart?, List.argmax_eq_none]
  simp

theorem isLongestStart_of_longestStart? (h : longestStart? available t = some a) :
    IsLongestStart (SortedSet.ofList available) a t := by
  have hmem := List.mem_filter.1 (List.argmax_mem h)
  refine ⟨SortedSet.mem_ofList.2 hmem.1, of_decide_eq_true hmem.2, fun b hb hstart => ?_⟩
  have hb' : b ∈ available.filter fun a => a.segments <+: t.segments :=
    List.mem_filter.2 ⟨SortedSet.mem_ofList.1 hb, decide_eq_true hstart⟩
  exact List.le_of_mem_argmax (f := fun a : BinaryName => a.segments.length) hb' h

theorem render_ofTypes_eq_shortName (h : DistinctSimpleNames (SortedSet.ofList available))
    (t : BinaryName) :
    (ofTypes packageName (SortedSet.ofList available)).render t = shortName available t := by
  unfold shortName
  split
  · rename_i a hlongest
    have ha := isLongestStart_of_longestStart? hlongest
    obtain ⟨rest, hrest⟩ := ha.start
    rw [render_of_isLongestStart h ha hrest.symm, BinaryName.nameFrom_eq hrest.symm]
  · rename_i hnone
    refine render_of_no_start h fun a ha => ?_
    exact longestStart?_eq_none_iff.1 hnone a (SortedSet.mem_ofList.1 ha)

/-! ## Positions -/

theorem covered_trieOf_lt (packageName : String) (types : SortedSet BinaryName) (t : BinaryName) :
    (trieOf packageName types).covered t.segments < t.segments.length := by
  rcases ImportTrie.covered_eq_zero_or (wellFormed_trieOf packageName types) t.segments with
    hzero | ⟨hlt, -⟩
  · rw [hzero]
    exact List.length_pos_of_ne_nil t.segments_ne_nil
  · exact hlt

/-- A renderer spells every type by the naive rule, and what it writes stands in the
qualified name behind as many dots as the trie answers. -/
theorem render_eq_shortName (h : ofAvailable packageName available = .ok r) (t : BinaryName) :
    r.render t = shortName available t ∧
      afterDots? (r.trie.covered t.segments) t.qualifiedName.toList =
        some (r.render t).toList := by
  obtain ⟨hdistinct, rfl⟩ := ofAvailable_eq_ok_iff.1 h
  refine ⟨render_ofTypes_eq_shortName hdistinct t, ?_⟩
  rw [t.qualifiedName_eq]
  exact afterDots?_intercalate (fun s hs => BinaryName.ne_dot_of_mem_segments hs)
    (covered_trieOf_lt packageName _ t)

/-- A type below two available ones, a type whose last segment only begins like one of them,
and an available type of the unnamed package. -/
theorem render_eq_shortName_nested :
    ∃ map entry size mapping box renderer, map.text = "java.util.Map" ∧
      entry.text = "java.util.Map$Entry" ∧ size.text = "java.util.Map$Entry$Größe" ∧
      mapping.text = "java.util.Mapping" ∧ box.text = "Box" ∧
      ofAvailable "test" [map, entry, box] = .ok renderer ∧
      renderer.render size = "Entry.Größe" ∧ renderer.render mapping = "java.util.Mapping" ∧
      renderer.render box = "Box" ∧
      afterDots? (renderer.trie.covered size.segments) size.qualifiedName.toList =
        some "Entry.Größe".toList := by
  have hdistinct : DistinctSimpleNames (SortedSet.ofList
      [.dotted (.dotted (.root ⟨"java", by simp, by simp⟩) ⟨"util", by simp, by simp⟩)
          ⟨"Map", by simp, by simp⟩,
        .nested (.dotted (.dotted (.root ⟨"java", by simp, by simp⟩) ⟨"util", by simp, by simp⟩)
          ⟨"Map", by simp, by simp⟩) ⟨"Entry", by simp, by simp⟩,
        .root ⟨"Box", by simp, by simp⟩]) :=
    (SimpleName.conflicts_eq_nil_iff (SortedSet.nodup_toList _)).1 (by decide +kernel)
  have hok := (@ofAvailable_eq_ok_iff "test" _ _).2 ⟨hdistinct, rfl⟩
  obtain ⟨hsize, hdots⟩ := render_eq_shortName hok
    (.nested (.nested (.dotted (.dotted (.root ⟨"java", by simp, by simp⟩)
      ⟨"util", by simp, by simp⟩) ⟨"Map", by simp, by simp⟩) ⟨"Entry", by simp, by simp⟩)
      ⟨"Größe", by simp, by simp⟩)
  obtain ⟨hmapping, -⟩ := render_eq_shortName hok
    (.dotted (.dotted (.root ⟨"java", by simp, by simp⟩) ⟨"util", by simp, by simp⟩)
      ⟨"Mapping", by simp, by simp⟩)
  obtain ⟨hbox, -⟩ := render_eq_shortName hok (.root ⟨"Box", by simp, by simp⟩)
  have hname := hsize.trans (show _ = "Entry.Größe" by decide +kernel)
  refine ⟨_, _, _, _, _, _, by decide, by decide, by decide, by decide, by decide, hok,
    hname, hmapping.trans (by decide +kernel), hbox.trans (by decide +kernel), ?_⟩
  rw [hdots, hname]

end NameRenderer

end ImmutableJava
