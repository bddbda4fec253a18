import ImmutableJava.Import.Trie

/-!
# The import trie as a map from paths

What can be asked of an import trie depends on its shape only through the labels
of its paths: which type ends at a path, and whether the path is marked as an
implicitly imported package.  `labelAt` reads both off, with no type and no mark
where there is no node.

An insertion changes the label of one path and no other (`labelAt_alter`).  That
is not true of arbitrary trees: the search for a child and the insertion of one
agree only where the children are in increasing order, and the answer of a lookup
is a position only where a node knows its depth.  Both are `WellFormed`, which
every insertion keeps.

A lookup and a walk are then statements about labels:

* `covered_eq_zero_or` and `le_covered`: a lookup answers the last position at which
  a type ends, or `0`;
* `mem_types_iff`: the walk visits the types of all paths, each with the mark of the
  path one segment shorter.
-/

namespace ImmutableJava

namespace ImportTrie

/-! ## Labels -/

/-- The type and the mark of a node. -/
def label (t : ImportTrie) : Option BinaryName × Bool := (t.type?, t.isImplicit)

/-- The type and the mark at the end of a path. -/
def labelAt (path : List String) (t : ImportTrie) : Option BinaryName × Bool :=
  ((t.find? path).map label).getD (none, false)

/-- The type that ends at a path. -/
def typeAt (path : List String) (t : ImportTrie) : Option BinaryName := (labelAt path t).1

/-- Whether a path is marked as an implicitly imported package. -/
def isPackageAt (path : List String) (t : ImportTrie) : Bool := (labelAt path t).2

@[simp] theorem labelAt_nil (t : ImportTrie) : labelAt [] t = t.label := rfl

theorem labelAt_cons (segment : String) (path : List String) (t : ImportTrie) :
    labelAt (segment :: path) t = ((t.child? segment).map (labelAt path)).getD (none, false) := by
  rw [labelAt, find?]
  cases t.child? segment <;> rfl

theorem labelAt_cons_of_child? {segment : String} {t child : ImportTrie}
    (h : t.child? segment = some child) (path : List String) :
    labelAt (segment :: path) t = labelAt path child := by
  rw [labelAt_cons, h]
  rfl

theorem labelAt_cons_of_child?_eq_none {segment : String} {t : ImportTrie}
    (h : t.child? segment = none) (path : List String) :
    labelAt (segment :: path) t = (none, false) := by
  rw [labelAt_cons, h]
  rfl

@[simp] theorem labelAt_leaf (depth : Nat) (path : List String) :
    labelAt path (leaf depth) = (none, false) := by
  cases path with
  | nil => rfl
  | cons segment path => rfl

/-! ## Well-formed tries -/

/-- Children stand in increasing order and are one segment deeper than their parent. -/
inductive WellFormed : Nat → ImportTrie → Prop where
  | node {depth : Nat} {type? : Option BinaryName} {implicit : Bool}
      {children : List (String × ImportTrie)}
      (sorted : children.Pairwise fun a b => compare a.1 b.1 = .lt)
      (below : ∀ c ∈ children, WellFormed (depth + 1) c.2) :
      WellFormed depth (.node depth type? implicit children)

theorem wellFormed_leaf (depth : Nat) : WellFormed depth (leaf depth) :=
  .node .nil fun _ hc => absurd hc List.not_mem_nil

theorem wellFormed_empty : WellFormed 0 empty := wellFormed_leaf 0

@[simp] theorem typeAt_empty (path : List String) : typeAt path empty = none := by
  rw [typeAt, empty, labelAt_leaf]

@[simp] theorem isPackageAt_empty (path : List String) : isPackageAt path empty = false := by
  rw [isPackageAt, empty, labelAt_leaf]

theorem WellFormed.depth_eq {depth : Nat} {t : ImportTrie} (h : WellFormed depth t) :
    t.depth = depth := by
  cases h with
  | node sorted below => rfl

theorem WellFormed.withType {depth : Nat} {t : ImportTrie} (h : WellFormed depth t)
    (type : BinaryName) : WellFormed depth (t.withType type) := by
  cases h with
  | node sorted below => exact .node sorted below

theorem WellFormed.markImplicit {depth : Nat} {t : ImportTrie} (h : WellFormed depth t) :
    WellFormed depth t.markImplicit := by
  cases h with
  | node sorted below => exact .node sorted below

/-- In a well-formed trie the child at a segment is the one listed with it. -/
theorem WellFormed.child?_eq_some_iff {depth : Nat} {t : ImportTrie} (h : WellFormed depth t)
    {segment : String} {child : ImportTrie} :
    t.child? segment = some child ↔ (segment, child) ∈ t.children := by
  cases h with
  | @node _ type? implicit children sorted below =>
    rw [child?, Option.map_eq_some_iff, ImportTrie.children]
    constructor
    · rintro ⟨⟨s, c⟩, hfind, rfl⟩
      have hs : s = segment := by simpa using List.find?_some hfind
      subst hs
      exact List.mem_of_find?_eq_some hfind
    · intro hmem
      clear below
      induction children with
      | nil => exact absurd hmem List.not_mem_nil
      | cons c rest ih =>
        obtain ⟨hlt, hrest⟩ := List.pairwise_cons.1 sorted
        rcases List.mem_cons.1 hmem with rfl | hmem
        · exact ⟨(segment, child), by simp, rfl⟩
        · have hne : c.1 ≠ segment := by
            rintro rfl
            exact absurd (hlt _ hmem) (by simp)
          obtain ⟨found, hfound, hchild⟩ := ih hrest hmem
          exact ⟨found, by rw [List.find?_cons_of_neg (by simpa using hne), hfound], hchild⟩

theorem WellFormed.of_child? {depth : Nat} {t : ImportTrie} (h : WellFormed depth t)
    {segment : String} {child : ImportTrie} (hchild : t.child? segment = some child) :
    WellFormed (depth + 1) child := by
  have hmem := h.child?_eq_some_iff.1 hchild
  cases h with
  | node sorted below => exact below _ hmem

/-! ## Insertions

`alter` walks down a path and changes the node at its end.  What it does to one list
of children is said first. -/

section AlterChild

variable {segment : String} {fresh : ImportTrie} {f : ImportTrie → ImportTrie}

theorem mem_alterChild {c : String × ImportTrie} {children : List (String × ImportTrie)}
    (h : c ∈ alterChild segment fresh f children) :
    c ∈ children ∨ c = (segment, f fresh) ∨ ∃ old ∈ children, c = (segment, f old.2) := by
  induction children with
  | nil => exact .inr (.inl (List.mem_singleton.1 h))
  | cons head rest ih =>
    rw [alterChild] at h
    split at h
    · rcases List.mem_cons.1 h with h | h
      · exact .inr (.inl h)
      · exact .inl h
    · rename_i heq
      rcases List.mem_cons.1 h with h | h
      · rw [← Std.LawfulEqOrd.eq_of_compare heq] at h
        exact .inr (.inr ⟨head, List.mem_cons_self, h⟩)
      · exact .inl (List.mem_cons_of_mem _ h)
    · rcases List.mem_cons.1 h with h | h
      · exact .inl (h ▸ List.mem_cons_self)
      · rcases ih h with h | h | ⟨old, hold, h⟩
        · exact .inl (List.mem_cons_of_mem _ h)
        · exact .inr (.inl h)
        · exact .inr (.inr ⟨old, List.mem_cons_of_mem _ hold, h⟩)

theorem pairwise_alterChild {children : List (String × ImportTrie)}
    (h : children.Pairwise fun a b => compare a.1 b.1 = .lt) :
    (alterChild segment fresh f children).Pairwise fun a b => compare a.1 b.1 = .lt := by
  induction children with
  | nil => exact List.pairwise_singleton _ _
  | cons head rest ih =>
    obtain ⟨hlt, hrest⟩ := List.pairwise_cons.1 h
    unfold alterChild
    split
    · rename_i hsegment
      refine List.pairwise_cons.2 ⟨fun c hc => ?_, h⟩
      rcases List.mem_cons.1 hc with rfl | hc
      · exact hsegment
      · exact Std.TransCmp.lt_trans hsegment (hlt c hc)
    · exact List.pairwise_cons.2 ⟨hlt, hrest⟩
    · rename_i hsegment
      have hhead : compare head.1 segment = .lt := Std.OrientedCmp.gt_iff_lt.1 hsegment
      refine List.pairwise_cons.2 ⟨fun c hc => ?_, ih hrest⟩
      rcases mem_alterChild hc with hc | rfl | ⟨old, _, rfl⟩
      · exact hlt c hc
      · exact hhead
      · exact hhead

/-- The children after a change: at the segment the changed child, elsewhere what was
there. -/
theorem child?_alterChild {depth : Nat} {type? : Option BinaryName} {implicit : Bool}
    {children : List (String × ImportTrie)}
    (h : children.Pairwise fun a b => compare a.1 b.1 = .lt) (s : String) :
    child? s (.node depth type? implicit (alterChild segment fresh f children)) =
      if s = segment then
        some (f ((child? segment (.node depth type? implicit children)).getD fresh))
      else child? s (.node depth type? implicit children) := by
  simp only [child?, ImportTrie.children]
  induction children with
  | nil =>
    by_cases hs : s = segment
    · simp [alterChild, hs]
    · simp [alterChild, hs, Ne.symm hs]
  | cons head rest ih =>
    obtain ⟨hlt, hrest⟩ := List.pairwise_cons.1 h
    unfold alterChild
    split
    · rename_i hsegment
      have hhead : head.1 ≠ segment := by
        rintro rfl
        exact absurd hsegment (by simp)
      -- every child comes after the segment, so none stands at it
      have hnone : (head :: rest).find? (fun c => c.1 = segment) = none := by
        apply List.find?_eq_none.2
        intro c hc
        rcases List.mem_cons.1 hc with rfl | hc
        · simpa using hhead
        · have hc' : compare segment c.1 = .lt := Std.TransCmp.lt_trans hsegment (hlt c hc)
          have hne : c.1 ≠ segment := by
            intro he
            rw [he] at hc'
            exact absurd hc' (by simp)
          simpa using hne
      by_cases hs : s = segment
      · simp [hs, hnone]
      · simp [hs, Ne.symm hs]
    · rename_i hsegment
      have hhead : segment = head.1 := Std.LawfulEqOrd.eq_of_compare hsegment
      by_cases hs : s = segment
      · simp [hs, hhead]
      · have hs' : head.1 ≠ s := fun he => hs (by rw [hhead, he])
        simp [hs, hs']
    · rename_i hsegment
      have hhead : head.1 ≠ segment := by
        rintro rfl
        exact absurd hsegment (by simp)
      by_cases hs' : head.1 = s
      · have hs : s ≠ segment := fun he => hhead (hs'.trans he)
        simp [hs, hs']
      · simpa [List.find?_cons, hs', hhead] using ih hrest

end AlterChild

theorem WellFormed.alter {f : ImportTrie → ImportTrie}
    (hf : ∀ {depth : Nat} {t : ImportTrie}, WellFormed depth t → WellFormed depth (f t))
    {depth : Nat} {t : ImportTrie} (h : WellFormed depth t) (path : List String) :
    WellFormed depth (t.alter f path) := by
  induction path generalizing depth t with
  | nil => exact hf h
  | cons segment path ih =>
    cases h with
    | node sorted below =>
      refine .node (pairwise_alterChild sorted) fun c hc => ?_
      rcases mem_alterChild hc with hc | rfl | ⟨old, hold, rfl⟩
      · exact below c hc
      · exact ih (wellFormed_leaf _)
      · exact ih (below old hold)

/-- Changing the label of the node at the end of a path changes the label of that path
and of no other. -/
theorem labelAt_alter {f : ImportTrie → ImportTrie}
    {g : Option BinaryName × Bool → Option BinaryName × Bool}
    (hchildren : ∀ t, (f t).children = t.children) (hlabel : ∀ t, (f t).label = g t.label)
    {depth : Nat} {t : ImportTrie} (h : WellFormed depth t) (path q : List String) :
    labelAt q (t.alter f path) = if q = path then g (labelAt path t) else labelAt q t := by
  induction path generalizing depth t q with
  | nil =>
    cases q with
    | nil => simpa [alter] using hlabel t
    | cons s q =>
      have hchild : (f t).child? s = t.child? s := by rw [child?, hchildren, ← child?]
      simp [alter, labelAt_cons, hchild]
  | cons segment path ih =>
    cases h with
    | @node _ type? implicit children sorted below =>
      cases q with
      | nil => simp [alter, label, ImportTrie.type?, isImplicit]
      | cons s q =>
        rw [alter, labelAt_cons, child?_alterChild sorted]
        by_cases hs : s = segment
        · subst hs
          rw [if_pos rfl, Option.map_some, Option.getD_some]
          cases hchild : child? s (.node depth type? implicit children) with
          | none =>
            rw [Option.getD_none, ih (wellFormed_leaf _), labelAt_cons_of_child?_eq_none hchild,
              labelAt_cons_of_child?_eq_none hchild]
            simp
          | some child =>
            have hwf := (WellFormed.node sorted below).of_child? hchild
            rw [Option.getD_some, ih hwf, labelAt_cons_of_child? hchild,
              labelAt_cons_of_child? hchild]
            simp
        · have hne : ¬ s :: q = segment :: path := fun he => hs (List.cons.inj he).1
          rw [if_neg hs, if_neg hne, ← labelAt_cons]

/-! ## Types and packages -/

theorem WellFormed.insertType {depth : Nat} {t : ImportTrie} (h : WellFormed depth t)
    (type : BinaryName) : WellFormed depth (t.insertType type) :=
  h.alter (fun h => h.withType type) _

theorem WellFormed.insertPackage {depth : Nat} {t : ImportTrie} (h : WellFormed depth t)
    (packageName : String) : WellFormed depth (t.insertPackage packageName) :=
  h.alter (fun h => h.markImplicit) _

theorem labelAt_insertType {depth : Nat} {t : ImportTrie} (h : WellFormed depth t)
    (type : BinaryName) (path : List String) :
    labelAt path (t.insertType type) =
      if path = type.segments then (some type, (labelAt path t).2) else labelAt path t := by
  have hlabel : ∀ t : ImportTrie, (t.withType type).label = (some type, t.label.2) := by
    rintro ⟨⟩
    rfl
  have hchildren : ∀ t : ImportTrie, (t.withType type).children = t.children := by
    rintro ⟨⟩
    rfl
  rw [insertType, labelAt_alter (g := fun l => (some type, l.2)) hchildren hlabel h]
  split
  · rename_i hpath
    rw [hpath]
  · rfl

theorem labelAt_insertPackage {depth : Nat} {t : ImportTrie} (h : WellFormed depth t)
    (packageName : String) (path : List String) :
    labelAt path (t.insertPackage packageName) =
      if path = packagePath packageName then ((labelAt path t).1, true) else labelAt path t := by
  have hlabel : ∀ t : ImportTrie, t.markImplicit.label = (t.label.1, true) := by
    rintro ⟨⟩
    rfl
  have hchildren : ∀ t : ImportTrie, t.markImplicit.children = t.children := by
    rintro ⟨⟩
    rfl
  rw [insertPackage, labelAt_alter (g := fun l => (l.1, true)) hchildren hlabel h]
  split
  · rename_i hpath
    rw [hpath]
  · rfl

/-- A type ends at its own segments, in place of any other. -/
theorem typeAt_insertType {depth : Nat} {t : ImportTrie} (h : WellFormed depth t)
    (type : BinaryName) (path : List String) :
    typeAt path (t.insertType type) = if path = type.segments then some type else typeAt path t := by
  rw [typeAt, labelAt_insertType h]
  split <;> rfl

theorem isPackageAt_insertType {depth : Nat} {t : ImportTrie} (h : WellFormed depth t)
    (type : BinaryName) (path : List String) :
    isPackageAt path (t.insertType type) = isPackageAt path t := by
  rw [isPackageAt, labelAt_insertType h]
  split <;> rfl

theorem typeAt_insertPackage {depth : Nat} {t : ImportTrie} (h : WellFormed depth t)
    (packageName : String) (path : List String) :
    typeAt path (t.insertPackage packageName) = typeAt path t := by
  rw [typeAt, labelAt_insertPackage h]
  split <;> rfl

theorem isPackageAt_insertPackage {depth : Nat} {t : ImportTrie} (h : WellFormed depth t)
    (packageName : String) (path : List String) :
    isPackageAt path (t.insertPackage packageName) =
      (decide (path = packagePath packageName) || isPackageAt path t) := by
  rw [isPackageAt, labelAt_insertPackage h]
  split
  · rename_i hpath
    simp [hpath]
  · rename_i hpath
    simp [hpath, isPackageAt]

/-! ## Lookups -/

theorem coveredFrom_cons_of_child?_eq_none {segment : String} {t : ImportTrie}
    (h : t.child? segment = none) (c : Nat) (path : List String) :
    coveredFrom c (segment :: path) t = c := by
  rw [coveredFrom, h]

theorem coveredFrom_cons_of_child? {depth : Nat} {segment : String} {t child : ImportTrie}
    (h : WellFormed depth t) (hchild : t.child? segment = some child) (c : Nat)
    (path : List String) :
    coveredFrom c (segment :: path) t =
      coveredFrom (if child.isType then depth else c) path child := by
  have hdepth : child.depth - 1 = depth := by rw [(h.of_child? hchild).depth_eq, Nat.add_sub_cancel]
  simp only [coveredFrom, hchild, hdepth]

theorem typeAt_cons_of_child? {segment : String} {t child : ImportTrie}
    (h : t.child? segment = some child) (path : List String) :
    typeAt (segment :: path) t = typeAt path child := by
  rw [typeAt, labelAt_cons_of_child? h, ← typeAt]

theorem typeAt_cons_of_child?_eq_none {segment : String} {t : ImportTrie}
    (h : t.child? segment = none) (path : List String) : typeAt (segment :: path) t = none := by
  rw [typeAt, labelAt_cons_of_child?_eq_none h]

/-- A lookup answers what it came with, or a position at which a type ends. -/
theorem coveredFrom_eq_or {depth : Nat} {t : ImportTrie} (h : WellFormed depth t) (c : Nat)
    (path : List String) :
    coveredFrom c path t = c ∨
      ∃ i < path.length, coveredFrom c path t = depth + i ∧
        (typeAt (path.take (i + 1)) t).isSome = true := by
  induction path generalizing depth t c with
  | nil => exact .inl rfl
  | cons segment path ih =>
    cases hchild : t.child? segment with
    | none => exact .inl (coveredFrom_cons_of_child?_eq_none hchild c path)
    | some child =>
      rw [coveredFrom_cons_of_child? h hchild]
      rcases ih (h.of_child? hchild) (if child.isType then depth else c) with
        heq | ⟨i, hi, heq, htype⟩
      · rw [heq]
        split
        · rename_i htype
          refine .inr ⟨0, by simp, rfl, ?_⟩
          rw [Nat.zero_add, List.take_succ_cons, typeAt_cons_of_child? hchild, List.take_zero]
          exact htype
        · exact .inl rfl
      · refine .inr ⟨i + 1, by simpa using hi, ?_, ?_⟩
        · omega
        · rw [List.take_succ_cons, typeAt_cons_of_child? hchild]
          exact htype

/-- A lookup answers no smaller position than any at which a type ends. -/
theorem le_coveredFrom {depth : Nat} {t : ImportTrie} (h : WellFormed depth t) (c : Nat)
    (path : List String) {i : Nat} (hi : i < path.length)
    (htype : (typeAt (path.take (i + 1)) t).isSome = true) :
    depth + i ≤ coveredFrom c path t := by
  induction path generalizing depth t c i with
  | nil => exact absurd hi (Nat.not_lt_zero _)
  | cons segment path ih =>
    rw [List.take_succ_cons] at htype
    cases hchild : t.child? segment with
    | none =>
      rw [typeAt_cons_of_child?_eq_none hchild] at htype
      exact absurd htype (by simp)
    | some child =>
      have hwf := h.of_child? hchild
      rw [typeAt_cons_of_child? hchild] at htype
      rw [coveredFrom_cons_of_child? h hchild]
      cases i with
      | zero =>
        have hisType : child.isType = true := htype
        rw [if_pos hisType]
        rcases coveredFrom_eq_or hwf depth path with heq | ⟨j, _, heq, _⟩ <;> omega
      | succ i =>
        have hle := ih hwf (if child.isType then depth else c) (by simpa using hi) htype
        omega

/-- A lookup answers a position at which a type ends, or `0`. -/
theorem covered_eq_zero_or {t : ImportTrie} (h : WellFormed 0 t) (path : List String) :
    covered path t = 0 ∨
      covered path t < path.length ∧
        (typeAt (path.take (covered path t + 1)) t).isSome = true := by
  rcases coveredFrom_eq_or h 0 path with heq | ⟨i, hi, heq, htype⟩
  · exact .inl heq
  · rw [Nat.zero_add] at heq
    rw [covered, heq]
    exact .inr ⟨hi, htype⟩

/-- No type ends at a later position than the one that a lookup answers. -/
theorem le_covered {t : ImportTrie} (h : WellFormed 0 t) (path : List String) {i : Nat}
    (hi : i < path.length) (htype : (typeAt (path.take (i + 1)) t).isSome = true) :
    i ≤ covered path t := by
  have hle := le_coveredFrom h 0 path hi htype
  rwa [Nat.zero_add] at hle

/-! ## Walks -/

theorem mem_typesBelow_iff {parentIsImplicit : Bool} {children : List (String × ImportTrie)}
    {entry : BinaryName × Bool} :
    entry ∈ typesBelow parentIsImplicit children ↔
      ∃ c ∈ children, entry ∈ typesFrom parentIsImplicit c.2 := by
  induction children with
  | nil => simp [typesBelow]
  | cons c children ih => simp [typesBelow, ih]

/-- Whether the node above a path is marked; `top` is the mark above the root. -/
def parentMark (top : Bool) (path : List String) (t : ImportTrie) : Bool :=
  if path = [] then top else isPackageAt path.dropLast t

theorem parentMark_cons (top : Bool) {segment : String} {t child : ImportTrie}
    (h : t.child? segment = some child) (path : List String) :
    parentMark top (segment :: path) t = parentMark t.isImplicit path child := by
  rw [parentMark, if_neg (List.cons_ne_nil _ _), parentMark]
  split
  · rename_i hpath
    rw [hpath]
    rfl
  · rename_i hpath
    rw [List.dropLast_cons_of_ne_nil hpath, isPackageAt, labelAt_cons_of_child? h, ← isPackageAt]

/-- A walk visits the types of all paths, each with the mark of the node above. -/
theorem mem_typesFrom_iff {depth : Nat} {t : ImportTrie} (h : WellFormed depth t) {top : Bool}
    {type : BinaryName} {implicit : Bool} :
    (type, implicit) ∈ typesFrom top t ↔
      ∃ path, typeAt path t = some type ∧ implicit = parentMark top path t := by
  induction h generalizing top with
  | @node depth type? mark children sorted below ih =>
    have hwf : WellFormed depth (.node depth type? mark children) := .node sorted below
    rw [typesFrom, List.mem_append, mem_typesBelow_iff]
    constructor
    · rintro (hhere | ⟨c, hc, hbelow⟩)
      · refine ⟨[], ?_⟩
        rw [Option.mem_toList, Option.map_eq_some_iff] at hhere
        obtain ⟨found, rfl, heq⟩ := hhere
        cases heq
        exact ⟨rfl, rfl⟩
      · obtain ⟨path, htype, himplicit⟩ := (ih c hc).1 hbelow
        have hchild := hwf.child?_eq_some_iff.2 hc
        refine ⟨c.1 :: path, ?_, ?_⟩
        · rw [typeAt_cons_of_child? hchild]
          exact htype
        · rw [parentMark_cons top hchild]
          exact himplicit
    · rintro ⟨path, htype, himplicit⟩
      cases path with
      | nil =>
        refine .inl ?_
        have htype' : type? = some type := htype
        rw [himplicit, htype']
        exact List.mem_singleton.2 rfl
      | cons segment path =>
        cases hchild : child? segment (.node depth type? mark children) with
        | none =>
          rw [typeAt_cons_of_child?_eq_none hchild] at htype
          exact absurd htype (by simp)
        | some child =>
          have hmem := hwf.child?_eq_some_iff.1 hchild
          refine .inr ⟨(segment, child), hmem, (ih _ hmem).2 ⟨path, ?_, ?_⟩⟩
          · rwa [typeAt_cons_of_child? hchild] at htype
          · rwa [parentMark_cons top hchild] at himplicit

/-- The types of a trie, each with the mark of the path one segment shorter. -/
theorem mem_types_iff {t : ImportTrie} (h : WellFormed 0 t) {type : BinaryName}
    {implicit : Bool} :
    (type, implicit) ∈ t.types ↔
      ∃ path, typeAt path t = some type ∧ implicit = parentMark false path t :=
  mem_typesFrom_iff h

end ImportTrie

end ImmutableJava
