import ImmutableJava.Proofs.ImportDeclarations
import Mathlib.Logic.Function.Basic
import Mathlib.Order.Bounds.Basic

/-!
# Tries and the insertions that made them

A trie is made by inserting types and packages into an empty one, in any order.  A
*labelling* gives each list of segments a type, or none, and a mark, and an insertion changes
one entry of it (`Insertion.update`).  The trie is a labelling: an insertion does to the
labels of its paths what it does to a labelling (`labelAt_apply`), so the labels of a trie are
the labelling that its insertions make (`labelAt_ofInsertions`).

What a labelling holds in the end can be read off the history.

* The type of a path is the last one that was inserted there.  A path is the segments of a
  type, so it is the last type of its qualified name (`labelling_fst_eq_some_iff`).
* A path is marked if a package with that path was ever inserted, before the types in it
  or after them (`labelling_snd_eq_true_iff`).

Nodes do not store their paths, and the labelling does not say how a node comes to know its
depth, nor in which order a walk meets the nodes.  Both are the shape of the trie, which is
well-formed after every insertion.  `Represents` puts labels and shape together into what the
trie answers.
-/

namespace ImmutableJava

/-- A qualified name says no more and no less than the segments. -/
theorem BinaryName.qualifiedName_eq_iff_segments_eq {u t : BinaryName} :
    u.qualifiedName = t.qualifiedName ↔ u.segments = t.segments :=
  ⟨fun h => by rw [← u.cut_qualifiedName, h, t.cut_qualifiedName],
    fun h => by rw [u.qualifiedName_eq, h, ← t.qualifiedName_eq]⟩

/-! ## Insertions -/

/-- One insertion into a trie. -/
inductive Insertion where
  /-- A type is inserted at the end of its qualified name. -/
  | type (type : BinaryName)
  /-- A package is marked as implicitly imported. -/
  | package (name : String)
  deriving DecidableEq

/-- A type, or none, and a mark for each list of segments. -/
abbrev Labelling := List String → Option BinaryName × Bool

namespace Insertion

open ImportTrie

/-- The insertion into a trie. -/
def apply : Insertion → ImportTrie → ImportTrie
  | type t => insertType t
  | package name => insertPackage name

/-- The insertion into a labelling. -/
def update : Insertion → Labelling → Labelling
  | type t, labels => Function.update labels t.segments (some t, (labels t.segments).2)
  | package name, labels =>
    Function.update labels (packagePath name) ((labels (packagePath name)).1, true)

/-- The type was inserted, and no type with its qualified name was inserted later. -/
def IsLatest (insertions : List Insertion) (t : BinaryName) : Prop :=
  ∃ earlier later, insertions = earlier ++ type t :: later ∧
    ∀ u, type u ∈ later → u.qualifiedName ≠ t.qualifiedName

variable {insertions : List Insertion} {t u : BinaryName}

theorem IsLatest.mem (h : IsLatest insertions t) : type t ∈ insertions := by
  obtain ⟨earlier, later, rfl, -⟩ := h
  simp

theorem not_isLatest_nil (t : BinaryName) : ¬ IsLatest [] t := fun h => absurd h.mem (by simp)

/-- One more insertion: its type is the latest, and any other type stays the latest unless the
insertion is of its name. -/
theorem isLatest_concat_iff {i : Insertion} :
    IsLatest (insertions ++ [i]) t ↔
      i = type t ∨
        (IsLatest insertions t ∧ ∀ u, i = type u → u.qualifiedName ≠ t.qualifiedName) := by
  constructor
  · rintro ⟨earlier, later, hsplit, hlater⟩
    rcases List.eq_nil_or_concat later with rfl | ⟨later, last, rfl⟩
    · exact .inl (List.cons.inj (List.append_inj_right' hsplit rfl)).1
    · rw [List.concat_eq_append, ← List.cons_append, ← List.append_assoc] at hsplit
      obtain ⟨rfl, hlast⟩ := List.append_inj' hsplit rfl
      obtain rfl := (List.cons.inj hlast).1
      refine .inr ⟨⟨earlier, later, rfl, fun u hu => hlater u ?_⟩, fun u hu => hlater u ?_⟩
      · rw [List.concat_eq_append]
        exact List.mem_append_left _ hu
      · rw [List.concat_eq_append, hu]
        exact List.mem_append_right _ List.mem_cons_self
  · rintro (rfl | ⟨⟨earlier, later, rfl, hlater⟩, hi⟩)
    · exact ⟨insertions, [], rfl, fun u hu => absurd hu List.not_mem_nil⟩
    · refine ⟨earlier, later ++ [i], by simp, fun u hu => ?_⟩
      rcases List.mem_append.1 hu with hu | hu
      · exact hlater u hu
      · exact hi u (List.mem_singleton.1 hu).symm

/-- Whatever was inserted under a name, one type was the latest of that name. -/
theorem exists_isLatest_of_mem (h : type t ∈ insertions) :
    ∃ u, IsLatest insertions u ∧ u.qualifiedName = t.qualifiedName := by
  induction insertions using List.reverseRecOn with
  | nil => exact absurd h List.not_mem_nil
  | append_singleton insertions i ih =>
    by_cases hi : ∃ u, i = type u ∧ u.qualifiedName = t.qualifiedName
    · obtain ⟨u, rfl, hu⟩ := hi
      exact ⟨u, isLatest_concat_iff.2 (.inl rfl), hu⟩
    · have hne : ∀ u, i = type u → u.qualifiedName ≠ t.qualifiedName := fun u hu hname =>
        hi ⟨u, hu, hname⟩
      rcases List.mem_append.1 h with h | h
      · obtain ⟨u, hlatest, hu⟩ := ih h
        exact ⟨u, isLatest_concat_iff.2 (.inr ⟨hlatest, fun v hv => hu ▸ hne v hv⟩), hu⟩
      · exact absurd rfl (hne t (List.mem_singleton.1 h).symm)

/-! ## Labellings -/

/-- The labelling without types and marks. -/
def unlabelled : Labelling := fun _ => (none, false)

/-- The labelling that insertions make. -/
def labelling (insertions : List Insertion) : Labelling :=
  insertions.foldl (fun labels i => i.update labels) unlabelled

theorem labelling_concat (insertions : List Insertion) (i : Insertion) :
    labelling (insertions ++ [i]) = i.update (labelling insertions) := List.foldl_concat _ _ _ _

section Update

variable (labels : Labelling) (path : List String)

theorem update_type_fst (u : BinaryName) :
    (update (type u) labels path).1 = if path = u.segments then some u else (labels path).1 := by
  rw [update, Function.update_apply]
  split
  · rfl
  · rfl

/-- Types leave the marks alone. -/
theorem update_type_snd (u : BinaryName) :
    (update (type u) labels path).2 = (labels path).2 := by
  rw [update, Function.update_apply]
  split
  · rename_i hpath
    rw [hpath]
  · rfl

/-- Packages leave the types alone. -/
theorem update_package_fst (name : String) :
    (update (package name) labels path).1 = (labels path).1 := by
  rw [update, Function.update_apply]
  split
  · rename_i hpath
    rw [hpath]
  · rfl

theorem update_package_snd (name : String) :
    (update (package name) labels path).2 = true ↔
      path = packagePath name ∨ (labels path).2 = true := by
  rw [update, Function.update_apply]
  split
  · rename_i hpath
    simp [hpath]
  · rename_i hpath
    simp [hpath]

end Update

/-- A list of segments has the latest type with these segments. -/
theorem labelling_fst_eq_some_iff {path : List String} :
    (labelling insertions path).1 = some t ↔ IsLatest insertions t ∧ t.segments = path := by
  induction insertions using List.reverseRecOn with
  | nil =>
    refine ⟨fun h => ?_, fun h => absurd h.1 (not_isLatest_nil t)⟩
    cases h
  | append_singleton insertions i ih =>
    rw [labelling_concat, isLatest_concat_iff]
    cases i with
    | type u =>
      rw [update_type_fst]
      by_cases hpath : path = u.segments
      · subst hpath
        rw [if_pos rfl, Option.some.injEq]
        constructor
        · rintro rfl
          exact ⟨.inl rfl, rfl⟩
        · rintro ⟨hu | ⟨-, hne⟩, hsegments⟩
          · exact type.inj hu
          · exact absurd (BinaryName.qualifiedName_eq_iff_segments_eq.2 hsegments.symm) (hne u rfl)
      · rw [if_neg hpath, ih]
        constructor
        · rintro ⟨hlatest, rfl⟩
          refine ⟨.inr ⟨hlatest, ?_⟩, rfl⟩
          rintro v hv hname
          cases hv
          exact hpath (BinaryName.qualifiedName_eq_iff_segments_eq.1 hname).symm
        · rintro ⟨hu | ⟨hlatest, -⟩, hsegments⟩
          · cases hu
            exact absurd hsegments.symm hpath
          · exact ⟨hlatest, hsegments⟩
    | package name =>
      rw [update_package_fst, ih]
      simp

/-- A list of segments is marked if a package with these segments was inserted. -/
theorem labelling_snd_eq_true_iff {path : List String} :
    (labelling insertions path).2 = true ↔
      ∃ name, package name ∈ insertions ∧ packagePath name = path := by
  induction insertions using List.reverseRecOn with
  | nil => simp [labelling, unlabelled]
  | append_singleton insertions i ih =>
    rw [labelling_concat]
    cases i with
    | type u =>
      rw [update_type_snd, ih]
      simp
    | package name =>
      rw [update_package_snd, ih]
      constructor
      · rintro (rfl | ⟨old, hold, hpath⟩)
        · exact ⟨name, List.mem_append_right _ List.mem_cons_self, rfl⟩
        · exact ⟨old, List.mem_append_left _ hold, hpath⟩
      · rintro ⟨other, hother, hpath⟩
        rcases List.mem_append.1 hother with hold | hnew
        · exact .inr ⟨other, hold, hpath⟩
        · cases List.mem_singleton.1 hnew
          exact .inl hpath.symm

end Insertion

namespace ImportTrie

open Insertion

/-! ## Tries -/

theorem WellFormed.apply {depth : Nat} {t : ImportTrie} (h : WellFormed depth t)
    (i : Insertion) : WellFormed depth (i.apply t) := by
  cases i with
  | type type => exact h.insertType type
  | package name => exact h.insertPackage name

/-- An insertion does to the labels of a trie what it does to a labelling. -/
theorem labelAt_apply {depth : Nat} {t : ImportTrie} (h : WellFormed depth t) (i : Insertion)
    {labels : Labelling} (hlabels : ∀ path, labelAt path t = labels path) (path : List String) :
    labelAt path (i.apply t) = i.update labels path := by
  cases i with
  | type type =>
    rw [Insertion.apply, labelAt_insertType h, update, Function.update_apply, hlabels]
    split
    · rename_i hpath
      rw [hpath]
    · rfl
  | package name =>
    rw [Insertion.apply, labelAt_insertPackage h, update, Function.update_apply, hlabels]
    split
    · rename_i hpath
      rw [hpath]
    · rfl

/-- The trie that insertions make. -/
def ofInsertions (insertions : List Insertion) : ImportTrie :=
  insertions.foldl (fun t i => i.apply t) empty

theorem ofInsertions_concat (insertions : List Insertion) (i : Insertion) :
    ofInsertions (insertions ++ [i]) = i.apply (ofInsertions insertions) :=
  List.foldl_concat _ _ _ _

theorem wellFormed_ofInsertions (insertions : List Insertion) :
    WellFormed 0 (ofInsertions insertions) := by
  induction insertions using List.reverseRecOn with
  | nil => exact wellFormed_empty
  | append_singleton insertions i ih =>
    rw [ofInsertions_concat]
    exact ih.apply i

/-- The labels of a trie are the labelling that its insertions make. -/
theorem labelAt_ofInsertions (insertions : List Insertion) (path : List String) :
    labelAt path (ofInsertions insertions) = labelling insertions path := by
  induction insertions using List.reverseRecOn generalizing path with
  | nil => exact labelAt_leaf 0 path
  | append_singleton insertions i ih =>
    rw [ofInsertions_concat, labelling_concat]
    exact labelAt_apply (wellFormed_ofInsertions insertions) i ih path

theorem typeAt_ofInsertions_eq_some_iff {insertions : List Insertion} {path : List String}
    {type : BinaryName} :
    typeAt path (ofInsertions insertions) = some type ↔
      IsLatest insertions type ∧ type.segments = path := by
  rw [typeAt, labelAt_ofInsertions, labelling_fst_eq_some_iff]

theorem isPackageAt_ofInsertions {insertions : List Insertion} {path : List String} :
    isPackageAt path (ofInsertions insertions) = true ↔
      ∃ name, .package name ∈ insertions ∧ packagePath name = path := by
  rw [isPackageAt, labelAt_ofInsertions, labelling_snd_eq_true_iff]

theorem endsOwnPaths_ofInsertions (insertions : List Insertion) :
    EndsOwnPaths [] (ofInsertions insertions) := fun _ _ htype =>
  (typeAt_ofInsertions_eq_some_iff.1 htype).2

/-- A type that ends at a path is there as soon as one with these segments was inserted. -/
theorem isSome_typeAt_ofInsertions_iff {insertions : List Insertion} {path : List String} :
    (typeAt path (ofInsertions insertions)).isSome = true ↔
      ∃ type, .type type ∈ insertions ∧ type.segments = path := by
  rw [Option.isSome_iff_exists]
  simp only [typeAt_ofInsertions_eq_some_iff]
  constructor
  · rintro ⟨type, hlatest, hpath⟩
    exact ⟨type, hlatest.mem, hpath⟩
  · rintro ⟨type, hmem, rfl⟩
    obtain ⟨latest, hlatest, hname⟩ := exists_isLatest_of_mem hmem
    exact ⟨latest, hlatest, BinaryName.qualifiedName_eq_iff_segments_eq.1 hname⟩

/-! ## Nodes -/

/-- The nodes of a trie, each with the segments on the way to it. -/
inductive NodeAt : List String → ImportTrie → ImportTrie → Prop where
  /-- The root of a trie is its node without segments. -/
  | root (t : ImportTrie) : NodeAt [] t t
  /-- The nodes of a child are nodes of the trie. -/
  | descend {segment : String} {path : List String} {t child node : ImportTrie}
      (listed : (segment, child) ∈ t.children) (h : NodeAt path child node) :
      NodeAt (segment :: path) t node

/-- In a well-formed trie every node knows how far it is from the root. -/
theorem NodeAt.depth_eq {path : List String} {t node : ImportTrie} (h : NodeAt path t node)
    {depth : Nat} (hwf : WellFormed depth t) : node.depth = depth + path.length := by
  induction h generalizing depth with
  | root t => exact hwf.depth_eq
  | descend listed _ ih =>
    rw [ih (hwf.of_child? (hwf.child?_eq_some_iff.2 listed)), List.length_cons]
    omega

/-! ## What a trie answers -/

/-- A type was inserted whose segments are the first segments of the path, up to and including
the one at a position. -/
def EndsAt (insertions : List Insertion) (path : List String) (i : Nat) : Prop :=
  i < path.length ∧ ∃ type, .type type ∈ insertions ∧ type.segments = path.take (i + 1)

/-- A trie holds what was inserted, and answers accordingly. -/
structure Represents (t : ImportTrie) (insertions : List Insertion) : Prop where
  /-- Every node knows its distance from the root. -/
  depth_eq : ∀ path node, NodeAt path t node → node.depth = path.length
  /-- The walk visits the latest type of each name, with the mark of the package in front of
  its last segment. -/
  mem_types_iff : ∀ type implicit, (type, implicit) ∈ t.types ↔ IsLatest insertions type ∧
    (implicit = true ↔ .package (".".intercalate type.segments.dropLast) ∈ insertions)
  /-- It visits one type of each name that was inserted, and no other. -/
  mem_names_iff : ∀ name, name ∈ t.types.map (·.1.qualifiedName) ↔
    ∃ type, .type type ∈ insertions ∧ type.qualifiedName = name
  nodup_names : (t.types.map (·.1.qualifiedName)).Nodup
  /-- It goes through the types in the lexicographic order of their segments. -/
  pairwise_types : t.types.Pairwise fun a b => a.1.segments < b.1.segments
  /-- A lookup finds the last position at which an inserted type ends, if there is one. -/
  covered_or : ∀ path, IsGreatest {i | EndsAt insertions path i} (t.covered path) ∨
    (∀ i, ¬ EndsAt insertions path i) ∧ t.covered path = 0

theorem mem_types_ofInsertions_iff {insertions : List Insertion} {type : BinaryName}
    {implicit : Bool} :
    (type, implicit) ∈ (ofInsertions insertions).types ↔ IsLatest insertions type ∧
      (implicit = true ↔ .package (".".intercalate type.segments.dropLast) ∈ insertions) := by
  have hmark : parentMark false type.segments (ofInsertions insertions) = true ↔
      .package (".".intercalate type.segments.dropLast) ∈ insertions := by
    rw [parentMark, if_neg type.segments_ne_nil, isPackageAt_ofInsertions,
      BinaryName.dropLast_segments]
    constructor
    · rintro ⟨name, hmem, hname⟩
      rwa [← hname, intercalate_packagePath]
    · intro hmem
      exact ⟨_, hmem, type.packagePath_containerName⟩
  rw [ImportTrie.mem_types_iff (wellFormed_ofInsertions _)]
  constructor
  · rintro ⟨path, htype, rfl⟩
    obtain ⟨hlatest, rfl⟩ := typeAt_ofInsertions_eq_some_iff.1 htype
    exact ⟨hlatest, hmark⟩
  · rintro ⟨hlatest, himplicit⟩
    refine ⟨type.segments, typeAt_ofInsertions_eq_some_iff.2 ⟨hlatest, rfl⟩, ?_⟩
    rw [Bool.eq_iff_iff, himplicit, hmark]

theorem covered_ofInsertions_or (insertions : List Insertion) (path : List String) :
    IsGreatest {i | EndsAt insertions path i} ((ofInsertions insertions).covered path) ∨
      (∀ i, ¬ EndsAt insertions path i) ∧ (ofInsertions insertions).covered path = 0 := by
  have hwf := wellFormed_ofInsertions insertions
  have hupper : ∀ i, EndsAt insertions path i → i ≤ (ofInsertions insertions).covered path :=
    fun i hi => le_covered hwf path hi.1 (isSome_typeAt_ofInsertions_iff.2 hi.2)
  by_cases hends : EndsAt insertions path ((ofInsertions insertions).covered path)
  · exact .inl ⟨hends, hupper⟩
  · rcases covered_eq_zero_or hwf path with hzero | ⟨hlt, htype⟩
    · refine .inr ⟨fun i hi => hends ?_, hzero⟩
      have hle := hupper i hi
      rw [hzero, Nat.le_zero] at hle
      rwa [hzero, ← hle]
    · exact absurd ⟨hlt, isSome_typeAt_ofInsertions_iff.1 htype⟩ hends

/-- Whatever is inserted in whatever order, the trie holds it. -/
theorem represents_ofInsertions (insertions : List Insertion) :
    (ofInsertions insertions).Represents insertions where
  depth_eq path node hnode := by
    rw [hnode.depth_eq (wellFormed_ofInsertions insertions), Nat.zero_add]
  mem_types_iff _ _ := mem_types_ofInsertions_iff
  mem_names_iff name := by
    simp only [List.mem_map, Prod.exists, mem_types_ofInsertions_iff]
    constructor
    · rintro ⟨type, implicit, ⟨hlatest, -⟩, hname⟩
      exact ⟨type, hlatest.mem, hname⟩
    · rintro ⟨type, hmem, rfl⟩
      obtain ⟨latest, hlatest, hname⟩ := exists_isLatest_of_mem hmem
      exact ⟨latest, decide (.package (".".intercalate latest.segments.dropLast) ∈ insertions),
        ⟨hlatest, by simp⟩, hname⟩
  nodup_names := by
    have hsorted := pairwise_types (wellFormed_ofInsertions insertions)
      (endsOwnPaths_ofInsertions insertions)
    refine List.pairwise_map.2 (hsorted.imp fun {a b} hlt hname => ?_)
    rw [Before, BinaryName.qualifiedName_eq_iff_segments_eq.1 hname] at hlt
    exact List.lt_irrefl _ hlt
  pairwise_types := pairwise_types (wellFormed_ofInsertions insertions)
    (endsOwnPaths_ofInsertions insertions)
  covered_or := covered_ofInsertions_or insertions

/-- One node is a type, a package and the way to two types, and it becomes a package last. -/
example :
    (ofInsertions [.type JavaLang.override, .type JavaLang.package, .type JavaLang.object,
      .package "java.lang"]).types =
        [(JavaLang.package, false), (JavaLang.object, true), (JavaLang.override, true)] := by
  decide +kernel

end ImportTrie

end ImmutableJava
