import ImmutableJava.Proofs.ImportDeclarations

/-!
# Types that are to be available together

Whoever asks for a renderer lists the types that are to have short names.  One of two things
comes back.

* **A complete account of the conflicts.**  If two different types of the list bear one simple
  name, there is no renderer.  The error has every shared simple name once, in increasing
  order, and with each of them all the types of the list that bear it
  (`ConflictError.ListsConflicts`).
* **All of the types.**  Otherwise every type is listed once, either among the import
  declarations or among the implicit types, and no other type is listed
  (`NameRenderer.ListsAvailable`).

The types of the list may be nested, and then the package of a type is not what decides
whether it is implicit.  The trie knows paths only: a type is implicit if the path above it
is that of `java.lang` or of the unit's package.  So a type nested in `a.B` is implicit in a
package that has the name `a.B`.

## Types with one qualified name

A path of the trie has room for one type, and `a.B` and `a$B` have the same path.  If both were
inserted, one of them would be lost without a trace.  They have the same simple name, though,
so the check for conflicts refuses them before there is a trie.
-/

namespace ImmutableJava

namespace SimpleName

/-- A list has the shared names of the set of its members. -/
theorem isShared_toList_ofList_iff {types : List BinaryName} {name : String} :
    IsShared (SortedSet.ofList types).toList name ↔ IsShared types name := by
  simp only [IsShared, SortedSet.mem_toList, SortedSet.mem_ofList]

/-- Each group has its own name. -/
theorem nodup_map_fst_conflicts (types : List BinaryName) :
    ((conflicts types).map (·.1)).Nodup :=
  (nodup_map_fst_groups types).sublist (List.filter_sublist.map _)

end SimpleName

/-! ## The error -/

namespace ConflictError

open SimpleName

variable {groups : List Group}

theorem mem_ofGroups_iff {name : String} {bearers : SortedSet BinaryName} :
    (name, bearers) ∈ (ofGroups groups).conflicts ↔
      ∃ members, (name, members) ∈ groups ∧ bearers = SortedSet.ofList members := by
  simp only [ofGroups, List.mem_map, List.mem_mergeSort]
  constructor
  · rintro ⟨⟨name, members⟩, hmem, heq⟩
    cases heq
    exact ⟨members, hmem, rfl⟩
  · rintro ⟨members, hmem, rfl⟩
    exact ⟨(name, members), hmem, rfl⟩

theorem compare_ne_gt_iff {a b : String} : (compare a b != .gt) = true ↔ a ≤ b := by
  rw [bne_iff_ne, compare_le_iff_le]

/-- Groups with names of their own are listed in the order of the names. -/
theorem pairwise_ofGroups (h : (groups.map (·.1)).Nodup) :
    (ofGroups groups).conflicts.Pairwise fun a b => a.1 < b.1 := by
  have htrans (a b c : Group) (hab : (compare a.1 b.1 != .gt) = true)
      (hbc : (compare b.1 c.1 != .gt) = true) : (compare a.1 c.1 != .gt) = true :=
    compare_ne_gt_iff.2 ((compare_ne_gt_iff.1 hab).trans (compare_ne_gt_iff.1 hbc))
  have htotal (a b : Group) : (compare a.1 b.1 != .gt || compare b.1 a.1 != .gt) = true := by
    rw [Bool.or_eq_true, compare_ne_gt_iff, compare_ne_gt_iff]
    exact le_total _ _
  have hle := List.pairwise_mergeSort htrans htotal groups
  have hperm := List.mergeSort_perm groups fun a b => compare a.1 b.1 != .gt
  have hne := List.pairwise_map.1 ((hperm.map (·.1)).nodup_iff.2 h)
  refine List.pairwise_map.2 ((hle.and hne).imp fun {a b} hab => ?_)
  exact lt_of_le_of_ne (compare_ne_gt_iff.1 hab.1) hab.2

/-- The error lists the shared simple names of the types, each with all the types that bear
it. -/
structure ListsConflicts (e : ConflictError) (types : List BinaryName) : Prop where
  pairwise : e.conflicts.Pairwise fun a b => a.1 < b.1
  mem_iff : ∀ name bearers, (name, bearers) ∈ e.conflicts ↔
    IsShared types name ∧ ∀ t, t ∈ bearers ↔ t ∈ types ∧ t.simpleName = name

end ConflictError

namespace NameRenderer

open BinaryName SimpleName

variable {packageName : String} {available : List BinaryName}

/-! ## No renderer -/

theorem ofAvailable_eq_error_iff {e : ConflictError} :
    ofAvailable packageName available = .error e ↔
      conflicts (SortedSet.ofList available).toList ≠ [] ∧
        e = .ofGroups (conflicts (SortedSet.ofList available).toList) := by
  rw [ofAvailable, checkDistinct]
  cases conflicts (SortedSet.ofList available).toList with
  | nil => simp [bind, Except.bind, pure, Except.pure]
  | cons group groups => simp [bind, Except.bind, eq_comm]

/-- There is no renderer exactly if a simple name is shared. -/
theorem exists_ofAvailable_eq_error_iff :
    (∃ e, ofAvailable packageName available = .error e) ↔ ∃ name, IsShared available name := by
  have hnodup := (SortedSet.ofList available).nodup_toList
  constructor
  · rintro ⟨e, he⟩
    obtain ⟨hne, -⟩ := ofAvailable_eq_error_iff.1 he
    obtain ⟨⟨name, members⟩, hmem⟩ := List.exists_mem_of_ne_nil _ hne
    exact ⟨name, isShared_toList_ofList_iff.1 ((mem_conflicts_iff hnodup).1 hmem).1⟩
  · rintro ⟨name, hshared⟩
    have hmem := (mem_conflicts_iff hnodup).2 ⟨isShared_toList_ofList_iff.2 hshared, rfl⟩
    exact ⟨_, ofAvailable_eq_error_iff.2 ⟨List.ne_nil_of_mem hmem, rfl⟩⟩

theorem listsConflicts_of_ofAvailable {e : ConflictError}
    (h : ofAvailable packageName available = .error e) : e.ListsConflicts available := by
  obtain ⟨-, rfl⟩ := ofAvailable_eq_error_iff.1 h
  have hnodup := (SortedSet.ofList available).nodup_toList
  refine ⟨ConflictError.pairwise_ofGroups (nodup_map_fst_conflicts _), fun name bearers => ?_⟩
  rw [ConflictError.mem_ofGroups_iff]
  constructor
  · rintro ⟨members, hmem, rfl⟩
    obtain ⟨hshared, rfl⟩ := (mem_conflicts_iff hnodup).1 hmem
    exact ⟨isShared_toList_ofList_iff.1 hshared, fun t => by simp [mem_bearers]⟩
  · rintro ⟨hshared, hbearers⟩
    refine ⟨_, (mem_conflicts_iff hnodup).2 ⟨isShared_toList_ofList_iff.2 hshared, rfl⟩, ?_⟩
    refine SortedSet.ext_mem fun t => ?_
    rw [hbearers]
    simp [mem_bearers]

/-! ## A renderer -/

/-- A renderer lists each of the types once and nothing else, and knows the implicit ones by
what stands before the last segment of their qualified names. -/
structure ListsAvailable (r : NameRenderer) (packageName : String) (types : List BinaryName) :
    Prop where
  nodup : (r.importDeclarations ++ r.implicitTypes.toList).Nodup
  mem_iff : ∀ t, t ∈ r.importDeclarations ++ r.implicitTypes.toList ↔ t ∈ types
  implicit_iff : ∀ t ∈ types,
    (t ∈ r.implicitTypes ↔ t.containerName = "java.lang" ∨ t.containerName = packageName)

theorem listsAvailable_of_ofAvailable {r : NameRenderer}
    (h : ofAvailable packageName available = .ok r) : r.ListsAvailable packageName available := by
  refine ⟨List.nodup_append.2 ⟨?_, SortedSet.nodup_toList _, ?_⟩, fun t => ?_, fun t ht => ?_⟩
  · obtain ⟨hdistinct, rfl⟩ := ofAvailable_eq_ok_iff.1 h
    exact nodup_importDeclarations hdistinct
  · rintro t hdeclared u himplicit rfl
    exact ((mem_importDeclarations_of_ofAvailable h).1 hdeclared).2
      ((mem_implicitTypes_of_ofAvailable h).1 himplicit).2
  · rw [List.mem_append, SortedSet.mem_toList, mem_importDeclarations_of_ofAvailable h,
      mem_implicitTypes_of_ofAvailable h, ← and_or_left]
    exact and_iff_left (em' _)
  · rw [mem_implicitTypes_of_ofAvailable h, IsImplicit, or_comm]
    exact and_iff_right ht

/-- A list of types has a renderer that lists all of them, or an error that lists all of the
shared names; and which of the two depends only on whether there is a shared name. -/
theorem ofAvailable_cases (packageName : String) (available : List BinaryName) :
    ((∃ e, ofAvailable packageName available = .error e) ↔ ∃ name, IsShared available name) ∧
      (∀ e, ofAvailable packageName available = .error e → e.ListsConflicts available) ∧
      ∀ r, ofAvailable packageName available = .ok r → r.ListsAvailable packageName available :=
  ⟨exists_ofAvailable_eq_error_iff, fun _ => listsConflicts_of_ofAvailable,
    fun _ => listsAvailable_of_ofAvailable⟩

/-- Two types with one qualified name are a conflict.  Without the second of them there is a
renderer, and in a package with the name of a type, what is nested in that type is
implicit. -/
theorem ofAvailable_cases_nested :
    ∃ (outer inner twin : BinaryName) (e : ConflictError) (r : NameRenderer),
      outer.text = "a.B" ∧ inner.text = "a.B$C" ∧ twin.text = "a.B.C" ∧
      ofAvailable "a.B" [outer, inner, twin] = .error e ∧
      (∃ bearers, ("C", bearers) ∈ e.conflicts ∧ inner ∈ bearers ∧ twin ∈ bearers) ∧
      (∀ bearers, ("B", bearers) ∉ e.conflicts) ∧
      ofAvailable "a.B" [outer, inner] = .ok r ∧
      outer ∈ r.importDeclarations ∧ inner ∈ r.implicitTypes := by
  obtain ⟨outer, inner, twin, houter, hinner, htwin, hne, hnames, hcontainers, hdistinct⟩ :
      ∃ outer inner twin : BinaryName, outer.text = "a.B" ∧ inner.text = "a.B$C" ∧
        twin.text = "a.B.C" ∧ twin ≠ inner ∧
        [outer, inner, twin].map simpleName = ["B", "C", "C"] ∧
        [outer, inner].map containerName = ["a", "a.B"] ∧
        DistinctSimpleNames (SortedSet.ofList [outer, inner]) :=
    ⟨.dotted (.root ⟨"a", by simp, by simp⟩) ⟨"B", by simp, by simp⟩,
      .nested (.dotted (.root ⟨"a", by simp, by simp⟩) ⟨"B", by simp, by simp⟩)
        ⟨"C", by simp, by simp⟩,
      .dotted (.dotted (.root ⟨"a", by simp, by simp⟩) ⟨"B", by simp, by simp⟩)
        ⟨"C", by simp, by simp⟩,
      by decide, by decide, by decide, by decide, by decide, by decide +kernel,
      (conflicts_eq_nil_iff (SortedSet.nodup_toList _)).1 (by decide +kernel)⟩
  simp only [List.map_cons, List.map_nil, List.cons.injEq, and_true] at hnames hcontainers
  obtain ⟨hB, hC, hC'⟩ := hnames
  obtain ⟨hsome, herror, -⟩ := ofAvailable_cases "a.B" [outer, inner, twin]
  obtain ⟨e, he⟩ := hsome.2 ⟨"C", inner, by simp, twin, by simp, hne, hC, hC'⟩
  obtain ⟨-, hconflicts⟩ := herror e he
  have hok := (@ofAvailable_eq_ok_iff "a.B" [outer, inner] _).2 ⟨hdistinct, rfl⟩
  obtain ⟨-, -, hlists⟩ := ofAvailable_cases "a.B" [outer, inner]
  obtain ⟨-, hmem, himplicit⟩ := hlists _ hok
  refine ⟨outer, inner, twin, e, _, houter, hinner, htwin, he,
    ⟨SortedSet.ofList [inner, twin], (hconflicts _ _).2 ⟨?_, fun t => ?_⟩, by simp, by simp⟩,
    fun bearers hB' => ?_, hok, ?_, (himplicit inner (by simp)).2 (.inr hcontainers.2)⟩
  · exact ⟨inner, by simp, twin, by simp, hne, hC, hC'⟩
  · rw [SortedSet.mem_ofList]
    grind
  · obtain ⟨⟨t, ht, u, hu, hut, htname, huname⟩, -⟩ := (hconflicts _ _).1 hB'
    grind
  · refine (List.mem_append.1 ((hmem outer).2 (by simp))).resolve_right fun h => ?_
    have hcontainer := (himplicit outer (by simp)).1 (SortedSet.mem_toList.1 h)
    rw [hcontainers.1] at hcontainer
    exact absurd hcontainer (by decide)

end NameRenderer

end ImmutableJava
