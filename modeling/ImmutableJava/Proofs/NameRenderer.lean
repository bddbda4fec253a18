import ImmutableJava.Import.Renderer
import ImmutableJava.Proofs.ImportTrie
import ImmutableJava.Proofs.QualifiedName
import ImmutableJava.Proofs.SimpleName

/-!
# What a renderer lists and spells

A renderer is made from a set of available types, and it is made exactly when no two
of them share a simple name (`ofAvailable_eq_ok_iff`).  Then no two of them share a
path in the trie either, so a path carries a type exactly when it is the path of an
available type (`typeAt_trieOf`), and the trie is never asked which of two insertions
came last.

From this the three things that a renderer answers follow:

* the types that need an import declaration are the available types outside
  `java.lang` and the unit's package, where the package of a type is read off its
  segments (`mem_importDeclarations_iff`);
* the others are the implicit ones (`mem_implicitTypes_iff`);
* a type is spelled from the last segment of the longest available type on that its
  segments start with, and in full if there is none (`render_eq_or`).
-/

namespace ImmutableJava

namespace ImportTrie

/-! ## Inserting the types of a list -/

theorem WellFormed.foldl_insertType {depth : Nat} {t : ImportTrie} (h : WellFormed depth t)
    (types : List BinaryName) :
    WellFormed depth (types.foldl (fun t type => t.insertType type) t) := by
  induction types generalizing t with
  | nil => exact h
  | cons type types ih => exact ih (h.insertType type)

/-- Of the types that end at a path the last one stays. -/
theorem typeAt_foldl_insertType {depth : Nat} {t : ImportTrie} (h : WellFormed depth t)
    (types : List BinaryName) (path : List String) :
    typeAt path (types.foldl (fun t type => t.insertType type) t) =
      (types.reverse.find? fun type => type.segments = path).or (typeAt path t) := by
  induction types generalizing t with
  | nil => rfl
  | cons type types ih =>
    rw [List.foldl_cons, ih (h.insertType type), List.reverse_cons, List.find?_append,
      Option.or_assoc, typeAt_insertType h]
    congr 1
    by_cases hpath : type.segments = path
    · simp [hpath]
    · simp [hpath, Ne.symm hpath]

theorem isPackageAt_foldl_insertType {depth : Nat} {t : ImportTrie} (h : WellFormed depth t)
    (types : List BinaryName) (path : List String) :
    isPackageAt path (types.foldl (fun t type => t.insertType type) t) = isPackageAt path t := by
  induction types generalizing t with
  | nil => rfl
  | cons type types ih => rw [List.foldl_cons, ih (h.insertType type), isPackageAt_insertType h]

end ImportTrie

namespace NameRenderer

open ImportTrie

variable {packageName : String} {types : SortedSet BinaryName}

/-! ## The trie of a renderer -/

/-- Simple names identify the types of a set. -/
def DistinctSimpleNames (types : SortedSet BinaryName) : Prop :=
  ∀ t ∈ types, ∀ u ∈ types, u.simpleName = t.simpleName → u = t

theorem DistinctSimpleNames.eq_of_segments_eq (h : DistinctSimpleNames types) {t u : BinaryName}
    (ht : t ∈ types) (hu : u ∈ types) (hsegments : u.segments = t.segments) : u = t := by
  refine h t ht u hu ?_
  rw [BinaryName.segments_eq_concat, BinaryName.segments_eq_concat] at hsegments
  exact List.cons.inj (List.append_inj_right' hsegments rfl) |>.1

theorem wellFormed_trieOf (packageName : String) (types : SortedSet BinaryName) :
    WellFormed 0 (trieOf packageName types) :=
  ((WellFormed.foldl_insertType wellFormed_empty types.toList).insertPackage _).insertPackage _

/-- A path of the trie carries a type exactly when it is the type's own path. -/
theorem typeAt_trieOf (h : DistinctSimpleNames types) {path : List String} {t : BinaryName} :
    typeAt path (trieOf packageName types) = some t ↔ t ∈ types ∧ t.segments = path := by
  have hwf := WellFormed.foldl_insertType wellFormed_empty types.toList
  rw [trieOf, typeAt_insertPackage (hwf.insertPackage _), typeAt_insertPackage hwf,
    typeAt_foldl_insertType wellFormed_empty, typeAt_empty, Option.or_none]
  constructor
  · intro hfind
    have hmem := List.mem_of_find?_eq_some hfind
    exact ⟨by simpa using hmem, by simpa using List.find?_some hfind⟩
  · rintro ⟨ht, hpath⟩
    cases hfind : types.toList.reverse.find? fun type => type.segments = path with
    | none => exact absurd hpath (by simpa using List.find?_eq_none.1 hfind t (by simpa using ht))
    | some u =>
      have hu : u ∈ types := by simpa using List.mem_of_find?_eq_some hfind
      have hsegments : u.segments = path := by simpa using List.find?_some hfind
      rw [h.eq_of_segments_eq ht hu (hsegments.trans hpath.symm)]

theorem isPackageAt_trieOf (packageName : String) (types : SortedSet BinaryName)
    (path : List String) :
    isPackageAt path (trieOf packageName types) = true ↔
      path = packagePath packageName ∨ path = packagePath JavaLang.packageName := by
  have hwf := WellFormed.foldl_insertType wellFormed_empty types.toList
  rw [trieOf, isPackageAt_insertPackage (hwf.insertPackage _), isPackageAt_insertPackage hwf,
    isPackageAt_foldl_insertType wellFormed_empty, isPackageAt_empty]
  simp

/-- Whether a type stands in `java.lang` or in the unit's package, going by its
segments. -/
def IsImplicit (packageName : String) (t : BinaryName) : Prop :=
  t.containerName = packageName ∨ t.containerName = JavaLang.packageName

theorem parentMark_trieOf (packageName : String) (types : SortedSet BinaryName)
    (t : BinaryName) :
    parentMark false t.segments (trieOf packageName types) = true ↔ IsImplicit packageName t := by
  rw [parentMark, if_neg t.segments_ne_nil, BinaryName.dropLast_segments, isPackageAt_trieOf,
    BinaryName.containerSegments_eq_packagePath_iff,
    BinaryName.containerSegments_eq_packagePath_iff, IsImplicit]

/-- The walk over the trie visits the available types, and knows the implicit ones. -/
theorem mem_types_trieOf_iff (h : DistinctSimpleNames types) {t : BinaryName} {implicit : Bool} :
    (t, implicit) ∈ (trieOf packageName types).types ↔
      t ∈ types ∧ (implicit = true ↔ IsImplicit packageName t) := by
  rw [mem_types_iff (wellFormed_trieOf _ _)]
  constructor
  · rintro ⟨path, htype, rfl⟩
    obtain ⟨ht, rfl⟩ := (typeAt_trieOf h).1 htype
    exact ⟨ht, parentMark_trieOf packageName types t⟩
  · rintro ⟨ht, himplicit⟩
    refine ⟨t.segments, (typeAt_trieOf h).2 ⟨ht, rfl⟩, ?_⟩
    rw [Bool.eq_iff_iff, himplicit, parentMark_trieOf]

/-! ## Making a renderer -/

/-- The renderer of a unit, made without asking whether the types can be available
together. -/
def ofTypes (packageName : String) (types : SortedSet BinaryName) : NameRenderer where
  packageName := packageName
  trie := trieOf packageName types
  importDeclarations := ((trieOf packageName types).types.filter fun t => !t.2).map (·.1)
  implicitTypes := SortedSet.ofList (((trieOf packageName types).types.filter (·.2)).map (·.1))

/-- There is a renderer exactly when simple names identify the available types. -/
theorem ofAvailable_eq_ok_iff {available : List BinaryName} {r : NameRenderer} :
    ofAvailable packageName available = .ok r ↔
      DistinctSimpleNames (SortedSet.ofList available) ∧
        r = ofTypes packageName (SortedSet.ofList available) := by
  rw [DistinctSimpleNames, ← checkDistinct_eq_ok_iff, ofAvailable]
  cases checkDistinct (SortedSet.ofList available) with
  | error e => simp [bind, Except.bind]
  | ok =>
    simp only [bind, Except.bind, pure, Except.pure, Except.ok.injEq, true_and]
    exact eq_comm

/-- The import declarations are the available types that are not implicit. -/
theorem mem_importDeclarations_iff (h : DistinctSimpleNames types) {t : BinaryName} :
    t ∈ (ofTypes packageName types).importDeclarations ↔
      t ∈ types ∧ ¬ IsImplicit packageName t := by
  have hmem : t ∈ (ofTypes packageName types).importDeclarations ↔
      (t, false) ∈ (trieOf packageName types).types := by simp [ofTypes]
  rw [hmem, mem_types_trieOf_iff h]
  simp

/-- The other available types need no import declaration. -/
theorem mem_implicitTypes_iff (h : DistinctSimpleNames types) {t : BinaryName} :
    t ∈ (ofTypes packageName types).implicitTypes ↔ t ∈ types ∧ IsImplicit packageName t := by
  have hmem : t ∈ (ofTypes packageName types).implicitTypes ↔
      (t, true) ∈ (trieOf packageName types).types := by simp [ofTypes]
  rw [hmem, mem_types_trieOf_iff h]
  simp

section Available

variable {available : List BinaryName} {r : NameRenderer} {t : BinaryName}

theorem mem_importDeclarations_of_ofAvailable (h : ofAvailable packageName available = .ok r) :
    t ∈ r.importDeclarations ↔ t ∈ available ∧ ¬ IsImplicit packageName t := by
  obtain ⟨hdistinct, rfl⟩ := ofAvailable_eq_ok_iff.1 h
  rw [mem_importDeclarations_iff hdistinct, SortedSet.mem_ofList]

theorem mem_implicitTypes_of_ofAvailable (h : ofAvailable packageName available = .ok r) :
    t ∈ r.implicitTypes ↔ t ∈ available ∧ IsImplicit packageName t := by
  obtain ⟨hdistinct, rfl⟩ := ofAvailable_eq_ok_iff.1 h
  rw [mem_implicitTypes_iff hdistinct, SortedSet.mem_ofList]

end Available

/-! ## Spelling -/

theorem covered_trieOf (packageName : String) (h : DistinctSimpleNames types) {a t : BinaryName}
    (ha : a ∈ types) (hstart : a.segments <+: t.segments) :
    ∃ b ∈ types, b.segments <+: t.segments ∧ a.segments.length ≤ b.segments.length ∧
      (trieOf packageName types).covered t.segments + 1 = b.segments.length := by
  have hwf := wellFormed_trieOf packageName types
  have hpos : 0 < a.segments.length := List.length_pos_of_ne_nil a.segments_ne_nil
  have hlength := hstart.length_le
  -- the walk passes the end of `a`, so it stops at a type that is no shorter
  have hat : (typeAt (t.segments.take (a.segments.length - 1 + 1))
      (trieOf packageName types)).isSome = true := by
    rw [Nat.sub_add_cancel hpos, ← List.prefix_iff_eq_take.1 hstart,
      (typeAt_trieOf h).2 ⟨ha, rfl⟩]
    rfl
  have hle := le_covered hwf t.segments (by omega) hat
  have hend : (trieOf packageName types).covered t.segments < t.segments.length ∧
      (typeAt (t.segments.take ((trieOf packageName types).covered t.segments + 1))
        (trieOf packageName types)).isSome = true := by
    rcases covered_eq_zero_or hwf t.segments with hzero | hend
    · have hone : a.segments.length - 1 + 1 = 0 + 1 := by omega
      rw [hone] at hat
      rw [hzero]
      exact ⟨by omega, hat⟩
    · exact hend
  obtain ⟨b, hb⟩ := Option.isSome_iff_exists.1 hend.2
  obtain ⟨hmem, hsegments⟩ := (typeAt_trieOf h).1 hb
  refine ⟨b, hmem, ?_, ?_, ?_⟩
  · rw [hsegments]
    exact List.take_prefix _ _
  · rw [hsegments, List.length_take]
    omega
  · rw [hsegments, List.length_take]
    omega

/-- A type is spelled from the last segment of the longest available type on that its
segments start with, and in full if they start with none. -/
theorem render_eq_or (h : DistinctSimpleNames types) (t : BinaryName) :
    (∃ a ∈ types, (∀ b ∈ types, b.segments <+: t.segments →
        b.segments.length ≤ a.segments.length) ∧
      ∃ rest, t.segments = a.segments ++ rest ∧
        (ofTypes packageName types).render t = ".".intercalate (a.simpleName :: rest)) ∨
      (∀ a ∈ types, ¬ a.segments <+: t.segments) ∧
        (ofTypes packageName types).render t = t.qualifiedName := by
  by_cases hsome : ∃ a ∈ types, a.segments <+: t.segments
  · obtain ⟨a, ha, hstart⟩ := hsome
    obtain ⟨b, hb, hbstart, -, hcovered⟩ := covered_trieOf packageName h ha hstart
    obtain ⟨rest, hrest⟩ := hbstart
    refine .inl ⟨b, hb, fun c hc hcstart => ?_, rest, hrest.symm, ?_⟩
    · obtain ⟨d, -, -, hle, hcovered'⟩ := covered_trieOf packageName h hc hcstart
      omega
    · have hdrop : t.segments.drop ((trieOf packageName types).covered t.segments) =
          b.simpleName :: rest := by
        have hlength : (trieOf packageName types).covered t.segments =
            b.containerSegments.length := by
          rw [b.segments_eq_concat, List.length_append] at hcovered
          simpa using hcovered
        rw [hlength, ← hrest, b.segments_eq_concat, List.append_assoc, List.drop_left]
        rfl
      rw [render, ofTypes, hdrop]
  · have hnone : ∀ a ∈ types, ¬ a.segments <+: t.segments := fun a ha hstart =>
      hsome ⟨a, ha, hstart⟩
    refine .inr ⟨hnone, ?_⟩
    have hzero : (trieOf packageName types).covered t.segments = 0 := by
      rcases covered_eq_zero_or (wellFormed_trieOf packageName types) t.segments with hzero | hend
      · exact hzero
      · obtain ⟨a, ha⟩ := Option.isSome_iff_exists.1 hend.2
        obtain ⟨hmem, hsegments⟩ := (typeAt_trieOf h).1 ha
        exact absurd (hsegments ▸ List.take_prefix _ _) (hnone a hmem)
    rw [render, ofTypes, hzero, List.drop_zero, BinaryName.qualifiedName_eq]

end NameRenderer

end ImmutableJava
