import ImmutableJava.Proofs.Qualification
import Mathlib.Data.String.Basic

/-!
# The import declarations of a unit

A unit has two accounts of its imports.  The qualifier compares package names and lists
the types in their own order; the renderer marks packages in the trie and lists the types
as it walks over it.  Both mean the same types (`exists_renderer_mem_importDeclarations_iff`),
and the renderer lists each type once, because a walk over the trie never repeats a path.

## The order of a walk

Children are visited in increasing order of their segments, and a node before its
children.  So a walk lists types in the lexicographic order of their segments
(`pairwise_types`), whatever the segments consist of.

That is the order of qualified names as long as the dot is smaller than every character of
a segment: a segment that ends is followed by a dot or by nothing, and a longer segment by
something greater (`qualifiedName_lt_of_segments_lt`).  Letters, digits and the underscore
are greater than the dot.  A few characters that a segment may have are not, the hyphen
among them, and then the two orders differ: `a` comes before `a-b`, and `a.B` after
`a-b.C` (`importDeclarations_ne_importedTypes_hyphen`).
-/

namespace ImmutableJava

namespace ImportTrie

/-! ## Walks in order -/

/-- The types below a node end at their own paths, where the node stands at `path`. -/
def EndsOwnPaths (path : List String) (t : ImportTrie) : Prop :=
  ∀ q type, typeAt q t = some type → type.segments = path ++ q

theorem EndsOwnPaths.of_child? {path : List String} {t : ImportTrie} (h : EndsOwnPaths path t)
    {segment : String} {child : ImportTrie} (hchild : t.child? segment = some child) :
    EndsOwnPaths (path ++ [segment]) child := by
  intro q type htype
  have hsegments := h (segment :: q) type (by rw [typeAt_cons_of_child? hchild]; exact htype)
  rw [hsegments, List.append_assoc, List.singleton_append]

theorem EndsOwnPaths.exists_segments_eq {path : List String} {t : ImportTrie}
    (h : EndsOwnPaths path t) {depth : Nat} (hwf : WellFormed depth t) {top : Bool}
    {entry : BinaryName × Bool} (hentry : entry ∈ typesFrom top t) :
    ∃ q, entry.1.segments = path ++ q := by
  obtain ⟨q, htype, -⟩ := (mem_typesFrom_iff hwf).1 hentry
  exact ⟨q, h q entry.1 htype⟩

/-- One type is visited before another. -/
def Before (a b : BinaryName × Bool) : Prop := a.1.segments < b.1.segments

/-- The walk over a list of children, one child after the other. -/
theorem pairwise_typesBelow {path : List String} {top : Bool}
    {children : List (String × ImportTrie)}
    (sorted : children.Pairwise fun a b => compare a.1 b.1 = .lt)
    (hwalk : ∀ c ∈ children, (typesFrom top c.2).Pairwise Before)
    (hpath : ∀ c ∈ children, ∀ entry ∈ typesFrom top c.2,
      ∃ q, entry.1.segments = path ++ c.1 :: q) :
    (typesBelow top children).Pairwise Before := by
  induction children with
  | nil => exact .nil
  | cons c rest ih =>
    obtain ⟨hlt, hsorted⟩ := List.pairwise_cons.1 sorted
    obtain ⟨hwalkc, hwalkrest⟩ := List.forall_mem_cons.1 hwalk
    obtain ⟨hpathc, hpathrest⟩ := List.forall_mem_cons.1 hpath
    rw [typesBelow]
    refine List.pairwise_append.2 ⟨hwalkc, ih hsorted hwalkrest hpathrest, ?_⟩
    intro a ha b hb
    obtain ⟨c', hc', hb'⟩ := mem_typesBelow_iff.1 hb
    obtain ⟨q, hq⟩ := hpathc a ha
    obtain ⟨q', hq'⟩ := hpathrest c' hc' b hb'
    have hsegment : c.1 < c'.1 := compare_lt_iff_lt.1 (hlt c' hc')
    rw [Before, hq, hq']
    exact List.append_left_lt (List.cons_lt_cons_iff.2 (.inl hsegment))

/-- A walk visits types in the lexicographic order of their segments. -/
theorem pairwise_typesFrom {depth : Nat} {t : ImportTrie} (h : WellFormed depth t)
    {path : List String} (hown : EndsOwnPaths path t) (top : Bool) :
    (typesFrom top t).Pairwise Before := by
  induction h generalizing path top with
  | @node depth type? mark children sorted below ih =>
    have hwf : WellFormed depth (.node depth type? mark children) := .node sorted below
    have hchild : ∀ c ∈ children, EndsOwnPaths (path ++ [c.1]) c.2 := fun c hc =>
      hown.of_child? (hwf.child?_eq_some_iff.2 hc)
    have hbelow : ∀ c ∈ children, ∀ entry ∈ typesFrom mark c.2,
        ∃ q, entry.1.segments = path ++ c.1 :: q := by
      intro c hc entry hentry
      obtain ⟨q, hq⟩ := (hchild c hc).exists_segments_eq (below c hc) hentry
      exact ⟨q, by rw [hq, List.append_assoc, List.singleton_append]⟩
    rw [typesFrom]
    refine List.pairwise_append.2 ⟨?_, ?_, ?_⟩
    · cases type? with
      | none => exact .nil
      | some type => exact List.pairwise_singleton _ _
    · exact pairwise_typesBelow sorted (fun c hc => ih c hc (hchild c hc) mark) hbelow
    · -- the node's own type ends where the paths of its children go on
      intro a ha b hb
      obtain ⟨type, rfl, rfl⟩ := Option.map_eq_some_iff.1 (Option.mem_toList.1 ha)
      obtain ⟨c, hc, hb'⟩ := mem_typesBelow_iff.1 hb
      obtain ⟨q, hq⟩ := hbelow c hc b hb'
      rw [Before, hown [] type rfl, hq]
      exact List.append_left_lt (List.nil_lt_cons _ _)

theorem pairwise_types {t : ImportTrie} (h : WellFormed 0 t) (hown : EndsOwnPaths [] t) :
    t.types.Pairwise Before :=
  pairwise_typesFrom h hown false

end ImportTrie

namespace NameRenderer

variable {packageName : String} {types : SortedSet BinaryName}

/-- The import declarations are increasing in the lexicographic order of segments. -/
theorem pairwise_importDeclarations (h : DistinctSimpleNames types) :
    (ofTypes packageName types).importDeclarations.Pairwise fun a b =>
      a.segments < b.segments := by
  have hown : ImportTrie.EndsOwnPaths [] (trieOf packageName types) := fun q type htype =>
    ((typeAt_trieOf h).1 htype).2
  have hwalk := ImportTrie.pairwise_types (wellFormed_trieOf packageName types) hown
  exact List.pairwise_map.2 (hwalk.filter _)

/-- No import is declared twice. -/
theorem nodup_importDeclarations (h : DistinctSimpleNames types) :
    (ofTypes packageName types).importDeclarations.Nodup := by
  refine (pairwise_importDeclarations h).imp fun {a b} hlt => ?_
  rintro rfl
  exact List.lt_irrefl _ hlt

end NameRenderer

/-! ## The order of names -/

namespace BinaryName

/-- A segment with the dot in front of it. -/
def dottedChars (segment : String) : List Char := '.' :: segment.toList

/-- Behind a dot, a qualified name is its segments, each behind a dot. -/
theorem dot_cons_qualifiedName (n : BinaryName) :
    '.' :: n.qualifiedName.toList = n.segments.flatMap dottedChars := by
  induction n with
  | root s => simp [qualifiedName, segments, dottedChars]
  | dotted p s ih =>
    rw [segments, List.flatMap_append, ← ih]
    simp [qualifiedName, dottedChars]
  | nested o s ih =>
    rw [segments, List.flatMap_append, ← ih]
    simp [qualifiedName, dottedChars]

/-- A smaller text stays smaller whatever follows the two, if nothing or a smaller
character than those of the greater text follows it. -/
theorem append_lt_append {cs ds xs : List Char} (h : cs < ds) (hds : ∀ d ∈ ds, '.' < d)
    (hxs : ∀ x ∈ xs.head?, x = '.') (ys : List Char) : cs ++ xs < ds ++ ys := by
  induction cs generalizing ds with
  | nil =>
    cases ds with
    | nil => exact absurd h (List.lt_irrefl _)
    | cons d ds =>
      cases xs with
      | nil => exact List.nil_lt_cons _ _
      | cons x xs =>
        have hx : x = '.' := hxs x rfl
        exact List.cons_lt_cons_iff.2 (.inl (hx ▸ hds d List.mem_cons_self))
  | cons c cs ih =>
    cases ds with
    | nil => exact absurd h (List.not_lt_nil _)
    | cons d ds =>
      rcases List.cons_lt_cons_iff.1 h with hlt | ⟨heq, hlt⟩
      · exact List.cons_lt_cons_iff.2 (.inl hlt)
      · exact List.cons_lt_cons_iff.2
          (.inr ⟨heq, ih hlt fun e he => hds e (List.mem_cons_of_mem _ he)⟩)

/-- Joining with dots keeps the order of lists whose texts have characters above the dot
only. -/
theorem flatMap_dottedChars_lt {l m : List String} (h : l < m)
    (hm : ∀ s ∈ m, ∀ c ∈ s.toList, '.' < c) :
    l.flatMap dottedChars < m.flatMap dottedChars := by
  induction l generalizing m with
  | nil =>
    cases m with
    | nil => exact absurd h (List.lt_irrefl _)
    | cons t m => exact List.nil_lt_cons _ _
  | cons s l ih =>
    cases m with
    | nil => exact absurd h (List.not_lt_nil _)
    | cons t m =>
      obtain ⟨ht, hrest⟩ := List.forall_mem_cons.1 hm
      have hhead : ∀ x ∈ (l.flatMap dottedChars).head?, x = '.' := by
        intro x hx
        cases l with
        | nil => cases hx
        | cons u l => exact (Option.some.inj hx).symm
      simp only [List.flatMap_cons, dottedChars, List.cons_append]
      refine List.cons_lt_cons_iff.2 (.inr ⟨rfl, ?_⟩)
      rcases List.cons_lt_cons_iff.1 h with hlt | ⟨rfl, hlt⟩
      · exact append_lt_append (String.lt_iff_toList_lt.1 hlt) ht hhead _
      · exact List.append_left_lt (ih hlt hrest)

/-- The order of segments is the order of qualified names, as long as no character of the
greater name is smaller than the dot. -/
theorem qualifiedName_lt_of_segments_lt {m n : BinaryName} (h : m.segments < n.segments)
    (hn : ∀ c ∈ n.qualifiedName.toList, '.' ≤ c) : m.qualifiedName < n.qualifiedName := by
  have hsegments : ∀ s ∈ n.segments, ∀ c ∈ s.toList, '.' < c := by
    intro s hs c hc
    have hmem : c ∈ '.' :: n.qualifiedName.toList := by
      rw [dot_cons_qualifiedName]
      exact List.mem_flatMap.2 ⟨s, hs, List.mem_cons_of_mem _ hc⟩
    have hne : c ≠ '.' := ne_dot_of_mem_segments hs c hc
    have hle : '.' ≤ c := by
      rcases List.mem_cons.1 hmem with rfl | hmem
      · exact absurd rfl hne
      · exact hn c hmem
    exact lt_of_le_of_ne hle (Ne.symm hne)
  have hlt := flatMap_dottedChars_lt h hsegments
  rw [← dot_cons_qualifiedName, ← dot_cons_qualifiedName] at hlt
  rcases List.cons_lt_cons_iff.1 hlt with hdot | ⟨-, hlt⟩
  · exact absurd hdot (by decide)
  · exact String.lt_iff_toList_lt.2 hlt

end BinaryName

namespace TypeQualifier

variable {q : TypeQualifier}

/-- The qualifier lists the imported types in the order of types. -/
theorem pairwise_importedTypes (q : TypeQualifier) :
    q.importedTypes.Pairwise fun a b => compare a b = .lt :=
  q.unqualifiedTypes.sorted.filter _

/-- The renderer declares the imports in the lexicographic order of their segments. -/
theorem pairwise_importDeclarations_renderer (h : q.IsProjected) :
    q.renderer.importDeclarations.Pairwise fun a b => a.segments < b.segments :=
  NameRenderer.pairwise_importDeclarations (distinctSimpleNames_availableTypes h)

/-- The import declarations are in the order of qualified names if no imported type has a
character below the dot. -/
theorem pairwise_qualifiedName_importDeclarations (h : q.IsProjected)
    (hdot : ∀ t ∈ q.importedTypes, ∀ c ∈ t.qualifiedName.toList, '.' ≤ c) :
    q.renderer.importDeclarations.Pairwise fun a b => a.qualifiedName < b.qualifiedName := by
  refine (pairwise_importDeclarations_renderer h).imp_of_mem fun {a b} _ hb hlt => ?_
  exact BinaryName.qualifiedName_lt_of_segments_lt hlt
    (hdot b ((mem_importDeclarations_renderer_iff h).1 hb))

/-- Import declarations in the order of qualified names are the list of the qualifier. -/
theorem importDeclarations_eq_of_pairwise (h : q.IsProjected)
    (hsorted : q.renderer.importDeclarations.Pairwise fun a b =>
      a.qualifiedName < b.qualifiedName) :
    q.renderer.importDeclarations = q.importedTypes := by
  refine SortedSet.eq_of_mem_iff_of_pairwise (hsorted.imp fun {a b} hlt => ?_)
    q.pairwise_importedTypes fun t => mem_importDeclarations_renderer_iff h
  exact BinaryName.compare_eq_lt_of_qualifiedName (compare_lt_iff_lt.2 hlt)

/-! ## The two accounts of a unit -/

/-- The qualifier of a unit whose package types become known list by list. -/
def resolveWith (packageName : String) (typeVariables : List String)
    (referenced : List BinaryName) (packageTypes : List (List String)) : TypeQualifier :=
  packageTypes.foldl withPackageTypes (resolve packageName typeVariables referenced)

theorem IsProjected.foldl_withPackageTypes (h : q.IsProjected)
    (packageTypes : List (List String)) :
    (packageTypes.foldl TypeQualifier.withPackageTypes q).IsProjected := by
  induction packageTypes generalizing q with
  | nil => exact h
  | cons names packageTypes ih => exact ih (h.withPackageTypes names)

theorem isProjected_resolveWith (packageName : String) (typeVariables : List String)
    (referenced : List BinaryName) (packageTypes : List (List String)) :
    (resolveWith packageName typeVariables referenced packageTypes).IsProjected :=
  (isProjected_resolve packageName typeVariables referenced).foldl_withPackageTypes packageTypes

/-- Every unit has a renderer.  It declares each imported type once and nothing else, and
its implicit types are those of the qualifier. -/
theorem exists_renderer_mem_importDeclarations_iff (packageName : String)
    (typeVariables : List String) (referenced : List BinaryName)
    (packageTypes : List (List String)) :
    ∃ renderer,
      (resolveWith packageName typeVariables referenced packageTypes).nameRenderer =
        .ok renderer ∧
      renderer.importDeclarations.Nodup ∧
      (∀ t, t ∈ renderer.importDeclarations ↔
        t ∈ (resolveWith packageName typeVariables referenced packageTypes).importedTypes) ∧
      renderer.implicitTypes =
        (resolveWith packageName typeVariables referenced packageTypes).implicitTypes := by
  have hq := isProjected_resolveWith packageName typeVariables referenced packageTypes
  refine ⟨_, nameRenderer_eq_ok hq, ?_, ?_, ?_⟩
  · exact NameRenderer.nodup_importDeclarations (distinctSimpleNames_availableTypes hq)
  · exact fun t => mem_importDeclarations_renderer_iff hq
  · exact SortedSet.ext_mem fun t => mem_implicitTypes_renderer_iff hq

/-- Every unit declares its imports in the lexicographic order of their segments.  If no
imported type has a character below the dot, this is the order of qualified names and the
list of the qualifier. -/
theorem exists_renderer_pairwise_importDeclarations (packageName : String)
    (typeVariables packageTypes : List String) (referenced : List BinaryName) :
    ∃ renderer,
      ((resolve packageName typeVariables referenced).withPackageTypes
        packageTypes).nameRenderer = .ok renderer ∧
      renderer.importDeclarations.Pairwise (fun a b => a.segments < b.segments) ∧
      ((∀ t ∈ ((resolve packageName typeVariables referenced).withPackageTypes
          packageTypes).importedTypes, ∀ c ∈ t.qualifiedName.toList, '.' ≤ c) →
        renderer.importDeclarations.Pairwise (fun a b => a.qualifiedName < b.qualifiedName) ∧
          renderer.importDeclarations = ((resolve packageName typeVariables
            referenced).withPackageTypes packageTypes).importedTypes) := by
  have hq : ((resolve packageName typeVariables referenced).withPackageTypes
      packageTypes).IsProjected := (isProjected_resolve _ _ _).withPackageTypes _
  refine ⟨_, nameRenderer_eq_ok hq, pairwise_importDeclarations_renderer hq, fun hdot => ?_⟩
  have hsorted := pairwise_qualifiedName_importDeclarations hq hdot
  exact ⟨hsorted, importDeclarations_eq_of_pairwise hq hsorted⟩

/-- A hyphen is below the dot, so `a` comes before `a-b` although `a-b.C` comes before
`a.B`. -/
theorem importDeclarations_ne_importedTypes_hyphen :
    ∃ plain hyphened renderer, plain.text = "a.B" ∧ hyphened.text = "a-b.C" ∧
      ((resolve "test" [] [plain, hyphened]).withPackageTypes []).nameRenderer =
        .ok renderer ∧
      renderer.importDeclarations = [plain, hyphened] ∧
      ((resolve "test" [] [plain, hyphened]).withPackageTypes []).importedTypes =
        [hyphened, plain] ∧
      hyphened.qualifiedName < plain.qualifiedName := by
  refine ⟨.dotted (.root ⟨"a", by simp, by simp⟩) ⟨"B", by simp, by simp⟩,
    .dotted (.root ⟨"a-b", by simp, by simp⟩) ⟨"C", by simp, by simp⟩, _, by decide, by decide,
    nameRenderer_eq_ok ((isProjected_resolve _ _ _).withPackageTypes _), ?_, ?_, ?_⟩
  · decide +kernel
  · decide +kernel
  · decide

end TypeQualifier

end ImmutableJava
