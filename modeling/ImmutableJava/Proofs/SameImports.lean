import ImmutableJava.Proofs.AvailableTypes
import ImmutableJava.Proofs.Obscuring
import Mathlib.Data.List.Sort

/-!
# Renderers with the same imports

Two renderers count as the same if they list the same import declarations and the same
implicit types (`NameRenderer.sameImports`).  A renderer spells names from its trie, and the
trie is not compared, nor is the package, of which the trie has a mark.

* The two lists together are the available types.  As the import declarations are sorted,
  renderers count as the same exactly if they have the same available types and the same of
  these are implicit (`sameImports_iff`).
* A type is spelled from its longest start among the available types on, or in full.  The
  marks of the trie say which types need no declaration and have no part in this, so the
  available types alone decide how a type is spelled (`render_eq_of_mem_iff`).

So renderers that count as the same spell every type and every template alike.  Their packages
may differ: `java.lang` is implicit in every unit, and a package that none of the available
types stands in leaves no trace in the lists.
-/

namespace ImmutableJava

namespace NameRenderer

variable {p q : String} {types : SortedSet BinaryName} {available available' : List BinaryName}
  {r s : NameRenderer}

/-! ## What the lists tell -/

theorem sameImports_eq_true_iff :
    r.sameImports s = true ↔
      r.importDeclarations = s.importDeclarations ∧ r.implicitTypes = s.implicitTypes := by
  rw [sameImports, Bool.and_eq_true, decide_eq_true_iff, decide_eq_true_iff]

/-- The import declarations of a renderer are known by their members. -/
theorem importDeclarations_eq_of_mem_iff (hr : ofAvailable p available = .ok r)
    (hs : ofAvailable q available' = .ok s)
    (h : ∀ t, t ∈ r.importDeclarations ↔ t ∈ s.importDeclarations) :
    r.importDeclarations = s.importDeclarations := by
  obtain ⟨hdistinct, rfl⟩ := ofAvailable_eq_ok_iff.1 hr
  obtain ⟨hdistinct', rfl⟩ := ofAvailable_eq_ok_iff.1 hs
  have hirrefl : Std.Irrefl fun a b : BinaryName => a.segments < b.segments :=
    ⟨fun a => List.lt_irrefl a.segments⟩
  exact (pairwise_importDeclarations hdistinct).eq_of_mem_iff
    (pairwise_importDeclarations hdistinct') h

/-- Renderers that count as the same have the same available types. -/
theorem mem_iff_of_sameImports (hr : ofAvailable p available = .ok r)
    (hs : ofAvailable q available' = .ok s) (h : r.sameImports s = true) (t : BinaryName) :
    t ∈ available ↔ t ∈ available' := by
  obtain ⟨hdeclared, himplicit⟩ := sameImports_eq_true_iff.1 h
  rw [← (listsAvailable_of_ofAvailable hr).mem_iff, hdeclared, himplicit,
    (listsAvailable_of_ofAvailable hs).mem_iff]

/-- Renderers count as the same if they have the same available types and the same of them are
implicit. -/
theorem sameImports_iff (hr : ofAvailable p available = .ok r)
    (hs : ofAvailable q available' = .ok s) :
    r.sameImports s = true ↔
      (∀ t, t ∈ available ↔ t ∈ available') ∧
        ∀ t ∈ available, (IsImplicit p t ↔ IsImplicit q t) := by
  constructor
  · intro h
    have hmem := mem_iff_of_sameImports hr hs h
    obtain ⟨-, himplicit⟩ := sameImports_eq_true_iff.1 h
    refine ⟨hmem, fun t ht => ?_⟩
    calc IsImplicit p t ↔ t ∈ r.implicitTypes := by
          rw [mem_implicitTypes_of_ofAvailable hr, and_iff_right ht]
      _ ↔ t ∈ s.implicitTypes := by rw [himplicit]
      _ ↔ IsImplicit q t := by
          rw [mem_implicitTypes_of_ofAvailable hs, and_iff_right ((hmem t).1 ht)]
  · rintro ⟨hmem, himplicit⟩
    refine sameImports_eq_true_iff.2
      ⟨importDeclarations_eq_of_mem_iff hr hs fun t => ?_, SortedSet.ext_mem fun t => ?_⟩
    · rw [mem_importDeclarations_of_ofAvailable hr, mem_importDeclarations_of_ofAvailable hs,
        ← hmem]
      exact and_congr_right fun ht => not_congr (himplicit t ht)
    · rw [mem_implicitTypes_of_ofAvailable hr, mem_implicitTypes_of_ofAvailable hs, ← hmem]
      exact and_congr_right fun ht => himplicit t ht

/-! ## What the spelling takes -/

/-- The package of a unit has no part in how a type is spelled. -/
theorem render_ofTypes_eq (h : DistinctSimpleNames types) (p q : String) (t : BinaryName) :
    (ofTypes p types).render t = (ofTypes q types).render t := by
  rcases exists_isLongestStart_or h t with ⟨a, rest, ha, hrest⟩ | hnone
  · rw [render_of_isLongestStart h ha hrest, render_of_isLongestStart h ha hrest]
  · rw [render_of_no_start h hnone, render_of_no_start h hnone]

/-- Renderers with the same available types spell every type alike. -/
theorem render_eq_of_mem_iff (hr : ofAvailable p available = .ok r)
    (hs : ofAvailable q available' = .ok s) (h : ∀ t, t ∈ available ↔ t ∈ available')
    (t : BinaryName) : r.render t = s.render t := by
  obtain ⟨hdistinct, rfl⟩ := ofAvailable_eq_ok_iff.1 hr
  obtain ⟨-, rfl⟩ := ofAvailable_eq_ok_iff.1 hs
  have htypes : SortedSet.ofList available' = SortedSet.ofList available :=
    SortedSet.ext_mem fun t => by rw [SortedSet.mem_ofList, SortedSet.mem_ofList, h]
  rw [htypes]
  exact render_ofTypes_eq hdistinct p q t

/-- Renderers that count as the same spell every type and every template alike, whatever the
packages of their units are. -/
theorem render_eq_of_sameImports (hr : ofAvailable p available = .ok r)
    (hs : ofAvailable q available' = .ok s) (h : r.sameImports s = true) :
    (∀ t, r.render t = s.render t) ∧
      ∀ template : Template, template.render r.render = template.render s.render := by
  have hrender := render_eq_of_mem_iff hr hs (mem_iff_of_sameImports hr hs h)
  refine ⟨hrender, fun template => ?_⟩
  rw [funext hrender]

/-- Units in different packages, with types listed in different orders: a type below two of
them, and a template with it. -/
theorem render_eq_of_sameImports_nested :
    ∃ map entry object key r s, map.text = "java.util.Map" ∧
      entry.text = "java.util.Map$Entry" ∧ object.text = "java.lang.Object" ∧
      key.text = "java.util.Map$Entry$Key" ∧
      ofAvailable "java.lang" [map, entry, object] = .ok r ∧
      ofAvailable "test" [object, entry, object, map] = .ok s ∧
      r.packageName ≠ s.packageName ∧ r.sameImports s = true ∧
      r.render key = "Entry.Key" ∧ s.render key = "Entry.Key" ∧
      (Template.mk "%s<%s>" [map, key] .declared).render r.render = "Map<Entry.Key>" ∧
      (Template.mk "%s<%s>" [map, key] .declared).render s.render = "Map<Entry.Key>" := by
  obtain ⟨map, entry, object, key, hmap, hentry, hobject, hkey, r, s, hr, hs, hpackage, hsame,
      hname, htext⟩ :
      ∃ map entry object key : BinaryName, map.text = "java.util.Map" ∧
        entry.text = "java.util.Map$Entry" ∧ object.text = "java.lang.Object" ∧
        key.text = "java.util.Map$Entry$Key" ∧
        ∃ r s, ofAvailable "java.lang" [map, entry, object] = .ok r ∧
          ofAvailable "test" [object, entry, object, map] = .ok s ∧
          r.packageName ≠ s.packageName ∧ r.sameImports s = true ∧
          s.render key = "Entry.Key" ∧
          (Template.mk "%s<%s>" [map, key] .declared).render s.render = "Map<Entry.Key>" := by
    refine ⟨.dotted (.dotted (.root ⟨"java", by simp, by simp⟩) ⟨"util", by simp, by simp⟩)
        ⟨"Map", by simp, by simp⟩,
      .nested (.dotted (.dotted (.root ⟨"java", by simp, by simp⟩) ⟨"util", by simp, by simp⟩)
        ⟨"Map", by simp, by simp⟩) ⟨"Entry", by simp, by simp⟩,
      JavaLang.object,
      .nested (.nested (.dotted (.dotted (.root ⟨"java", by simp, by simp⟩)
        ⟨"util", by simp, by simp⟩) ⟨"Map", by simp, by simp⟩) ⟨"Entry", by simp, by simp⟩)
        ⟨"Key", by simp, by simp⟩,
      by decide, by decide, by decide, by decide, _, _,
      ofAvailable_eq_ok_iff.2 ⟨?_, rfl⟩, ofAvailable_eq_ok_iff.2 ⟨?_, rfl⟩, by decide,
      by decide +kernel, by decide +kernel, by decide +kernel⟩ <;>
    exact (SimpleName.conflicts_eq_nil_iff (SortedSet.nodup_toList _)).1 (by decide +kernel)
  obtain ⟨hrender, htemplate⟩ := render_eq_of_sameImports hr hs hsame
  exact ⟨map, entry, object, key, r, s, hmap, hentry, hobject, hkey, hr, hs, hpackage, hsame,
    (hrender key).trans hname, hname, (htemplate _).trans htext, htext⟩

end NameRenderer

end ImmutableJava
