import ImmutableJava.Proofs.Qualification

/-!
# Names that are spelled alike

A short name is a simple name and the segments behind it, and a full name is a list of
segments as well.  Two short names differ if their types do, because simple names identify
the available types; two full names differ anyway.  What remains is a short name beside a
full one.  They are the same text when the full name *starts* with the simple name of an
available type that is not meant, which happens in two ways:

* a package has that name, as in `Map.Entry` for the type `Entry` of a package `Map` and
  for the type `java.util.Map.Entry`, where `java.util.Map` is available;
* a type of the unnamed package has it, and is spelled in full because another type of its
  name belongs to the unit's package.

`NameRenderer.Obscures` says this of two types, and `NameRenderer.render_eq_iff` says that
types with different qualified names are spelled alike in this case and in no other.
-/

namespace ImmutableJava

namespace NameRenderer

variable {packageName : String} {types : SortedSet BinaryName} {a t u : BinaryName}

/-! ## The type that a spelling starts from -/

/-- The longest type of a set that a type's segments start with. -/
structure IsLongestStart (types : SortedSet BinaryName) (a t : BinaryName) : Prop where
  mem : a ∈ types
  start : a.segments <+: t.segments
  length_le : ∀ b ∈ types, b.segments <+: t.segments → b.segments.length ≤ a.segments.length

/-- There is at most one longest start, because simple names identify the types. -/
theorem IsLongestStart.unique {b : BinaryName} (h : DistinctSimpleNames types)
    (ha : IsLongestStart types a t) (hb : IsLongestStart types b t) : b = a := by
  have hlength : a.segments.length = b.segments.length :=
    Nat.le_antisymm (hb.length_le a ha.mem ha.start) (ha.length_le b hb.mem hb.start)
  have hsegments : b.segments = a.segments := by
    rw [List.prefix_iff_eq_take.1 hb.start, List.prefix_iff_eq_take.1 ha.start, hlength]
  exact h.eq_of_segments_eq ha.mem hb.mem hsegments

theorem render_of_isLongestStart (h : DistinctSimpleNames types) (ha : IsLongestStart types a t)
    {rest : List String} (hrest : t.segments = a.segments ++ rest) :
    (ofTypes packageName types).render t = ".".intercalate (a.simpleName :: rest) := by
  rcases @render_eq_or packageName types h t with
    ⟨b, hb, hlongest, rest', hrest', hrender⟩ | ⟨hnone, -⟩
  · obtain rfl : b = a := ha.unique h ⟨hb, ⟨rest', hrest'.symm⟩, hlongest⟩
    rw [hrender, List.append_cancel_left (hrest'.symm.trans hrest)]
  · exact absurd ha.start (hnone a ha.mem)

theorem render_of_no_start (h : DistinctSimpleNames types)
    (hnone : ∀ a ∈ types, ¬ a.segments <+: t.segments) :
    (ofTypes packageName types).render t = t.qualifiedName := by
  rcases @render_eq_or packageName types h t with ⟨a, ha, -, rest, hrest, -⟩ | ⟨-, hrender⟩
  · exact absurd ⟨rest, hrest.symm⟩ (hnone a ha)
  · exact hrender

/-- A type is spelled from its longest start on, or in full if it has none. -/
theorem exists_isLongestStart_or (h : DistinctSimpleNames types) (t : BinaryName) :
    (∃ a rest, IsLongestStart types a t ∧ t.segments = a.segments ++ rest) ∨
      ∀ a ∈ types, ¬ a.segments <+: t.segments := by
  rcases @render_eq_or "" types h t with ⟨a, ha, hlongest, rest, hrest, -⟩ | ⟨hnone, -⟩
  · exact .inl ⟨a, rest, ⟨ha, ⟨rest, hrest.symm⟩, hlongest⟩, hrest⟩
  · exact .inr hnone

/-! ## Short names and full names -/

/-- No segment of a short name has a dot. -/
theorem ne_dot_of_mem_cons {rest : List String} (hrest : t.segments = a.segments ++ rest) :
    ∀ s ∈ a.simpleName :: rest, ∀ c ∈ s.toList, c ≠ '.' := by
  intro s hs
  rcases List.mem_cons.1 hs with rfl | hs
  · exact a.ne_dot_of_mem_simpleName
  · have hmem : s ∈ t.segments := by
      rw [hrest]
      exact List.mem_append_right _ hs
    exact BinaryName.ne_dot_of_mem_segments hmem

/-- The segments of a short name can be read off its text. -/
theorem cut_short {rest : List String} (hrest : t.segments = a.segments ++ rest) :
    Pieces.cut '.' (".".intercalate (a.simpleName :: rest)) = a.simpleName :: rest :=
  Pieces.cut_intercalate (List.cons_ne_nil _ _) (ne_dot_of_mem_cons hrest)

/-- The full name of a type has the segments that are left of the other type when it is
spelled from its longest start on. -/
def Obscures (types : SortedSet BinaryName) (t u : BinaryName) : Prop :=
  (∀ b ∈ types, ¬ b.segments <+: u.segments) ∧
    ∃ a rest, IsLongestStart types a t ∧ t.segments = a.segments ++ rest ∧
      u.segments = a.simpleName :: rest

theorem Obscures.render_eq (h : DistinctSimpleNames types) (hobscures : Obscures types t u) :
    (ofTypes packageName types).render t = (ofTypes packageName types).render u := by
  obtain ⟨hfull, a, rest, ha, hrest, hu⟩ := hobscures
  rw [render_of_isLongestStart h ha hrest, render_of_no_start h hfull,
    u.qualifiedName_eq, hu]

/-- A short name is the full name of another type only if it obscures it. -/
theorem obscures_of_render_eq (h : DistinctSimpleNames types) {rest : List String}
    (ha : IsLongestStart types a t) (hrest : t.segments = a.segments ++ rest)
    (hfull : ∀ b ∈ types, ¬ b.segments <+: u.segments)
    (heq : (ofTypes packageName types).render t = (ofTypes packageName types).render u) :
    Obscures types t u := by
  refine ⟨hfull, a, rest, ha, hrest, ?_⟩
  rw [render_of_isLongestStart h ha hrest, render_of_no_start h hfull] at heq
  rw [← u.cut_qualifiedName, ← heq, cut_short hrest]

/-- Two short names are the same only if their types have the same qualified name. -/
theorem qualifiedName_eq_of_render_eq (h : DistinctSimpleNames types) {b : BinaryName}
    {rest rest' : List String} (ha : IsLongestStart types a t)
    (hrest : t.segments = a.segments ++ rest) (hb : IsLongestStart types b u)
    (hrest' : u.segments = b.segments ++ rest')
    (heq : (ofTypes packageName types).render t = (ofTypes packageName types).render u) :
    t.qualifiedName = u.qualifiedName := by
  rw [render_of_isLongestStart h ha hrest, render_of_isLongestStart h hb hrest'] at heq
  have hcut : a.simpleName :: rest = b.simpleName :: rest' := by
    rw [← cut_short hrest, heq, cut_short hrest']
  obtain ⟨hname, rfl⟩ := List.cons.inj hcut
  obtain rfl : a = b := h b hb.mem a ha.mem hname
  rw [t.qualifiedName_eq, u.qualifiedName_eq, hrest, hrest']

/-- Types with different qualified names are spelled alike exactly when the short name of
one obscures the full name of the other. -/
theorem render_eq_iff (h : DistinctSimpleNames types) (hne : t.qualifiedName ≠ u.qualifiedName) :
    (ofTypes packageName types).render t = (ofTypes packageName types).render u ↔
      Obscures types t u ∨ Obscures types u t := by
  constructor
  · intro heq
    rcases exists_isLongestStart_or h t with ⟨a, rest, ha, hrest⟩ | hfull
    · rcases exists_isLongestStart_or h u with ⟨b, rest', hb, hrest'⟩ | hfull'
      · exact absurd (qualifiedName_eq_of_render_eq h ha hrest hb hrest' heq) hne
      · exact .inl (obscures_of_render_eq h ha hrest hfull' heq)
    · rcases exists_isLongestStart_or h u with ⟨b, rest', hb, hrest'⟩ | hfull'
      · exact .inr (obscures_of_render_eq h hb hrest' hfull heq.symm)
      · rw [render_of_no_start h hfull, render_of_no_start h hfull'] at heq
        exact absurd heq hne
  · rintro (hobscures | hobscures)
    · exact hobscures.render_eq h
    · exact (hobscures.render_eq h).symm

end NameRenderer

namespace TypeQualifier

/-- Every unit has a renderer, and it spells two types with different qualified names
differently unless the short name of one obscures the full name of the other. -/
theorem exists_renderer_render_eq_iff (packageName : String)
    (typeVariables packageTypes : List String) (referenced : List BinaryName) :
    ∃ renderer,
      ((resolve packageName typeVariables referenced).withPackageTypes
        packageTypes).nameRenderer = .ok renderer ∧
      ∀ t ∈ referenced, ∀ u ∈ referenced, t.qualifiedName ≠ u.qualifiedName →
        (renderer.render t = renderer.render u ↔
          NameRenderer.Obscures (SortedSet.ofList ((resolve packageName typeVariables
              referenced).withPackageTypes packageTypes).availableTypes) t u ∨
            NameRenderer.Obscures (SortedSet.ofList ((resolve packageName typeVariables
              referenced).withPackageTypes packageTypes).availableTypes) u t) := by
  have hq : ((resolve packageName typeVariables referenced).withPackageTypes
      packageTypes).IsProjected := (isProjected_resolve _ _ _).withPackageTypes _
  refine ⟨_, nameRenderer_eq_ok hq, ?_⟩
  intro t _ u _ hne
  exact NameRenderer.render_eq_iff (distinctSimpleNames_availableTypes hq) hne

/-- A type of the unnamed package, beside a type of its name that belongs to the unit's
package: the short name of the one is the full name of the other. -/
theorem exists_renderer_render_eq_iff_unnamed :
    ∃ own unnamed renderer, own.text = "test.Map" ∧ unnamed.text = "Map" ∧
      own.qualifiedName ≠ unnamed.qualifiedName ∧
      ((resolve "test" [] [own, unnamed]).withPackageTypes []).nameRenderer = .ok renderer ∧
      renderer.render own = "Map" ∧ renderer.render unnamed = "Map" ∧
      (NameRenderer.Obscures (SortedSet.ofList
          ((resolve "test" [] [own, unnamed]).withPackageTypes []).availableTypes) own unnamed ∨
        NameRenderer.Obscures (SortedSet.ofList
          ((resolve "test" [] [own, unnamed]).withPackageTypes []).availableTypes)
          unnamed own) := by
  obtain ⟨renderer, hok, hiff⟩ := exists_renderer_render_eq_iff "test" [] []
    [.dotted (.root ⟨"test", by simp, by simp⟩) ⟨"Map", by simp, by simp⟩,
      .root ⟨"Map", by simp, by simp⟩]
  have hrenderer := Except.ok.inj (hok.symm.trans
    (nameRenderer_eq_ok ((isProjected_resolve _ _ _).withPackageTypes _)))
  have hown : renderer.render
      (.dotted (.root ⟨"test", by simp, by simp⟩) ⟨"Map", by simp, by simp⟩) = "Map" := by
    rw [hrenderer]
    decide +kernel
  have hunnamed : renderer.render (.root ⟨"Map", by simp, by simp⟩) = "Map" := by
    rw [hrenderer]
    decide +kernel
  refine ⟨_, _, renderer, by decide, by decide, by decide, hok, hown, hunnamed, ?_⟩
  exact (hiff _ (by simp) _ (by simp) (by decide)).1 (hown.trans hunnamed.symm)

/-- A package with the name of an imported type: a type of the package, which is spelled in
full because of a type variable, and a type nested in the imported one are spelled alike. -/
theorem render_eq_of_package_named_as_import :
    ∃ nested packaged renderer, nested.text = "java.util.Map$Entry" ∧
      packaged.text = "Map.Entry" ∧ nested.qualifiedName ≠ packaged.qualifiedName ∧
      ((resolve "test" ["Entry"] [nested, packaged]).withPackageTypes []).nameRenderer =
        .ok renderer ∧
      renderer.render nested = "Map.Entry" ∧ renderer.render packaged = "Map.Entry" := by
  refine ⟨.nested (.dotted (.dotted (.root ⟨"java", by simp, by simp⟩) ⟨"util", by simp, by simp⟩)
        ⟨"Map", by simp, by simp⟩) ⟨"Entry", by simp, by simp⟩,
    .dotted (.root ⟨"Map", by simp, by simp⟩) ⟨"Entry", by simp, by simp⟩, _, by decide,
    by decide, by decide,
    nameRenderer_eq_ok ((isProjected_resolve _ _ _).withPackageTypes _), ?_, ?_⟩
  · decide +kernel
  · decide +kernel

end TypeQualifier

end ImmutableJava
