import ImmutableJava.Proofs.EnclosingType
import ImmutableJava.Proofs.Qualification

/-!
# Shortest names

A unit spells a type either in full or by its class name, and the qualifier decides which
(`exists_renderer_render_eq`).  The renderer does not ask the qualifier: it looks for the
longest available type that a name starts with.  So two things have to be excluded, and
both are excluded for the types of a program that compiles (`Coherent`).

* A type that is spelled in full could start with another type that is available.
* A type that is available through its top-level type could start with a longer one.

In either case a type would be a part of a package: a type that starts a name either ends
with the top-level type of that name (`Coherent.topLevelType_eq_of_prefix`), or it ends
earlier and is a part of the package, or it ends later and has the top-level type as a part
of its own package.
-/

namespace ImmutableJava

namespace BinaryName

variable {m n : BinaryName}

/-! ## Package, top-level type and class name -/

/-- The top-level type has the package of its type and the first segment of the class
name, as long as the package has no dollar sign. -/
theorem exists_classSegments_eq (h : '$' ∉ n.packageName.toList) :
    ∃ rest, n.topLevelType.packageName = n.packageName ∧
      n.classSegments = n.topLevelType.simpleName :: rest ∧
      n.segments = n.topLevelType.segments ++ rest := by
  induction n with
  | root s => exact ⟨[], rfl, rfl, rfl⟩
  | dotted p s =>
    have htop : (dotted p s).topLevelType = dotted p s := if_pos (isTopLevel_of_dollar_not_mem h)
    exact ⟨[], by rw [htop], by rw [htop]; rfl, by rw [htop, List.append_nil]⟩
  | nested o s ih =>
    obtain ⟨rest, hpackage, hclass, hsegments⟩ := ih h
    refine ⟨rest ++ [s.text], hpackage, ?_, ?_⟩
    · rw [classSegments, hclass]
      rfl
    · rw [segments, hsegments, List.append_assoc]
      rfl

/-- The segments of a top-level type before its simple name are the path of its package. -/
theorem packagePath_packageName (h : n.isTopLevel = true) :
    ImportTrie.packagePath n.packageName = n.containerSegments := by
  rw [packageName_eq_containerName h, packagePath_containerName]

/-! ## Parts of a package -/

/-- Whether a name is a package or a dotted part at the start of one. -/
def IsPackagePart (name packageName : String) : Prop :=
  name = packageName ∨ (name ++ ".").toList <+: packageName.toList

instance (name packageName : String) : Decidable (IsPackagePart name packageName) :=
  inferInstanceAs (Decidable (_ ∨ _))

theorem isPackagePart_of_prefix {packageName : String}
    (h : m.segments <+: ImportTrie.packagePath packageName) :
    IsPackagePart m.qualifiedName packageName := by
  obtain ⟨rest, hrest⟩ := h
  have hname : packageName = ".".intercalate (m.segments ++ rest) := by
    rw [hrest, ImportTrie.intercalate_packagePath]
  cases rest with
  | nil =>
    refine .inl ?_
    rw [hname, List.append_nil, qualifiedName_eq]
  | cons s rest =>
    refine .inr ?_
    have hstart : packageName =
        (m.qualifiedName ++ ".") ++ ".".intercalate (s :: rest) := by
      rw [hname, Pieces.intercalate_append _ m.segments_ne_nil, ← qualifiedName_eq,
        Pieces.intercalate_cons _ _ (List.cons_ne_nil s rest)]
    rw [hstart, @String.toList_append (m.qualifiedName ++ ".")]
    exact List.prefix_append _ _

/-- A name that starts another one, and is not all of it, ends before its last segment. -/
theorem prefix_containerSegments (h : m.segments <+: n.segments)
    (hne : m.segments ≠ n.segments) : m.segments <+: n.containerSegments := by
  rw [n.segments_eq_concat] at h hne
  rcases List.prefix_concat_iff.1 h with heq | hstart
  · exact absurd heq hne
  · exact hstart

end BinaryName

/-! ## References of a program that compiles -/

/-- No package has a type among its parts, and none has a dollar sign. -/
structure Coherent (referenced : List BinaryName) : Prop where
  /-- No dollar sign stands before the last dot of a name. -/
  dollar_not_mem : ∀ t ∈ referenced, '$' ∉ t.packageName.toList
  /-- No top-level type has the name of another type's package or of a part of it. -/
  not_isPackagePart : ∀ r ∈ referenced, ∀ t ∈ referenced, t ≠ r.topLevelType →
    ¬ BinaryName.IsPackagePart r.topLevelType.qualifiedName t.packageName

namespace Coherent

variable {referenced : List BinaryName} {r t : BinaryName}

/-- No top-level type starts the package of a type. -/
theorem not_prefix_containerSegments (h : Coherent referenced) (hr : r ∈ referenced)
    (ht : t ∈ referenced) (hne : t.topLevelType ≠ r.topLevelType) :
    ¬ r.topLevelType.segments <+: t.topLevelType.containerSegments := by
  intro hstart
  obtain ⟨-, hpackage, -, -⟩ := BinaryName.exists_classSegments_eq (h.dollar_not_mem t ht)
  rw [← BinaryName.packagePath_packageName t.isTopLevel_topLevelType, hpackage] at hstart
  refine h.not_isPackagePart r hr t ht ?_ (BinaryName.isPackagePart_of_prefix hstart)
  rintro rfl
  exact hne (BinaryName.topLevelType_of_isTopLevel r.isTopLevel_topLevelType)

/-- A top-level type that starts a name is the top-level type of that name. -/
theorem topLevelType_eq_of_prefix (h : Coherent referenced) (hr : r ∈ referenced)
    (ht : t ∈ referenced) (hstart : r.topLevelType.segments <+: t.segments) :
    r.topLevelType = t.topLevelType := by
  obtain ⟨rest, -, -, hsegments⟩ := BinaryName.exists_classSegments_eq (h.dollar_not_mem t ht)
  have htop : t.topLevelType.segments <+: t.segments := ⟨rest, hsegments.symm⟩
  by_contra hne
  have hsegne : r.topLevelType.segments ≠ t.topLevelType.segments := by
    intro heq
    refine hne (BinaryName.eq_of_qualifiedName_eq r.isTopLevel_topLevelType
      t.isTopLevel_topLevelType ?_)
    rw [BinaryName.qualifiedName_eq, BinaryName.qualifiedName_eq, heq]
  rcases List.prefix_or_prefix_of_prefix hstart htop with hshort | hlong
  · exact h.not_prefix_containerSegments hr ht (Ne.symm hne)
      (BinaryName.prefix_containerSegments hshort hsegne)
  · exact h.not_prefix_containerSegments ht hr hne
      (BinaryName.prefix_containerSegments hlong (Ne.symm hsegne))

end Coherent

namespace TypeQualifier

variable {q : TypeQualifier} {referenced : List BinaryName} {t : BinaryName}

/-! ## Spelling -/

/-- Whether a type is spelled in full is decided by its top-level type. -/
theorem isQualified_iff : q.isQualified t = true ↔ t.topLevelType ∈ q.qualifiedTypes := by
  rw [isQualified, decide_eq_true_eq]

/-- A type whose top-level type is available is spelled by its class name. -/
theorem render_renderer_eq_className (hq : q.IsProjected) (h : Coherent referenced)
    (hreferenced : ∀ a ∈ q.referencedTypes, ∃ r ∈ referenced, r.topLevelType = a)
    (ht : t ∈ referenced) (htop : t.topLevelType ∈ q.referencedTypes)
    (hshort : t.topLevelType ∉ q.qualifiedTypes) : q.renderer.render t = t.className := by
  obtain ⟨rest, -, hclass, hsegments⟩ :=
    BinaryName.exists_classSegments_eq (h.dollar_not_mem t ht)
  have havailable : t.topLevelType ∈ SortedSet.ofList q.availableTypes :=
    SortedSet.mem_ofList.2 (mem_availableTypes_iff.2 ⟨htop, hshort⟩)
  rcases NameRenderer.render_eq_or (distinctSimpleNames_availableTypes hq) t with
    ⟨a, ha, -, rest', hrest, hrender⟩ | ⟨hnone, -⟩
  · obtain ⟨har, -⟩ := mem_availableTypes_iff.1 (SortedSet.mem_ofList.1 ha)
    obtain ⟨r, hr, rfl⟩ := hreferenced a har
    have heq := h.topLevelType_eq_of_prefix hr ht ⟨rest', hrest.symm⟩
    rw [heq, hsegments] at hrest
    rw [heq] at hrender
    rw [renderer, hrender, ← List.append_cancel_left hrest, BinaryName.className, hclass]
  · exact absurd ⟨rest, hsegments.symm⟩ (hnone _ havailable)

/-- A type whose top-level type is not available is spelled in full. -/
theorem render_renderer_eq_qualifiedName (hq : q.IsProjected) (h : Coherent referenced)
    (hreferenced : ∀ a ∈ q.referencedTypes, ∃ r ∈ referenced, r.topLevelType = a)
    (ht : t ∈ referenced) (hfull : t.topLevelType ∈ q.qualifiedTypes) :
    q.renderer.render t = t.qualifiedName := by
  rcases render_renderer_eq_or hq t with ⟨a, ha, havailable, rest, hrest, -⟩ | hrender
  · obtain ⟨r, hr, rfl⟩ := hreferenced a ha
    rw [h.topLevelType_eq_of_prefix hr ht ⟨rest, hrest.symm⟩] at havailable
    exact absurd hfull havailable
  · exact hrender

/-- Every unit has a renderer.  If the references are coherent, it spells the types that
the qualifier says so in full, and all others by their class names. -/
theorem exists_renderer_render_eq (packageName : String)
    (typeVariables packageTypes : List String) (referenced : List BinaryName)
    (h : Coherent referenced) :
    ∃ renderer,
      ((resolve packageName typeVariables referenced).withPackageTypes
        packageTypes).nameRenderer = .ok renderer ∧
      ∀ t ∈ referenced, renderer.render t =
        if ((resolve packageName typeVariables referenced).withPackageTypes
            packageTypes).isQualified t then t.qualifiedName
        else t.className := by
  have hq : ((resolve packageName typeVariables referenced).withPackageTypes
      packageTypes).IsProjected := (isProjected_resolve _ _ _).withPackageTypes _
  have hreferenced : ∀ a, a ∈ (resolve packageName typeVariables referenced).referencedTypes ↔
      ∃ r ∈ referenced, r.topLevelType = a := fun _ => mem_referencedTypes_resolve
  refine ⟨_, nameRenderer_eq_ok hq, fun t ht => ?_⟩
  split
  · rename_i hfull
    exact render_renderer_eq_qualifiedName hq h (fun a => (hreferenced a).1) ht
      (isQualified_iff.1 hfull)
  · rename_i hshort
    exact render_renderer_eq_className hq h (fun a => (hreferenced a).1) ht
      ((hreferenced _).2 ⟨t, ht, rfl⟩) (mt isQualified_iff.2 hshort)

/-- A nested type by its class name, and two types of one simple name in full. -/
theorem exists_renderer_render_eq_nested :
    ∃ entry plain other renderer, entry.text = "java.util.Map$Entry" ∧
      plain.text = "a.List" ∧ other.text = "b.List" ∧ Coherent [entry, plain, other] ∧
      ((resolve "test" ["T"] [entry, plain, other]).withPackageTypes ["Box"]).nameRenderer =
        .ok renderer ∧
      renderer.render entry = "Map.Entry" ∧ renderer.render plain = "a.List" ∧
      renderer.render other = "b.List" := by
  have hcoherent : Coherent
      [.nested (.dotted (.dotted (.root ⟨"java", by simp, by simp⟩) ⟨"util", by simp, by simp⟩)
        ⟨"Map", by simp, by simp⟩) ⟨"Entry", by simp, by simp⟩,
      .dotted (.root ⟨"a", by simp, by simp⟩) ⟨"List", by simp, by simp⟩,
      .dotted (.root ⟨"b", by simp, by simp⟩) ⟨"List", by simp, by simp⟩] :=
    ⟨by decide +kernel, by decide +kernel⟩
  obtain ⟨renderer, hok, hrender⟩ :=
    exists_renderer_render_eq "test" ["T"] ["Box"] _ hcoherent
  refine ⟨_, _, _, renderer, by decide, by decide, by decide, hcoherent, hok, ?_, ?_, ?_⟩
  · rw [hrender _ (by simp)]
    decide +kernel
  · rw [hrender _ (by simp)]
    decide +kernel
  · rw [hrender _ (by simp)]
    decide +kernel

end TypeQualifier

end ImmutableJava
