import ImmutableJava.Import.Qualifier
import ImmutableJava.Proofs.NameRenderer

/-!
# Which types are qualified, imported and implicit

The three parts of a qualifier are described by what makes a type a member.
`mem_qualifiedTypes_iff` is the rule for full spelling: another referenced type has
the simple name and the type is not the unit's own, or a type variable has it, or the
type belongs to `java.lang` and the unit's package declares the name.

The parts fit together because a unit refers to top-level types only, which
`resolve` provides and `withPackageTypes` keeps (`IsProjected`).  Two available types
with one simple name would both belong to the unit's package, and a package has one
top-level type of a name; so simple names identify the available types, and every
qualifier has a renderer (`nameRenderer_eq_ok`).
-/

namespace ImmutableJava

namespace TypeQualifier

variable {q : TypeQualifier} {t : BinaryName}

/-! ## The parts -/

/-- A type is spelled in full when its simple name means something else. -/
theorem mem_qualifiedTypes_iff :
    t ∈ q.qualifiedTypes ↔
      t ∈ q.referencedTypes ∧
        ((t.packageName ≠ q.packageName ∧
            ∃ u ∈ q.referencedTypes, u ≠ t ∧ u.simpleName = t.simpleName) ∨
          t.simpleName ∈ q.typeVariables ∨
          t.packageName = JavaLang.packageName ∧ t.simpleName ∈ q.packageTypes) := by
  have hconflict : t ∈ q.typeConflicts ↔
      (t ∈ q.referencedTypes ∧ ∃ u ∈ q.referencedTypes, u ≠ t ∧ u.simpleName = t.simpleName) ∧
        t.packageName ≠ q.packageName := by
    rw [typeConflicts, List.mem_filter,
      SimpleName.mem_flatMap_conflicts_iff q.referencedTypes.nodup_toList]
    simp
  have hvariable : t ∈ q.typeVariableConflicts ↔
      t ∈ q.referencedTypes ∧ t.simpleName ∈ q.typeVariables := by
    simp [typeVariableConflicts]
  have hjavaLang : t ∈ q.javaLangConflicts ↔
      t ∈ q.referencedTypes ∧ t.packageName = JavaLang.packageName ∧
        t.simpleName ∈ q.packageTypes := by
    simp [javaLangConflicts]
  rw [qualifiedTypes, SortedSet.mem_ofList, List.mem_append, List.mem_append, hconflict, hvariable,
    hjavaLang]
  constructor
  · rintro ((⟨⟨ht, hother⟩, hpackage⟩ | ⟨ht, hname⟩) | ⟨ht, hname⟩)
    · exact ⟨ht, .inl ⟨hpackage, hother⟩⟩
    · exact ⟨ht, .inr (.inl hname)⟩
    · exact ⟨ht, .inr (.inr hname)⟩
  · rintro ⟨ht, ⟨hpackage, hother⟩ | hname | hname⟩
    · exact .inl (.inl ⟨⟨ht, hother⟩, hpackage⟩)
    · exact .inl (.inr ⟨ht, hname⟩)
    · exact .inr ⟨ht, hname⟩

theorem isImplicitPackage_iff {packageName : String} :
    q.isImplicitPackage packageName = true ↔
      packageName = JavaLang.packageName ∨ packageName = q.packageName := by
  simp [isImplicitPackage]

theorem mem_importedTypes_iff :
    t ∈ q.importedTypes ↔
      t ∈ q.referencedTypes ∧ t ∉ q.qualifiedTypes ∧
        ¬ (t.packageName = JavaLang.packageName ∨ t.packageName = q.packageName) := by
  rw [importedTypes, List.mem_filter, Bool.not_eq_true', Bool.eq_false_iff, ne_eq,
    isImplicitPackage_iff, SortedSet.mem_toList, unqualifiedTypes, SortedSet.mem_without, and_assoc]

theorem mem_implicitTypes_iff :
    t ∈ q.implicitTypes ↔
      t ∈ q.referencedTypes ∧ t ∉ q.qualifiedTypes ∧
        (t.packageName = JavaLang.packageName ∨ t.packageName = q.packageName) := by
  rw [implicitTypes, SortedSet.mem_filter, isImplicitPackage_iff, unqualifiedTypes,
    SortedSet.mem_without, and_assoc]

/-- The available types are the referenced ones that are not spelled in full. -/
theorem mem_availableTypes_iff :
    t ∈ q.availableTypes ↔ t ∈ q.referencedTypes ∧ t ∉ q.qualifiedTypes := by
  rw [availableTypes, List.mem_append, SortedSet.mem_toList, mem_importedTypes_iff,
    mem_implicitTypes_iff]
  by_cases hpackage : t.packageName = JavaLang.packageName ∨ t.packageName = q.packageName
  · simp [hpackage]
  · simp [hpackage]

/-! ## References are top-level types -/

/-- Every referenced type is a top-level type. -/
def IsProjected (q : TypeQualifier) : Prop := ∀ t ∈ q.referencedTypes, t.isTopLevel = true

theorem mem_referencedTypes_resolve {packageName : String} {typeVariables : List String}
    {referenced : List BinaryName} :
    t ∈ (resolve packageName typeVariables referenced).referencedTypes ↔
      ∃ r ∈ referenced, r.topLevelType = t := by
  simp [resolve]

theorem isProjected_resolve (packageName : String) (typeVariables : List String)
    (referenced : List BinaryName) : (resolve packageName typeVariables referenced).IsProjected := by
  intro t ht
  obtain ⟨r, -, rfl⟩ := mem_referencedTypes_resolve.1 ht
  exact r.isTopLevel_topLevelType

theorem IsProjected.withPackageTypes (h : q.IsProjected) (names : List String) :
    (q.withPackageTypes names).IsProjected := h

/-! ## Availability -/

/-- A type that is available does not share its simple name, unless it belongs to the
unit's package. -/
theorem packageName_eq_of_available (hq : t ∉ q.qualifiedTypes) (ht : t ∈ q.referencedTypes)
    {u : BinaryName} (hu : u ∈ q.referencedTypes) (hne : u ≠ t)
    (hname : u.simpleName = t.simpleName) : t.packageName = q.packageName := by
  by_contra hpackage
  exact hq (mem_qualifiedTypes_iff.2 ⟨ht, .inl ⟨hpackage, u, hu, hne, hname⟩⟩)

/-- Simple names identify the available types. -/
theorem distinctSimpleNames_availableTypes (h : q.IsProjected) :
    NameRenderer.DistinctSimpleNames (SortedSet.ofList q.availableTypes) := by
  intro t ht u hu hname
  obtain ⟨htr, htq⟩ := mem_availableTypes_iff.1 (SortedSet.mem_ofList.1 ht)
  obtain ⟨hur, huq⟩ := mem_availableTypes_iff.1 (SortedSet.mem_ofList.1 hu)
  by_contra hne
  have htp := packageName_eq_of_available htq htr hur hne hname
  have hup := packageName_eq_of_available huq hur htr (Ne.symm hne) hname.symm
  exact hne (BinaryName.eq_of_isTopLevel (h u hur) (h t htr) (hup.trans htp.symm) hname)

/-- The renderer of a qualifier. -/
def renderer (q : TypeQualifier) : NameRenderer :=
  .ofTypes q.packageName (SortedSet.ofList q.availableTypes)

/-- A qualifier of top-level types always has a renderer. -/
theorem nameRenderer_eq_ok (h : q.IsProjected) : q.nameRenderer = .ok q.renderer :=
  NameRenderer.ofAvailable_eq_ok_iff.2 ⟨distinctSimpleNames_availableTypes h, rfl⟩

theorem isImplicit_iff (ht : t.isTopLevel = true) :
    NameRenderer.IsImplicit q.packageName t ↔
      t.packageName = JavaLang.packageName ∨ t.packageName = q.packageName := by
  rw [NameRenderer.IsImplicit, ← BinaryName.packageName_eq_containerName ht, or_comm]

/-- The renderer declares an import for each imported type and for no other. -/
theorem mem_importDeclarations_renderer_iff (h : q.IsProjected) :
    t ∈ q.renderer.importDeclarations ↔ t ∈ q.importedTypes := by
  rw [NameRenderer.mem_importDeclarations_of_ofAvailable (nameRenderer_eq_ok h),
    mem_availableTypes_iff, mem_importedTypes_iff, and_assoc]
  refine and_congr_right fun ht => and_congr_right fun _ => ?_
  rw [isImplicit_iff (h t ht)]

/-- The renderer finds the same types implicit. -/
theorem mem_implicitTypes_renderer_iff (h : q.IsProjected) :
    t ∈ q.renderer.implicitTypes ↔ t ∈ q.implicitTypes := by
  rw [NameRenderer.mem_implicitTypes_of_ofAvailable (nameRenderer_eq_ok h),
    mem_availableTypes_iff, mem_implicitTypes_iff, and_assoc]
  refine and_congr_right fun ht => and_congr_right fun _ => ?_
  rw [isImplicit_iff (h t ht)]

/-- A type is spelled from the last segment of an available type on, or in full. -/
theorem render_renderer_eq_or (h : q.IsProjected) (t : BinaryName) :
    (∃ a ∈ q.referencedTypes, a ∉ q.qualifiedTypes ∧ ∃ rest, t.segments = a.segments ++ rest ∧
        q.renderer.render t = ".".intercalate (a.simpleName :: rest)) ∨
      q.renderer.render t = t.qualifiedName := by
  rcases NameRenderer.render_eq_or (distinctSimpleNames_availableTypes h) t with
    ⟨a, ha, -, rest, hrest, hrender⟩ | ⟨-, hrender⟩
  · obtain ⟨har, haq⟩ := mem_availableTypes_iff.1 (SortedSet.mem_ofList.1 ha)
    exact .inl ⟨a, har, haq, rest, hrest, hrender⟩
  · exact .inr hrender

end TypeQualifier

end ImmutableJava
