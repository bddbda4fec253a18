import ImmutableJava.Proofs.Qualification

/-!
# What a spelled name means

A name in a compilation unit is read from its first segment on.  `Scope` is what that
segment is looked up in: the type variables come first, then the imported types, then
the types that the unit's package declares, and `java.lang` last, so each of the four
can hide the ones after it.  The remaining segments select nested types.

The four are not independent of the renderer.  A type is spelled by a short name only
if it is available, and `meaning_simpleName` shows what availability excludes, layer
by layer: no type variable has the name of an available type, an import with its name
is the type itself, and a type of `java.lang` has no namesake in the unit's package.
`exists_renderer_meaning` concludes that no short spelling means anything but its type.
-/

namespace ImmutableJava

/-- What a simple name stands for. -/
inductive Meaning where
  /-- A type variable. -/
  | typeVariable
  /-- The type with the given qualified name. -/
  | type (qualifiedName : String)
  deriving DecidableEq

/-- Where the simple names of a compilation unit are looked up. -/
structure Scope where
  /-- The names of the type variables. -/
  typeVariables : List String
  /-- The types with an import declaration. -/
  imports : List BinaryName
  /-- The unit's package, and the empty text for the unnamed package. -/
  packageName : String
  /-- The simple names of types known to be declared in the package. -/
  packageTypes : List String
  /-- The top-level types that the unit refers to, which therefore exist. -/
  referenced : List BinaryName

namespace Scope

/-- The qualified name that a simple name has in the unit's package. -/
def nameInPackage (u : Scope) (name : String) : String :=
  (TopLevelName.mk u.packageName name).qualifiedName

/-- Whether the unit's package declares a type of that name. -/
def declares (u : Scope) (name : String) : Bool :=
  name ∈ u.packageTypes || u.referenced.any fun t => t.qualifiedName = u.nameInPackage name

/-- What a simple name stands for in the unit. -/
def meaning (u : Scope) (name : String) : Meaning :=
  if name ∈ u.typeVariables then .typeVariable
  else
    match u.imports.find? (·.simpleName = name) with
    | some t => .type t.qualifiedName
    | none =>
      if u.declares name then .type (u.nameInPackage name)
      else .type (TopLevelName.mk JavaLang.packageName name).qualifiedName

/-! ## The layers -/

variable {u : Scope} {name : String}

theorem meaning_of_import {t : BinaryName} (hvariable : name ∉ u.typeVariables)
    (ht : t ∈ u.imports) (hname : t.simpleName = name)
    (hother : ∀ s ∈ u.imports, s.simpleName = name → s = t) :
    u.meaning name = .type t.qualifiedName := by
  rw [meaning, if_neg hvariable]
  cases hfind : u.imports.find? (·.simpleName = name) with
  | none => exact absurd hname (by simpa using List.find?_eq_none.1 hfind t ht)
  | some s =>
    rw [hother s (List.mem_of_find?_eq_some hfind) (by simpa using List.find?_some hfind)]

theorem meaning_of_no_import (hvariable : name ∉ u.typeVariables)
    (hother : ∀ s ∈ u.imports, s.simpleName ≠ name) :
    u.meaning name =
      if u.declares name then .type (u.nameInPackage name)
      else .type (TopLevelName.mk JavaLang.packageName name).qualifiedName := by
  have hfind : u.imports.find? (·.simpleName = name) = none :=
    List.find?_eq_none.2 fun s hs => by simpa using hother s hs
  rw [meaning, if_neg hvariable, hfind]

theorem declares_iff :
    u.declares name = true ↔
      name ∈ u.packageTypes ∨ ∃ t ∈ u.referenced, t.qualifiedName = u.nameInPackage name := by
  simp [declares]

/-! ## Units that a qualifier spells -/

/-- The scope has the names that a qualifier knows, and the imports of its renderer. -/
structure Describes (u : Scope) (q : TypeQualifier) : Prop where
  mem_typeVariables : ∀ name, name ∈ u.typeVariables ↔ name ∈ q.typeVariables
  imports_eq : u.imports = q.renderer.importDeclarations
  packageName_eq : u.packageName = q.packageName
  mem_packageTypes : ∀ name, name ∈ u.packageTypes ↔ name ∈ q.packageTypes
  mem_referenced : ∀ t, t ∈ u.referenced ↔ t ∈ q.referencedTypes

variable {q : TypeQualifier} {a : BinaryName}

theorem Describes.mem_imports (hu : u.Describes q) (hq : q.IsProjected) {t : BinaryName} :
    t ∈ u.imports ↔ t ∈ q.importedTypes := by
  rw [hu.imports_eq, TypeQualifier.mem_importDeclarations_renderer_iff hq]

/-- The unit's package declares the name of a referenced type of `java.lang` only if the
type is spelled in full. -/
theorem Describes.not_declares_of_javaLang (hu : u.Describes q) (hq : q.IsProjected)
    (ha : a ∈ q.referencedTypes) (hshort : a ∉ q.qualifiedTypes)
    (hlang : a.packageName = JavaLang.packageName) (hforeign : a.packageName ≠ q.packageName) :
    ¬ u.declares a.simpleName = true := by
  intro hdeclares
  rcases declares_iff.1 hdeclares with hknown | ⟨t, ht, hname⟩
  · exact hshort (TypeQualifier.mem_qualifiedTypes_iff.2
      ⟨ha, .inr (.inr ⟨hlang, (hu.mem_packageTypes _).1 hknown⟩)⟩)
  · have htr := (hu.mem_referenced t).1 ht
    obtain ⟨hpackage, hsimple⟩ :=
      (BinaryName.qualifiedName_eq_iff (hq t htr) a.ne_dot_of_mem_simpleName).1 hname
    have hne : t ≠ a := fun heq => hforeign (by rw [← heq, hpackage]; exact hu.packageName_eq)
    exact hforeign (TypeQualifier.packageName_eq_of_available hshort ha htr hne hsimple)

/-- The simple name of an available type stands for that type. -/
theorem Describes.meaning_simpleName (hu : u.Describes q) (hq : q.IsProjected)
    (ha : a ∈ q.referencedTypes) (hshort : a ∉ q.qualifiedTypes) :
    u.meaning a.simpleName = .type a.qualifiedName := by
  have hvariable : a.simpleName ∉ u.typeVariables := fun hmem =>
    hshort (TypeQualifier.mem_qualifiedTypes_iff.2
      ⟨ha, .inr (.inl ((hu.mem_typeVariables _).1 hmem))⟩)
  by_cases himplicit : a.packageName = JavaLang.packageName ∨ a.packageName = q.packageName
  · -- an import with the name of `a` would have to be qualified because of `a`
    have hother : ∀ s ∈ u.imports, s.simpleName ≠ a.simpleName := by
      intro s hs hsimple
      obtain ⟨hsr, hsq, hexplicit⟩ :=
        TypeQualifier.mem_importedTypes_iff.1 ((hu.mem_imports hq).1 hs)
      have hne : a ≠ s := fun heq => hexplicit (heq ▸ himplicit)
      exact hexplicit (.inr
        (TypeQualifier.packageName_eq_of_available hsq hsr ha hne hsimple.symm))
    rw [meaning_of_no_import hvariable hother]
    by_cases hown : a.packageName = q.packageName
    · have hname : u.nameInPackage a.simpleName = a.qualifiedName := by
        rw [nameInPackage, hu.packageName_eq, ← hown]
        exact BinaryName.qualifiedName_topLevelName (hq a ha)
      rw [if_pos (declares_iff.2 (.inr ⟨a, (hu.mem_referenced a).2 ha, hname.symm⟩)), hname]
    · have hlang : a.packageName = JavaLang.packageName := himplicit.resolve_right hown
      rw [if_neg (hu.not_declares_of_javaLang hq ha hshort hlang hown), ← hlang,
        BinaryName.qualifiedName_topLevelName (hq a ha)]
  · have himported : a ∈ q.importedTypes :=
      TypeQualifier.mem_importedTypes_iff.2 ⟨ha, hshort, himplicit⟩
    refine meaning_of_import hvariable ((hu.mem_imports hq).2 himported) rfl ?_
    intro s hs hsimple
    obtain ⟨hsr, hsq, -⟩ := TypeQualifier.mem_importedTypes_iff.1 ((hu.mem_imports hq).1 hs)
    exact TypeQualifier.distinctSimpleNames_availableTypes hq a
      (SortedSet.mem_ofList.2 (TypeQualifier.mem_availableTypes_iff.2 ⟨ha, hshort⟩)) s
      (SortedSet.mem_ofList.2 (TypeQualifier.mem_availableTypes_iff.2 ⟨hsr, hsq⟩)) hsimple

/-- A name that is not spelled in full means its type: its first segment stands for a
type, and the other segments lead from that type to it. -/
theorem Describes.meaning_render (hu : u.Describes q) (hq : q.IsProjected) (t : BinaryName)
    (hshort : q.renderer.render t ≠ t.qualifiedName) :
    ∃ first rest a, Pieces.cut '.' (q.renderer.render t) = first :: rest ∧
      u.meaning first = .type a ∧ ".".intercalate (a :: rest) = t.qualifiedName := by
  rcases TypeQualifier.render_renderer_eq_or hq t with ⟨a, ha, havailable, rest, hrest, hrender⟩ | h
  · refine ⟨a.simpleName, rest, a.qualifiedName, ?_,
      hu.meaning_simpleName hq ha havailable, ?_⟩
    · rw [hrender]
      apply Pieces.cut_intercalate (by simp)
      intro s hs
      rcases List.mem_cons.1 hs with rfl | hs
      · exact a.ne_dot_of_mem_simpleName
      · exact BinaryName.ne_dot_of_mem_segments (n := t) (by rw [hrest]; simp [hs])
    · rw [t.qualifiedName_eq, hrest, Pieces.intercalate_append _ a.segments_ne_nil,
        ← a.qualifiedName_eq]
  · exact absurd h hshort

/-- Every unit has a renderer, and whatever the renderer does not spell in full means
what it is meant to in the unit's scope. -/
theorem exists_renderer_meaning (packageName : String) (typeVariables packageTypes : List String)
    (referenced : List BinaryName) :
    ∃ renderer,
      ((TypeQualifier.resolve packageName typeVariables referenced).withPackageTypes
        packageTypes).nameRenderer = .ok renderer ∧
      ∀ t ∈ referenced, renderer.render t ≠ t.qualifiedName →
        ∃ first rest a, Pieces.cut '.' (renderer.render t) = first :: rest ∧
          Scope.meaning
            { typeVariables := typeVariables
              imports := renderer.importDeclarations
              packageName := packageName
              packageTypes := packageTypes
              referenced := referenced.map (·.topLevelType) } first = .type a ∧
          ".".intercalate (a :: rest) = t.qualifiedName := by
  have hq : ((TypeQualifier.resolve packageName typeVariables referenced).withPackageTypes
      packageTypes).IsProjected :=
    (TypeQualifier.isProjected_resolve _ _ _).withPackageTypes _
  refine ⟨_, TypeQualifier.nameRenderer_eq_ok hq, fun t _ hshort => ?_⟩
  refine Describes.meaning_render ⟨?_, rfl, rfl, ?_, ?_⟩ hq t hshort
  · intro name
    exact Iff.symm SortedSet.mem_ofList
  · intro name
    simp [TypeQualifier.withPackageTypes, TypeQualifier.resolve]
  · intro t
    simp [TypeQualifier.withPackageTypes, TypeQualifier.resolve]

/-- A type nested in an imported one, in a package that declares another type. -/
theorem exists_renderer_meaning_nested :
    ∃ kind renderer, kind.text = "javax.annotation.processing.Generated$Kind" ∧
      ((TypeQualifier.resolve "test" ["T"] [kind, JavaLang.override]).withPackageTypes
        ["Box"]).nameRenderer = .ok renderer ∧
      renderer.render kind = "Generated.Kind" ∧
      ∃ first rest a, Pieces.cut '.' "Generated.Kind" = first :: rest ∧
        Scope.meaning
          { typeVariables := ["T"]
            imports := renderer.importDeclarations
            packageName := "test"
            packageTypes := ["Box"]
            referenced := [kind, JavaLang.override].map (·.topLevelType) } first = .type a ∧
        ".".intercalate (a :: rest) = kind.qualifiedName := by
  obtain ⟨renderer, hok, hmeans⟩ := exists_renderer_meaning "test" ["T"] ["Box"]
    [.nested generatedMarker ⟨"Kind", by simp, by simp⟩, JavaLang.override]
  have hrenderer := Except.ok.inj (hok.symm.trans
    (TypeQualifier.nameRenderer_eq_ok
      ((TypeQualifier.isProjected_resolve _ _ _).withPackageTypes _)))
  have hspelled : renderer.render (.nested generatedMarker ⟨"Kind", by simp, by simp⟩) =
      "Generated.Kind" := by
    rw [hrenderer]
    decide +kernel
  refine ⟨_, renderer, by decide, hok, hspelled, ?_⟩
  have hshort := hmeans _ List.mem_cons_self
  rw [hspelled] at hshort
  exact hshort (by decide)

end Scope

end ImmutableJava
