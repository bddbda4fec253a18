import ImmutableJava.Proofs.ImportDeclarations
import ImmutableJava.Proofs.ShortestName

/-!
# Qualification only grows

A name is short because nothing in the unit contradicts it, and whatever the unit learns
about more references, type variables or package types can only contradict more.  Each
clause of the rule for full spelling asks that something exists, and none that something
is missing; the package of the unit occurs in it negated, but that never changes
(`IsWithin.mem_qualifiedTypes`).

A unit learns about package types after its references are known, in as many steps as its
caller likes.  The parts of a qualifier are read off what it holds and never updated, so
only the union of the steps is left in the end (`foldl_withPackageTypes`).  Package types
contradict names of `java.lang` alone, and those are implicit as long as nothing else
contradicts them.  So some implicit types become qualified, and the imports stay as they
were (`QualifiesJavaLang`).
-/

namespace ImmutableJava

namespace TypeQualifier

variable {q q' : TypeQualifier} {t : BinaryName}
  {typeVariables typeVariables' packageTypes packageTypes' : List String}
  {referenced referenced' : List BinaryName}

/-! ## Units that know more -/

/-- One unit of a package knows all that another one knows. -/
structure IsWithin (q q' : TypeQualifier) : Prop where
  packageName_eq : q.packageName = q'.packageName
  mem_typeVariables : ∀ name ∈ q.typeVariables, name ∈ q'.typeVariables
  mem_packageTypes : ∀ name ∈ q.packageTypes, name ∈ q'.packageTypes
  mem_referencedTypes : ∀ t ∈ q.referencedTypes, t ∈ q'.referencedTypes

theorem IsWithin.mem_qualifiedTypes (h : q.IsWithin q') (ht : t ∈ q.qualifiedTypes) :
    t ∈ q'.qualifiedTypes := by
  obtain ⟨href, hcause⟩ := mem_qualifiedTypes_iff.1 ht
  refine mem_qualifiedTypes_iff.2 ⟨h.mem_referencedTypes t href, ?_⟩
  rcases hcause with ⟨hpackage, u, hu, hne, hname⟩ | hvariable | ⟨hlang, hdeclared⟩
  · exact .inl ⟨h.packageName_eq ▸ hpackage, u, h.mem_referencedTypes u hu, hne, hname⟩
  · exact .inr (.inl (h.mem_typeVariables _ hvariable))
  · exact .inr (.inr ⟨hlang, h.mem_packageTypes _ hdeclared⟩)

theorem IsWithin.isQualified (h : q.IsWithin q') (ht : q.isQualified t = true) :
    q'.isQualified t = true :=
  isQualified_iff.2 (h.mem_qualifiedTypes (isQualified_iff.1 ht))

/-- Where no package has a type among its parts, a type that is spelled in full stays so in a
unit that knows more. -/
theorem IsWithin.render_eq_qualifiedName (h : q.IsWithin q') (hq : q'.IsProjected)
    (hcoherent : Coherent referenced)
    (hreferenced : ∀ a ∈ q'.referencedTypes, ∃ r ∈ referenced, r.topLevelType = a)
    (ht : t ∈ referenced) (hfull : q.isQualified t = true) :
    q'.renderer.render t = t.qualifiedName :=
  render_renderer_eq_qualifiedName hq hcoherent hreferenced ht
    (h.mem_qualifiedTypes (isQualified_iff.1 hfull))

theorem isWithin_resolve (packageName : String) (hvariables : typeVariables ⊆ typeVariables')
    (hreferenced : referenced ⊆ referenced') (hpackage : packageTypes ⊆ packageTypes') :
    ((resolve packageName typeVariables referenced).withPackageTypes packageTypes).IsWithin
      ((resolve packageName typeVariables' referenced').withPackageTypes packageTypes') where
  packageName_eq := rfl
  mem_typeVariables name hname := by
    simp only [withPackageTypes, resolve, SortedSet.mem_ofList] at hname ⊢
    exact hvariables hname
  mem_packageTypes name hname := by
    simp only [withPackageTypes, resolve, SortedSet.mem_union, SortedSet.mem_ofList] at hname ⊢
    exact hname.imp_right fun h => hpackage h
  mem_referencedTypes t ht := by
    simp only [withPackageTypes, mem_referencedTypes_resolve] at ht ⊢
    obtain ⟨r, hr, rfl⟩ := ht
    exact ⟨r, hreferenced hr, rfl⟩

/-! ## Package types learned in steps -/

theorem mem_packageTypes_withPackageTypes {names : List String} {name : String} :
    name ∈ (q.withPackageTypes names).packageTypes ↔ name ∈ q.packageTypes ∨ name ∈ names := by
  rw [withPackageTypes, SortedSet.mem_union, SortedSet.mem_ofList]

/-- Of the names that a step brings only the members count. -/
theorem withPackageTypes_congr {names names' : List String}
    (h : ∀ name, name ∈ names ↔ name ∈ names') :
    q.withPackageTypes names = q.withPackageTypes names' := by
  have hnames : SortedSet.ofList names = SortedSet.ofList names' :=
    SortedSet.ext_mem fun name => by rw [SortedSet.mem_ofList, SortedSet.mem_ofList, h]
  rw [withPackageTypes, withPackageTypes, hnames]

theorem isWithin_withPackageTypes (q : TypeQualifier) (names : List String) :
    q.IsWithin (q.withPackageTypes names) where
  packageName_eq := rfl
  mem_typeVariables _ hname := hname
  mem_packageTypes _ hname := mem_packageTypes_withPackageTypes.2 (.inl hname)
  mem_referencedTypes _ ht := ht

theorem withPackageTypes_nil (q : TypeQualifier) : q.withPackageTypes [] = q := by
  have hnames : q.packageTypes ∪ SortedSet.ofList [] = q.packageTypes :=
    SortedSet.ext_mem fun name => by simp
  rw [withPackageTypes, hnames]

/-- Two steps are one step with both their names. -/
theorem withPackageTypes_withPackageTypes (q : TypeQualifier) (names more : List String) :
    (q.withPackageTypes names).withPackageTypes more = q.withPackageTypes (names ++ more) := by
  have hnames : q.packageTypes ∪ SortedSet.ofList names ∪ SortedSet.ofList more =
      q.packageTypes ∪ SortedSet.ofList (names ++ more) :=
    SortedSet.ext_mem fun name => by simp [or_assoc]
  rw [withPackageTypes, withPackageTypes, withPackageTypes, hnames]

/-- Any number of steps is one step with all their names. -/
theorem foldl_withPackageTypes (q : TypeQualifier) (steps : List (List String)) :
    steps.foldl withPackageTypes q = q.withPackageTypes steps.flatten := by
  induction steps generalizing q with
  | nil => exact q.withPackageTypes_nil.symm
  | cons names steps ih =>
    rw [List.foldl_cons, ih, withPackageTypes_withPackageTypes, List.flatten_cons]

/-! ## What package types change -/

/-- A qualifier that differs from another one in this only: the implicit types of `java.lang`
with one of the names are qualified. -/
structure QualifiesJavaLang (q q' : TypeQualifier) (names : List String) : Prop where
  packageName_eq : q'.packageName = q.packageName
  typeVariables_eq : q'.typeVariables = q.typeVariables
  referencedTypes_eq : q'.referencedTypes = q.referencedTypes
  importedTypes_eq : q'.importedTypes = q.importedTypes
  mem_qualifiedTypes_iff : ∀ t, t ∈ q'.qualifiedTypes ↔ t ∈ q.qualifiedTypes ∨
    (t ∈ q.implicitTypes ∧ t.packageName = "java.lang" ∧ t.simpleName ∈ names)
  mem_implicitTypes_iff : ∀ t, t ∈ q'.implicitTypes ↔
    t ∈ q.implicitTypes ∧ ¬ (t.packageName = "java.lang" ∧ t.simpleName ∈ names)

/-- A type of `java.lang` that nothing contradicts is implicit. -/
theorem mem_implicitTypes_of_javaLang (ht : t ∈ q.referencedTypes) (hfull : t ∉ q.qualifiedTypes)
    (hlang : t.packageName = "java.lang") : t ∈ q.implicitTypes :=
  mem_implicitTypes_iff.2 ⟨ht, hfull, .inl hlang⟩

/-- A type that package types qualify was implicit, if it was not qualified for another
reason. -/
theorem mem_qualifiedTypes_withPackageTypes_iff {names : List String} :
    t ∈ (q.withPackageTypes names).qualifiedTypes ↔ t ∈ q.qualifiedTypes ∨
      (t ∈ q.implicitTypes ∧ t.packageName = "java.lang" ∧ t.simpleName ∈ names) := by
  constructor
  · intro ht
    by_cases hfull : t ∈ q.qualifiedTypes
    · exact .inl hfull
    obtain ⟨href, hcause⟩ := mem_qualifiedTypes_iff.1 ht
    rcases hcause with hother | hvariable | ⟨hlang, hdeclared⟩
    · exact .inl (mem_qualifiedTypes_iff.2 ⟨href, .inl hother⟩)
    · exact .inl (mem_qualifiedTypes_iff.2 ⟨href, .inr (.inl hvariable)⟩)
    rcases mem_packageTypes_withPackageTypes.1 hdeclared with hold | hnew
    · exact .inl (mem_qualifiedTypes_iff.2 ⟨href, .inr (.inr ⟨hlang, hold⟩)⟩)
    · exact .inr ⟨mem_implicitTypes_of_javaLang href hfull hlang, hlang, hnew⟩
  · rintro (hfull | ⟨himplicit, hlang, hname⟩)
    · exact (q.isWithin_withPackageTypes names).mem_qualifiedTypes hfull
    · have hdeclared : t.simpleName ∈ (q.withPackageTypes names).packageTypes :=
        mem_packageTypes_withPackageTypes.2 (.inr hname)
      exact mem_qualifiedTypes_iff.2
        ⟨(mem_implicitTypes_iff.1 himplicit).1, .inr (.inr ⟨hlang, hdeclared⟩)⟩

theorem qualifiesJavaLang_withPackageTypes (q : TypeQualifier) (names : List String) :
    q.QualifiesJavaLang (q.withPackageTypes names) names where
  packageName_eq := rfl
  typeVariables_eq := rfl
  referencedTypes_eq := rfl
  importedTypes_eq := by
    -- an imported type is of no package that is implicit, so it stays as it was
    refine SortedSet.eq_of_mem_iff_of_pairwise (pairwise_importedTypes _) q.pairwise_importedTypes
      fun t => ?_
    rw [mem_importedTypes_iff, mem_importedTypes_iff, mem_qualifiedTypes_withPackageTypes_iff]
    refine and_congr_right fun _ => and_congr_left fun hpackage => not_congr (or_iff_left ?_)
    rintro ⟨-, hlang, -⟩
    exact hpackage (.inl hlang)
  mem_qualifiedTypes_iff t := mem_qualifiedTypes_withPackageTypes_iff
  mem_implicitTypes_iff t := by
    rw [mem_implicitTypes_iff, mem_qualifiedTypes_withPackageTypes_iff]
    constructor
    · rintro ⟨href, hfull, hpackage⟩
      have himplicit : t ∈ q.implicitTypes :=
        mem_implicitTypes_iff.2 ⟨href, fun hq => hfull (.inl hq), hpackage⟩
      exact ⟨himplicit, fun hnamed => hfull (.inr ⟨himplicit, hnamed⟩)⟩
    · rintro ⟨himplicit, hnamed⟩
      obtain ⟨href, hfull, hpackage⟩ := mem_implicitTypes_iff.1 himplicit
      refine ⟨href, ?_, hpackage⟩
      rintro (hq | ⟨-, hq⟩)
      · exact hfull hq
      · exact hnamed hq

/-- What a unit qualifies is qualified by every unit of the package that has more references,
type variables and package types.  Package types may become known in any steps, and all that
they change is that implicit types of `java.lang` become qualified. -/
theorem isQualified_mono_withPackageTypes (packageName : String)
    (typeVariables packageTypes : List String) (referenced : List BinaryName) :
    (∀ typeVariables' packageTypes' referenced', typeVariables ⊆ typeVariables' →
      packageTypes ⊆ packageTypes' → referenced ⊆ referenced' → ∀ t,
        ((resolve packageName typeVariables referenced).withPackageTypes
          packageTypes).isQualified t = true →
        ((resolve packageName typeVariables' referenced').withPackageTypes
          packageTypes').isQualified t = true) ∧
      (∀ steps : List (List String),
        (∀ name, name ∈ packageTypes ↔ ∃ names ∈ steps, name ∈ names) →
        resolveWith packageName typeVariables referenced steps =
          (resolve packageName typeVariables referenced).withPackageTypes packageTypes) ∧
      (resolve packageName typeVariables referenced).QualifiesJavaLang
        ((resolve packageName typeVariables referenced).withPackageTypes packageTypes)
        packageTypes := by
  refine ⟨?_, ?_, qualifiesJavaLang_withPackageTypes _ _⟩
  · intro typeVariables' packageTypes' referenced' hvariables hpackage hreferenced t ht
    exact (isWithin_resolve packageName hvariables hreferenced hpackage).isQualified ht
  · intro steps hsteps
    rw [resolveWith, foldl_withPackageTypes]
    exact withPackageTypes_congr fun name => by rw [List.mem_flatten, hsteps]

/-- The names `Object` and `Override` of `java.lang`, the first of them declared in the unit's
package, and then a second type named `List` and a type variable named `Override`. -/
theorem isQualified_mono_withPackageTypes_javaLang :
    ∃ list other : BinaryName, list.text = "a.List" ∧ other.text = "b.List" ∧
      ((resolve "test" ["Override"] [other, list, JavaLang.override, JavaLang.object]
        ).withPackageTypes ["Box", "Object"]).isQualified JavaLang.object = true ∧
      resolveWith "test" [] [list, JavaLang.override, JavaLang.object]
          [["Object", "Object"], [], ["Object"]] =
        (resolve "test" [] [list, JavaLang.override, JavaLang.object]).withPackageTypes
          ["Object"] ∧
      JavaLang.object ∈ (resolve "test" [] [list, JavaLang.override, JavaLang.object]
        ).implicitTypes ∧
      ((resolve "test" [] [list, JavaLang.override, JavaLang.object]).withPackageTypes
        ["Object"]).implicitTypes.toList = [JavaLang.override] ∧
      ((resolve "test" [] [list, JavaLang.override, JavaLang.object]).withPackageTypes
        ["Object"]).importedTypes = [list] := by
  refine ⟨.dotted (.root ⟨"a", by simp, by simp⟩) ⟨"List", by simp, by simp⟩,
    .dotted (.root ⟨"b", by simp, by simp⟩) ⟨"List", by simp, by simp⟩, by decide, by decide, ?_⟩
  obtain ⟨hgrows, hsteps, hmoves⟩ := isQualified_mono_withPackageTypes "test" [] ["Object"]
    [.dotted (.root ⟨"a", by simp, by simp⟩) ⟨"List", by simp, by simp⟩, JavaLang.override,
      JavaLang.object]
  refine ⟨hgrows _ _ _ (by simp) (by simp) (by simp) JavaLang.object (by decide +kernel),
    hsteps _ (by simp), by decide +kernel, by decide +kernel, ?_⟩
  rw [hmoves.importedTypes_eq]
  decide +kernel

end TypeQualifier

end ImmutableJava
