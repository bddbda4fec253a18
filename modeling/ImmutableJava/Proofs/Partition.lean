import ImmutableJava.Proofs.Qualification

/-!
# The references of a unit fall into three parts

What becomes of a reference can be read off what the unit was given: its package, its type
variables, the types of its package and the types that it refers to.  `IsPartition` states
this with those lists and without the steps of a qualifier.  Every reference lies in exactly
one part; it is qualified by a rule about names (`MustQualify`), implicit by its package
otherwise, and imported in all other cases.

The first clause of the rule excepts the types of the unit's own package, and the other two
do not.  So a type of the package stays short beside a type of another package that has its
name, and of any number of types that share a name only the one of the package can stay
short.

Package types become known after the references do, and the parts that they leave are those
of the rule for all that is known then (`isPartition_withPackageTypes`).
-/

namespace ImmutableJava

namespace TypeQualifier

variable {q : TypeQualifier} {packageName : String}
  {typeVariables typeVariables' packageTypes packageTypes' : List String}
  {types types' : List BinaryName}

/-! ## The rule -/

/-- In a unit of the package the simple name of a referenced type means something else. -/
def MustQualify (packageName : String) (typeVariables packageTypes : List String)
    (types : List BinaryName) (t : BinaryName) : Prop :=
  ((∃ u ∈ types, u ≠ t ∧ u.simpleName = t.simpleName) ∧ t.packageName ≠ packageName) ∨
    t.simpleName ∈ typeVariables ∨
    (t.packageName = "java.lang" ∧ t.simpleName ∈ packageTypes)

/-- Of the names and types the rule asks only which there are. -/
theorem mustQualify_congr (hvariables : ∀ name, name ∈ typeVariables ↔ name ∈ typeVariables')
    (hpackage : ∀ name, name ∈ packageTypes ↔ name ∈ packageTypes')
    (htypes : ∀ t, t ∈ types ↔ t ∈ types') (t : BinaryName) :
    MustQualify packageName typeVariables packageTypes types t ↔
      MustQualify packageName typeVariables' packageTypes' types' t := by
  simp only [MustQualify, hvariables, hpackage, htypes]

/-! ## The parts -/

/-- The parts of a qualifier are what a unit and its references make of them. -/
structure IsPartition (q : TypeQualifier) (packageName : String)
    (typeVariables packageTypes : List String) (types : List BinaryName) : Prop where
  /-- The parts are made of the references, and no reference is left out. -/
  covers : ∀ t, t ∈ types ↔ t ∈ q.qualifiedTypes ∨ t ∈ q.implicitTypes ∨ t ∈ q.importedTypes
  qualified_implicit : ∀ t ∈ q.qualifiedTypes, t ∉ q.implicitTypes
  qualified_imported : ∀ t ∈ q.qualifiedTypes, t ∉ q.importedTypes
  implicit_imported : ∀ t ∈ q.implicitTypes, t ∉ q.importedTypes
  qualified_iff : ∀ t ∈ types,
    (t ∈ q.qualifiedTypes ↔ MustQualify packageName typeVariables packageTypes types t)
  implicit_iff : ∀ t ∈ types, t ∉ q.qualifiedTypes →
    (t ∈ q.implicitTypes ↔ t.packageName = "java.lang" ∨ t.packageName = packageName)
  /-- The imports are listed in increasing order, each of them once. -/
  imported_sorted : q.importedTypes.Pairwise fun a b => compare a b = .lt

theorem IsPartition.congr (h : q.IsPartition packageName typeVariables packageTypes types)
    (hvariables : ∀ name, name ∈ typeVariables ↔ name ∈ typeVariables')
    (hpackage : ∀ name, name ∈ packageTypes ↔ name ∈ packageTypes')
    (htypes : ∀ t, t ∈ types ↔ t ∈ types') :
    q.IsPartition packageName typeVariables' packageTypes' types' where
  covers t := by rw [← htypes, h.covers]
  qualified_implicit := h.qualified_implicit
  qualified_imported := h.qualified_imported
  implicit_imported := h.implicit_imported
  qualified_iff t ht := by
    rw [h.qualified_iff t ((htypes t).2 ht), mustQualify_congr hvariables hpackage htypes]
  implicit_iff t ht := h.implicit_iff t ((htypes t).2 ht)
  imported_sorted := h.imported_sorted

/-- Every qualifier divides its references by what it holds. -/
theorem isPartition_toList (q : TypeQualifier) :
    q.IsPartition q.packageName q.typeVariables.toList q.packageTypes.toList
      q.referencedTypes.toList where
  covers t := by
    rw [SortedSet.mem_toList, mem_implicitTypes_iff, mem_importedTypes_iff]
    constructor
    · intro ht
      by_cases hfull : t ∈ q.qualifiedTypes
      · exact .inl hfull
      · by_cases hpackage : t.packageName = JavaLang.packageName ∨ t.packageName = q.packageName
        · exact .inr (.inl ⟨ht, hfull, hpackage⟩)
        · exact .inr (.inr ⟨ht, hfull, hpackage⟩)
    · rintro (hfull | ⟨ht, -⟩ | ⟨ht, -⟩)
      · exact (mem_qualifiedTypes_iff.1 hfull).1
      · exact ht
      · exact ht
  qualified_implicit t hfull himplicit := (mem_implicitTypes_iff.1 himplicit).2.1 hfull
  qualified_imported t hfull himported := (mem_importedTypes_iff.1 himported).2.1 hfull
  implicit_imported t himplicit himported :=
    (mem_importedTypes_iff.1 himported).2.2 (mem_implicitTypes_iff.1 himplicit).2.2
  qualified_iff t ht := by
    rw [mem_qualifiedTypes_iff, MustQualify, and_comm (b := t.packageName ≠ q.packageName)]
    exact and_iff_right (SortedSet.mem_toList.1 ht)
  implicit_iff t ht hshort := by
    rw [mem_implicitTypes_iff]
    exact (and_iff_right (SortedSet.mem_toList.1 ht)).trans (and_iff_right hshort)
  imported_sorted := q.unqualifiedTypes.sorted.filter _

/-- The references of a unit are divided by the rule, with the package types that became
known last. -/
theorem isPartition_withPackageTypes (packageName : String)
    (typeVariables packageTypes : List String) (referenced : List BinaryName) :
    ((resolve packageName typeVariables referenced).withPackageTypes packageTypes).IsPartition
      packageName typeVariables packageTypes (referenced.map (·.topLevelType)) := by
  refine (isPartition_toList _).congr (fun name => ?_) (fun name => ?_) fun t => ?_
  · simp [withPackageTypes, resolve]
  · simp [withPackageTypes, resolve]
  · simp [withPackageTypes, resolve]

/-- Of three types of one name only that of the unit's package stays short. -/
example :
    (resolve "test" [] (["a.List", "b.List", "test.List"].filterMap BinaryName.ofText?)
      ).qualifiedTypes.toList.map (·.qualifiedName) = ["a.List", "b.List"] := by
  decide +kernel

end TypeQualifier

end ImmutableJava
