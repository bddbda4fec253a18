import ImmutableJava.JavaLang
import ImmutableJava.Proofs.Construction

/-!
# Declared types and their headers

The header that declares a type is the type's own expression with one change: the simple
name stands where the raw type stood.  `Map<%s, %s>` is the header of `%s<%s, %s>`, and the
type parameters are written as they are in any use of the type.

So the two expressions have everything behind the first placeholder in common, and they
render to a name and the same text, whatever the types are called
(`Constructible.isDeclared_cases`).  That takes a pattern that starts with a placeholder and
a first argument that belongs to it.  The operation does not look: if the placeholder were
missing, it would write the simple name in front of a pattern that already has everything,
and drop an argument that is still needed.

The kind `declared` is the only thing that the operations ask for, and for templates that
were put together it is enough.  No other kind answers a raw type, has a header or takes
arguments for an enclosing type.

## Headers that cannot be made

A simple name may contain `%s`, and then the header has a placeholder without an argument.
This is the only obstacle.  What follows a raw type is nothing or a bracket, so a
simple name that ends in `%` makes no placeholder with it.
-/

namespace ImmutableJava

namespace Template

open Pattern

variable {t u : Template}

/-- Giving arguments to a list of enclosing types is one of the ways to put templates
together. -/
theorem Constructible.addOuterArgumentLists (h : t.Constructible)
    {levels : List (BinaryName × List Template)}
    (hlevels : ∀ level ∈ levels, ∀ a ∈ level.2, Constructible a)
    (made : t.addOuterArgumentLists levels = .ok u) : u.Constructible := by
  induction levels generalizing t with
  | nil =>
    cases made
    exact h
  | cons level levels ih =>
    obtain ⟨hlevel, hrest⟩ := List.forall_mem_cons.1 hlevels
    obtain ⟨v, hv, hu⟩ := addOuterArgumentLists_cons_eq_ok_iff.1 made
    exact ih (.addOuterArguments h hlevel hv) hrest hu

/-! ## Templates of other kinds -/

theorem rawType_of_isDeclared_eq_false (h : t.isDeclared = false) :
    t.rawType = .error (.notADeclaredType t.pattern) := by
  rw [rawType, h]
  split
  · rfl
  · rfl

theorem rawTypeOrFault_of_isDeclared_eq_false (h : t.isDeclared = false) :
    t.rawTypeOrFault = .error (.misuse (.notADeclaredType t.pattern)) := by
  rw [rawTypeOrFault, rawType_of_isDeclared_eq_false h]
  rfl

theorem topLevelDeclaration_of_isDeclared_eq_false (h : t.isDeclared = false) :
    t.topLevelDeclaration = .error (.misuse (.notADeclaredType t.pattern)) := by
  rw [topLevelDeclaration, rawTypeOrFault_of_isDeclared_eq_false h]
  rfl

theorem addOuterArguments_of_isDeclared_eq_false (h : t.isDeclared = false) (outer : BinaryName)
    (ts : List Template) :
    t.addOuterArguments outer ts = .error (.misuse (.notADeclaredType t.pattern)) := by
  rw [addOuterArguments, rawTypeOrFault_of_isDeclared_eq_false h]
  rfl

/-! ## Declared types -/

/-- A template of the kind of declared types stands for its first argument: the pattern starts
with the placeholder of that type, and the type and its header render to a name and the same
text. -/
structure StandsFor (t : Template) (raw : BinaryName) : Prop where
  placeholder_prefix : placeholder.toList <+: t.pattern.toList
  head?_args : t.args.head? = some raw
  rawType_eq : t.rawType = .ok raw
  /-- The header is there, or its pattern and its arguments do not correspond. -/
  exists_header_or : (∃ header, t.topLevelDeclaration = .ok header) ∨
    ∃ fault, t.topLevelDeclaration = .error (.misaligned fault)
  exists_header_iff : (∃ header, t.topLevelDeclaration = .ok header) ↔ count raw.simpleName = 0
  exists_text : ∀ namer, ∃ text, t.render namer = namer raw ++ text ∧
    ∀ header, t.topLevelDeclaration = .ok header → header.render namer = raw.simpleName ++ text

theorem IsRooted.standsFor {raw : BinaryName} {tail : String} {rest : List BinaryName}
    (h : t.IsRooted raw tail rest) : t.StandsFor raw where
  placeholder_prefix := by
    rw [h.eq_mk, String.toList_append]
    exact List.prefix_append _ _
  head?_args := by rw [h.eq_mk, List.head?_cons]
  rawType_eq := by
    rw [h.eq_mk]
    rfl
  exists_header_or := by
    rw [h.topLevelDeclaration_eq]
    cases make (raw.simpleName ++ tail) rest .declaration with
    | ok header => exact .inl ⟨header, rfl⟩
    | error fault => exact .inr ⟨fault, rfl⟩
  exists_header_iff := h.exists_topLevelDeclaration_iff
  exists_text namer := ⟨filled tail (rest.map namer), h.render_eq namer,
    fun _ hheader => h.render_topLevelDeclaration hheader namer⟩

/-- A template that was put together stands for its first argument if it is of the kind of
declared types; otherwise no operation on declared types applies to it. -/
theorem Constructible.isDeclared_cases (h : t.Constructible) :
    (t.isDeclared = true → ∃ raw, t.StandsFor raw) ∧
      (t.isDeclared = false →
        t.rawType = .error (.notADeclaredType t.pattern) ∧
        t.topLevelDeclaration = .error (.misuse (.notADeclaredType t.pattern)) ∧
        ∀ outer ts,
          t.addOuterArguments outer ts = .error (.misuse (.notADeclaredType t.pattern))) := by
  constructor
  · intro hdeclared
    obtain ⟨raw, tail, rest, hroot⟩ := h.exists_isRooted (of_decide_eq_true hdeclared)
    exact ⟨raw, hroot.standsFor⟩
  · intro hother
    exact ⟨rawType_of_isDeclared_eq_false hother,
      topLevelDeclaration_of_isDeclared_eq_false hother,
      addOuterArguments_of_isDeclared_eq_false hother⟩

/-- A type with arguments on two levels, and an array of such types. -/
theorem Constructible.isDeclared_cases_nested :
    ∃ (inner : BinaryName) (part t header array : Template),
      inner = .nested JavaLang.object ⟨"Inner", by simp, by simp⟩ ∧
      part = ⟨"%s", [JavaLang.override], .declared⟩ ∧
      t = ⟨"%s<%s>.Inner<%s>", [JavaLang.object, JavaLang.override, JavaLang.override],
        .declared⟩ ∧
      t.Constructible ∧ t.isDeclared = true ∧ t.StandsFor JavaLang.object ∧
      header = ⟨"Object<%s>.Inner<%s>", [JavaLang.override, JavaLang.override], .declaration⟩ ∧
      t.topLevelDeclaration = .ok header ∧
      header.render BinaryName.qualifiedName =
        "Object<java.lang.Override>.Inner<java.lang.Override>" ∧
      array = ⟨"%s<%s>.Inner<%s>[]", t.args, .array⟩ ∧
      array.Constructible ∧ array.isDeclared = false ∧
      array.addOuterArguments JavaLang.object [part] =
        .error (.misuse (.notADeclaredType "%s<%s>.Inner<%s>[]")) := by
  have hpart : Constructible ⟨"%s", [JavaLang.override], .declared⟩ :=
    .declared (fun a ha => absurd ha List.not_mem_nil) rfl
  have hparts : ∀ a ∈ [⟨"%s", [JavaLang.override], .declared⟩], Constructible a :=
    List.forall_mem_singleton.2 hpart
  have hmade : Template.declared (.nested JavaLang.object ⟨"Inner", by simp, by simp⟩)
      [⟨"%s", [JavaLang.override], .declared⟩] = .ok ⟨"%s<%s>",
        [.nested JavaLang.object ⟨"Inner", by simp, by simp⟩, JavaLang.override],
        .declared⟩ := rfl
  have hinner : Constructible _ := .declared hparts hmade
  have houter : ∀ level ∈ [(JavaLang.object, [Template.mk "%s" [JavaLang.override] .declared])],
      ∀ a ∈ level.2, Constructible a := List.forall_mem_singleton.2 hparts
  have ht : Constructible ⟨"%s<%s>.Inner<%s>",
      [JavaLang.object, JavaLang.override, JavaLang.override], .declared⟩ :=
    hinner.addOuterArgumentLists houter rfl
  have harray : Constructible ⟨"%s<%s>.Inner<%s>[]",
      [JavaLang.object, JavaLang.override, JavaLang.override], .array⟩ := .array ht rfl
  obtain ⟨raw, hstands⟩ := ht.isDeclared_cases.1 rfl
  obtain rfl : JavaLang.object = raw := Option.some.inj hstands.head?_args
  obtain ⟨text, hrender, hheader⟩ := hstands.exists_text BinaryName.qualifiedName
  refine ⟨_, _, _, _, _, rfl, rfl, rfl, ht, rfl, hstands, rfl, rfl, ?_, rfl, harray, rfl, ?_⟩
  · obtain rfl : "<java.lang.Override>.Inner<java.lang.Override>" = text := by
      refine (String.append_right_inj "java.lang.Object").1 (Eq.trans ?_ hrender)
      decide +kernel
    exact hheader _ rfl
  · exact (harray.isDeclared_cases.2 rfl).2.2 _ _

end Template

end ImmutableJava
