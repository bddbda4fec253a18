import ImmutableJava.JavaLang
import ImmutableJava.Proofs.Construction
import ImmutableJava.Proofs.EnclosingType

/-!
# Arguments for a chain of enclosing types

Type arguments are given to enclosing types level by level, and each level that has any
re-roots the template at its type.  So the next level has to enclose that type, and no longer
the type that the template started with; a level without arguments has to enclose it as well,
although nothing is done with it.  `IsChain` is this condition on the levels.

`addOuterArgumentLists_cases` says what comes of any list of levels.  If they are a chain, the
result is `withOuterLevels`, which is written down at once and read from the outside in: the
outermost level with its arguments in brackets, the name from there to the next level inside,
that level's arguments, and so on to the raw type and to what the template had behind its
first placeholder.  The arguments are in the same order.  If they are not a chain, the first
level that encloses too little is refused, with the type that it had to enclose.

A misaligned template ends the work at the level where it arises, and then nothing is said
about the levels behind it.
-/

namespace ImmutableJava

namespace Template

open Pattern

variable {t u : Template} {raw : BinaryName} {tail : String} {rest : List BinaryName}
  {level : BinaryName × List Template} {levels before : List (BinaryName × List Template)}

/-! ## Levels -/

/-- The levels that have arguments, from the outside in. -/
def inwardLevels (levels : List (BinaryName × List Template)) :
    List (BinaryName × List Template) :=
  (levels.filter fun level => level.2 ≠ []).reverse

/-- The type of the outermost of the levels, and the raw type if there are none. -/
def outermostType (raw : BinaryName) (inward : List (BinaryName × List Template)) : BinaryName :=
  (inward.head?.map (·.1)).getD raw

/-- The type that a template is rooted at after the levels. -/
def rootAfter (raw : BinaryName) (levels : List (BinaryName × List Template)) : BinaryName :=
  outermostType raw (inwardLevels levels)

/-- Each level is of a type that encloses the type reached before it. -/
def IsChain (raw : BinaryName) (levels : List (BinaryName × List Template)) : Prop :=
  ∀ before level after, levels = before ++ level :: after →
    level.1 ∈ (rootAfter raw before).enclosingTypes

@[simp] theorem inwardLevels_nil : inwardLevels [] = [] := rfl

theorem inwardLevels_cons (level : BinaryName × List Template)
    (levels : List (BinaryName × List Template)) :
    inwardLevels (level :: levels) = inwardLevels levels ++ inwardLevels [level] := by
  rw [inwardLevels, inwardLevels, inwardLevels, ← List.reverse_append, ← List.filter_append,
    List.singleton_append]

theorem inwardLevels_singleton_of_ne_nil (h : level.2 ≠ []) : inwardLevels [level] = [level] := by
  simp [inwardLevels, h]

theorem inwardLevels_singleton_of_eq_nil (h : level.2 = []) : inwardLevels [level] = [] := by
  simp [inwardLevels, h]

theorem outermostType_append (raw : BinaryName) (outer inner : List (BinaryName × List Template)) :
    outermostType raw (outer ++ inner) = outermostType (outermostType raw inner) outer := by
  cases outer with
  | nil => rfl
  | cons level outer => rfl

theorem rootAfter_cons (raw : BinaryName) (level : BinaryName × List Template)
    (levels : List (BinaryName × List Template)) :
    rootAfter raw (level :: levels) = rootAfter (rootAfter raw [level]) levels := by
  rw [rootAfter, inwardLevels_cons, outermostType_append]
  rfl

theorem isChain_nil (raw : BinaryName) : IsChain raw [] := by
  intro before level after h
  exact absurd h (by simp)

theorem isChain_cons_iff :
    IsChain raw (level :: levels) ↔
      level.1 ∈ raw.enclosingTypes ∧ IsChain (rootAfter raw [level]) levels := by
  constructor
  · intro h
    refine ⟨h [] level levels rfl, fun before next after hsplit => ?_⟩
    have hnext := h (level :: before) next after (by rw [hsplit, List.cons_append])
    rwa [rootAfter_cons] at hnext
  · rintro ⟨hlevel, hrest⟩ before next after hsplit
    cases before with
    | nil =>
      obtain ⟨rfl, -⟩ := List.cons.inj hsplit
      exact hlevel
    | cons first before =>
      obtain ⟨rfl, hsplit'⟩ := List.cons.inj hsplit
      rw [rootAfter_cons]
      exact hrest before next after hsplit'

theorem rootAfter_mem (raw : BinaryName) (levels : List (BinaryName × List Template)) :
    rootAfter raw levels ∈ raw :: levels.map (·.1) := by
  rw [rootAfter, outermostType]
  cases hhead : (inwardLevels levels).head? with
  | none => exact List.mem_cons_self
  | some level =>
    have hmem : level ∈ inwardLevels levels := List.mem_of_mem_head? hhead
    rw [inwardLevels, List.mem_reverse] at hmem
    exact List.mem_cons_of_mem _ (List.mem_map_of_mem (List.mem_of_mem_filter hmem))

/-- Types of which each encloses those before it are a chain, whatever arguments they have. -/
theorem isChain_of_pairwise
    (h : (raw :: levels.map (·.1)).Pairwise fun inner outer => outer ∈ inner.enclosingTypes) :
    IsChain raw levels := by
  rintro before level after rfl
  rw [List.map_append, List.map_cons, ← List.cons_append] at h
  obtain ⟨-, -, hacross⟩ := List.pairwise_append.1 h
  exact hacross _ (rootAfter_mem raw before) _ List.mem_cons_self

/-! ## The result, written from the outside in -/

/-- What stands between the placeholder of the outermost type and the end of the raw type:
the arguments of each level in brackets, and the name from there to the next type inside. -/
def inwardText (raw : BinaryName) : List (BinaryName × List Template) → String
  | [] => ""
  | level :: inner =>
    angleBrackets (level.2.map (·.pattern)) ++ level.1.nameAfter (outermostType raw inner) ++
      inwardText raw inner

/-- The arguments of the levels in order. -/
def inwardArgs (levels : List (BinaryName × List Template)) : List BinaryName :=
  levels.flatMap fun level => level.2.flatMap (·.args)

/-- A template with all levels around it. -/
def withOuterLevels (t : Template) (raw : BinaryName) (levels : List (BinaryName × List Template)) :
    Template :=
  match inwardLevels levels with
  | [] => t
  | outermost :: inner =>
    { pattern := placeholder ++ inwardText raw (outermost :: inner) ++ afterPlaceholder t.pattern
      args := outermost.1 :: (inwardArgs (outermost :: inner) ++ t.args.tail)
      kind := .declared }

theorem inwardText_append (raw : BinaryName) (outer inner : List (BinaryName × List Template)) :
    inwardText raw (outer ++ inner) =
      inwardText (outermostType raw inner) outer ++ inwardText raw inner := by
  induction outer with
  | nil => exact String.empty_append.symm
  | cons level outer ih =>
    rw [List.cons_append, inwardText, inwardText, ih, outermostType_append]
    simp only [String.append_assoc]

theorem inwardArgs_append (outer inner : List (BinaryName × List Template)) :
    inwardArgs (outer ++ inner) = inwardArgs outer ++ inwardArgs inner :=
  List.flatMap_append

/-- The result is rooted at the type that the levels lead to. -/
theorem IsRooted.withOuterLevels_eq (h : t.IsRooted raw tail rest)
    (hu : u.IsRooted (rootAfter raw levels) (inwardText raw (inwardLevels levels) ++ tail)
      (inwardArgs (inwardLevels levels) ++ rest)) : t.withOuterLevels raw levels = u := by
  obtain ⟨rfl, -, -⟩ := h
  rw [hu.eq_mk, withOuterLevels, rootAfter]
  cases inwardLevels levels with
  | nil =>
    rw [inwardText, String.empty_append]
    rfl
  | cons outermost inner =>
    simp only [afterPlaceholder_placeholder_append, String.append_assoc]
    rfl

/-! ## Giving the levels -/

theorem exists_misaligned_of_orFault {made : Except Misalignment Template} {fault : TemplateFault}
    (h : orFault made = .error fault) : ∃ misalignment, fault = .misaligned misalignment := by
  cases made with
  | error misalignment => exact ⟨misalignment, (Except.error.inj h).symm⟩
  | ok t => cases h

/-- A level with arguments of a type that encloses the raw type is given or misaligned. -/
theorem IsRooted.addOuterArguments_of_mem (h : t.IsRooted raw tail rest)
    (hmem : level.1 ∈ raw.enclosingTypes) (hargs : level.2 ≠ []) :
    (∃ fault, t.addOuterArguments level.1 level.2 = .error (.misaligned fault)) ∨
      ∃ u, t.addOuterArguments level.1 level.2 = .ok u ∧
        u.IsRooted level.1
          (angleBrackets (level.2.map (·.pattern)) ++ level.1.nameAfter raw ++ tail)
          (level.2.flatMap (·.args) ++ rest) := by
  have hsuffix := BinaryName.suffixAfter?_eq_nameAfter hmem
  cases hout : t.addOuterArguments level.1 level.2 with
  | error fault =>
    rw [addOuterArguments_of_ne_nil h.rawTypeOrFault_eq hsuffix hargs] at hout
    obtain ⟨misalignment, rfl⟩ := exists_misaligned_of_orFault hout
    exact .inl ⟨misalignment, rfl⟩
  | ok u =>
    obtain ⟨suffix, hsuffix', ⟨hnil, -⟩ | ⟨-, hroot⟩⟩ := h.addOuterArguments_eq_ok_iff.1 hout
    · exact absurd hnil hargs
    · obtain rfl : level.1.nameAfter raw = suffix :=
        Option.some.inj (hsuffix.symm.trans hsuffix')
      exact .inr ⟨u, rfl, hroot⟩

/-- One level: it is refused, or it makes a misaligned template, or the template is rooted
behind it. -/
theorem IsRooted.addOuterArguments_cases (h : t.IsRooted raw tail rest)
    (level : BinaryName × List Template) :
    (level.1 ∉ raw.enclosingTypes ∧
        t.addOuterArguments level.1 level.2 = .error (.misuse (.notAnOuterType level.1 raw))) ∨
      level.1 ∈ raw.enclosingTypes ∧
        ((∃ fault, t.addOuterArguments level.1 level.2 = .error (.misaligned fault)) ∨
          ∃ u, t.addOuterArguments level.1 level.2 = .ok u ∧
            u.IsRooted (rootAfter raw [level]) (inwardText raw (inwardLevels [level]) ++ tail)
              (inwardArgs (inwardLevels [level]) ++ rest)) := by
  by_cases hmem : level.1 ∈ raw.enclosingTypes
  · refine .inr ⟨hmem, ?_⟩
    by_cases hargs : level.2 = []
    · have hstay : t.addOuterArguments level.1 level.2 = .ok t := by
        rw [hargs, addOuterArguments_nil h.rawTypeOrFault_eq
          (BinaryName.suffixAfter?_eq_nameAfter hmem)]
      refine .inr ⟨t, hstay, ?_⟩
      rw [rootAfter, inwardLevels_singleton_of_eq_nil hargs, inwardText, String.empty_append]
      exact h
    · rw [rootAfter, inwardLevels_singleton_of_ne_nil hargs, inwardText, inwardText,
        String.append_empty, inwardArgs, List.flatMap_singleton]
      exact h.addOuterArguments_of_mem hmem hargs
  · exact .inl ⟨hmem, addOuterArguments_of_suffixAfter?_eq_none h.rawTypeOrFault_eq
      (BinaryName.suffixAfter?_eq_none_iff.2 hmem)⟩

/-- All levels: either none of them is refused and the template is rooted behind them, or
the first one that does not enclose the type reached before it is refused. -/
theorem IsRooted.addOuterArgumentLists_cases (h : t.IsRooted raw tail rest)
    (levels : List (BinaryName × List Template)) :
    (∃ fault, t.addOuterArgumentLists levels = .error (.misaligned fault)) ∨
      (IsChain raw levels ∧ ∃ u, t.addOuterArgumentLists levels = .ok u ∧
        u.IsRooted (rootAfter raw levels) (inwardText raw (inwardLevels levels) ++ tail)
          (inwardArgs (inwardLevels levels) ++ rest)) ∨
      ∃ before level after, levels = before ++ level :: after ∧ IsChain raw before ∧
        level.1 ∉ (rootAfter raw before).enclosingTypes ∧
        t.addOuterArgumentLists levels =
          .error (.misuse (.notAnOuterType level.1 (rootAfter raw before))) := by
  induction levels generalizing t raw tail rest with
  | nil =>
    refine .inr (.inl ⟨isChain_nil raw, t, rfl, ?_⟩)
    rw [inwardLevels_nil, inwardText, String.empty_append]
    exact h
  | cons level levels ih =>
    have hrun : t.addOuterArgumentLists (level :: levels) =
        t.addOuterArguments level.1 level.2 >>= fun u => u.addOuterArgumentLists levels :=
      List.foldlM_cons
    rw [hrun]
    rcases h.addOuterArguments_cases level with ⟨hmem, hout⟩ | ⟨hmem, ⟨fault, hout⟩ | ⟨u, hout, hu⟩⟩
    · rw [hout]
      exact .inr (.inr ⟨[], level, levels, rfl, isChain_nil raw, hmem, rfl⟩)
    · rw [hout]
      exact .inl ⟨fault, rfl⟩
    · rw [hout]
      rcases ih hu with hfault | ⟨hchain, v, hv, hroot⟩ |
        ⟨before, next, after, rfl, hchain, hnext, hrefused⟩
      · exact .inl hfault
      · refine .inr (.inl ⟨isChain_cons_iff.2 ⟨hmem, hchain⟩, v, hv, ?_⟩)
        rw [rootAfter_cons, inwardLevels_cons, inwardText_append, inwardArgs_append,
          String.append_assoc, List.append_assoc]
        exact hroot
      · refine .inr (.inr ⟨level :: before, next, after, rfl,
          isChain_cons_iff.2 ⟨hmem, hchain⟩, ?_, ?_⟩)
        · rw [rootAfter_cons]
          exact hnext
        · rw [rootAfter_cons]
          exact hrefused

/-- No level of a chain is refused. -/
theorem IsRooted.addOuterArgumentLists_ne_misuse (h : t.IsRooted raw tail rest)
    (hchain : IsChain raw levels) (refusal : TypeError) :
    t.addOuterArgumentLists levels ≠ .error (.misuse refusal) := by
  intro hrefused
  rcases h.addOuterArgumentLists_cases levels with ⟨fault, hfault⟩ | ⟨-, u, hu, -⟩ |
    ⟨before, level, after, hsplit, -, hlevel, -⟩
  · cases hfault.symm.trans hrefused
  · cases hu.symm.trans hrefused
  · exact hlevel (hchain before level after hsplit)

/-- Unless a template is misaligned on the way, levels can be given to a constructible declared
type exactly if they are a chain, and then the result is known; otherwise the first level out
of the chain is refused. -/
theorem addOuterArgumentLists_eq_ok_iff_isChain (ht : t.Constructible) (hraw : t.rawType = .ok raw)
    (haligned : ∀ fault, t.addOuterArgumentLists levels ≠ .error (.misaligned fault)) :
    t.pattern = placeholder ++ afterPlaceholder t.pattern ∧
      ((∃ u, t.addOuterArgumentLists levels = .ok u) ↔ IsChain raw levels) ∧
      (∀ u, t.addOuterArgumentLists levels = .ok u → u = t.withOuterLevels raw levels) ∧
      (¬ IsChain raw levels → ∃ before level after, levels = before ++ level :: after ∧
        IsChain raw before ∧ level.1 ∉ (rootAfter raw before).enclosingTypes ∧
        t.addOuterArgumentLists levels =
          .error (.misuse (.notAnOuterType level.1 (rootAfter raw before)))) := by
  obtain ⟨tail, rest, hroot⟩ := ht.isRooted_of_rawType hraw
  refine ⟨?_, ?_⟩
  · rw [hroot.eq_mk, afterPlaceholder_placeholder_append]
  rcases hroot.addOuterArgumentLists_cases levels with ⟨fault, hfault⟩ | ⟨hchain, u, hu, hroot'⟩ |
    ⟨before, level, after, hsplit, hchain, hlevel, hrefused⟩
  · exact absurd hfault (haligned fault)
  · refine ⟨iff_of_true ⟨u, hu⟩ hchain, fun v hv => ?_, fun hno => absurd hchain hno⟩
    rw [hu] at hv
    rw [hroot.withOuterLevels_eq hroot', Except.ok.inj hv]
  · have hno : ¬ IsChain raw levels := fun h => hlevel (h before level after hsplit)
    refine ⟨iff_of_false ?_ hno, fun v hv => ?_, fun _ => ?_⟩
    · rintro ⟨v, hv⟩
      rw [hrefused] at hv
      cases hv
    · rw [hrefused] at hv
      cases hv
    · exact ⟨before, level, after, hsplit, hchain, hlevel, hrefused⟩

/-- Two levels with arguments around a type, and two levels in the wrong order. -/
theorem addOuterArgumentLists_eq_ok_iff_isChain_nested :
    ∃ (inner deep : BinaryName) (part t : Template),
      inner = .nested JavaLang.object ⟨"Inner", by simp, by simp⟩ ∧
      deep = .nested inner ⟨"Deep", by simp, by simp⟩ ∧
      part = ⟨"%s", [JavaLang.override], .declared⟩ ∧
      t.Constructible ∧ t.rawType = .ok deep ∧
      IsChain deep [(inner, [part, part]), (JavaLang.object, [part])] ∧
      t.addOuterArgumentLists [(inner, [part, part]), (JavaLang.object, [part])] =
        .ok ⟨"%s<%s>.Inner<%s, %s>.Deep<%s>", [JavaLang.object, JavaLang.override,
          JavaLang.override, JavaLang.override, JavaLang.override], .declared⟩ ∧
      ¬ IsChain deep [(JavaLang.object, [part]), (inner, [])] ∧
      t.addOuterArgumentLists [(JavaLang.object, [part]), (inner, [])] =
        .error (.misuse (.notAnOuterType inner JavaLang.object)) := by
  have hpart : Template.declared JavaLang.override [] =
      .ok ⟨"%s", [JavaLang.override], .declared⟩ := rfl
  have hmade : Template.declared
      (.nested (.nested JavaLang.object ⟨"Inner", by simp, by simp⟩) ⟨"Deep", by simp, by simp⟩)
      [⟨"%s", [JavaLang.override], .declared⟩] = .ok ⟨"%s<%s>",
        [.nested (.nested JavaLang.object ⟨"Inner", by simp, by simp⟩) ⟨"Deep", by simp, by simp⟩,
          JavaLang.override], .declared⟩ := rfl
  have ht : Constructible _ := .declared
    (List.forall_mem_singleton.2 (.declared (fun a ha => absurd ha List.not_mem_nil) hpart)) hmade
  refine ⟨_, _, _, _, rfl, rfl, rfl, ht, rfl, ?_, rfl, ?_, rfl⟩
  · refine (addOuterArgumentLists_eq_ok_iff_isChain ht rfl ?_).2.1.1 ⟨_, rfl⟩
    rintro fault ⟨⟩
  · intro h
    obtain ⟨u, hu⟩ :=
      (addOuterArgumentLists_eq_ok_iff_isChain ht rfl (by rintro fault ⟨⟩)).2.1.2 h
    cases hu

end Template

end ImmutableJava
