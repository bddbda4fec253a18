import ImmutableJava.Proofs.Pattern
import ImmutableJava.Proofs.Reporting

/-!
# How composed templates render

A template is `Aligned` if its pattern has a placeholder for each argument; every
constructor makes aligned templates only.  When aligned templates are joined and the
result is aligned again, no placeholder arose at a seam, and the joined template renders
to the joined renderings (`render_join`).  The other compositions are joins of one or two
templates.

A declared type starts with the placeholder of its raw type.  `IsRooted` names what
follows, the tail of the pattern and the remaining arguments, so that a declared type
renders to the name of its raw type and its filled tail (`IsRooted.render_eq`).
Re-rooting at an outer type puts the outer type's arguments and the suffix in front of
the tail and leaves the tail as it was (`IsRooted.addOuterArguments_eq_ok_iff`), and so does
the header of its declaration, which has the simple name in place of the raw type
(`IsRooted.render_topLevelDeclaration`).
-/

namespace ImmutableJava

/-- Type arguments in angle brackets, and nothing if there are none. -/
def angleBrackets (arguments : List String) : String :=
  if arguments = [] then "" else "<" ++ ", ".intercalate arguments ++ ">"

namespace Template

open Pattern

variable {t : Template} {ts : List Template} {namer : BinaryName → String}

/-- The pattern has a placeholder for each argument. -/
def Aligned (t : Template) : Prop := count t.pattern = t.args.length

theorem render_eq_filled (namer : BinaryName → String) (t : Template) :
    t.render namer = filled t.pattern (t.args.map namer) := rfl

theorem aligned_of_make {pattern : String} {args : List BinaryName} {kind : TemplateKind}
    (h : make pattern args kind = .ok t) : t.Aligned := by
  obtain ⟨hcount, rfl⟩ := make_eq_ok_iff.1 h
  exact hcount

theorem Aligned.withKind (h : t.Aligned) (kind : TemplateKind) : (t.withKind kind).Aligned := h

/-- A text without placeholders renders to itself. -/
theorem render_of_make_nil {pattern : String} {kind : TemplateKind}
    (h : make pattern [] kind = .ok t) : t.render namer = pattern := by
  obtain ⟨hcount, rfl⟩ := make_eq_ok_iff.1 h
  exact filled_of_count_eq_zero hcount

/-! ## Joining -/

theorem length_le_count_intercalate (hts : ∀ t ∈ ts, t.Aligned) (delimiter : String) :
    (ts.flatMap (·.args)).length ≤ count (delimiter.intercalate (ts.map (·.pattern))) := by
  induction ts with
  | nil => exact Nat.zero_le _
  | cons t ts ih =>
    have ht : count t.pattern = t.args.length := hts t List.mem_cons_self
    have hrest := ih fun u hu => hts u (List.mem_cons_of_mem _ hu)
    cases ts with
    | nil => simp [ht]
    | cons u ts =>
      have hseams := le_count_append (t.pattern ++ delimiter)
        (delimiter.intercalate ((u :: ts).map (·.pattern)))
      have hseam := le_count_append t.pattern delimiter
      rw [List.map_cons, Pieces.intercalate_cons _ _ (by simp), List.flatMap_cons,
        List.length_append]
      omega

/-- The patterns of aligned templates, joined without a new placeholder, are filled one
by one. -/
theorem filled_intercalate (hts : ∀ t ∈ ts, t.Aligned) {delimiter : String}
    (h : count (delimiter.intercalate (ts.map (·.pattern))) = (ts.flatMap (·.args)).length)
    (namer : BinaryName → String) :
    filled (delimiter.intercalate (ts.map (·.pattern))) ((ts.flatMap (·.args)).map namer) =
      delimiter.intercalate (ts.map (·.render namer)) := by
  induction ts with
  | nil => rfl
  | cons t ts ih =>
    have ht : count t.pattern = t.args.length := hts t List.mem_cons_self
    have hrest : ∀ u ∈ ts, u.Aligned := fun u hu => hts u (List.mem_cons_of_mem _ hu)
    cases ts with
    | nil => simp [render_eq_filled]
    | cons u ts =>
      have hle := length_le_count_intercalate hrest delimiter
      have hseam := le_count_append t.pattern delimiter
      rw [List.map_cons, Pieces.intercalate_cons _ _ (by simp), List.flatMap_cons,
        List.length_append] at h
      -- the counts leave no placeholder for the delimiter
      have houter := filled_append_of_length_le (t.pattern ++ delimiter)
        (delimiter.intercalate ((u :: ts).map (·.pattern))) (t.args.map namer)
        (((u :: ts).flatMap (·.args)).map namer) (by simp; omega) (by simpa using hle)
        (by simpa using h)
      have hinner := filled_append_of_length_le t.pattern delimiter (t.args.map namer) []
        (by simp; omega) (Nat.zero_le _) (by rw [← houter.1]; rfl)
      rw [List.append_nil] at hinner
      have hrender : delimiter.intercalate ((t :: u :: ts).map (·.render namer)) =
          t.render namer ++ delimiter ++ delimiter.intercalate ((u :: ts).map (·.render namer)) :=
        Pieces.intercalate_cons _ _ (by simp)
      rw [List.map_cons, Pieces.intercalate_cons _ _ (by simp), List.flatMap_cons, List.map_append,
        houter.2.2, hinner.2.2, filled_of_count_eq_zero hinner.2.1.symm,
        ih hrest (by simpa using houter.2.1.symm), hrender, render_eq_filled]

/-- A join renders to the joined renderings. -/
theorem render_join (hts : ∀ t ∈ ts, t.Aligned) {delimiter opening closing : String}
    (h : join ts delimiter opening closing = .ok t) :
    t.render namer = opening ++ delimiter.intercalate (ts.map (·.render namer)) ++ closing := by
  obtain ⟨hcount, rfl⟩ := make_eq_ok_iff.1 h
  have hle := length_le_count_intercalate hts delimiter
  obtain ⟨hinner, hfill⟩ := filled_surround opening (delimiter.intercalate (ts.map (·.pattern)))
    closing ((ts.flatMap (·.args)).map namer) (by rw [List.length_map]; exact hle)
    (by rw [List.length_map]; exact hcount)
  rw [List.length_map] at hinner
  rw [render_eq_filled, hfill, filled_intercalate hts hinner]

/-! ## Type expressions -/

theorem make_withKind (pattern : String) (args : List BinaryName) (made kind : TemplateKind) :
    (do return (← make pattern args made).withKind kind) = make pattern args kind := by
  rw [make, make]
  split
  · rfl
  · rfl

theorem array_eq (component : Template) :
    component.array = make (component.pattern ++ "[]") component.args .array :=
  make_withKind _ _ _ _

theorem wildcardExtends_eq (bound : Template) :
    bound.wildcardExtends = make ("? extends " ++ bound.pattern) bound.args .wildcard :=
  make_withKind _ _ _ _

theorem wildcardSuper_eq (bound : Template) :
    bound.wildcardSuper = make ("? super " ++ bound.pattern) bound.args .wildcard :=
  make_withKind _ _ _ _

theorem typeParameter_eq (name : String) (bounds : List Template) :
    typeParameter name bounds =
      make (if bounds = [] then name
        else name ++ " extends " ++ " & ".intercalate (bounds.map (·.pattern)))
        (bounds.flatMap (·.args)) .typeParameter := by
  cases bounds with
  | nil => exact make_withKind _ _ _ _
  | cons bound bounds =>
    rw [if_neg (by simp), ← make_withKind _ _ .composite, ← String.append_empty (s := _ ++ _)]
    rfl

/-- A text behind an aligned pattern is kept, and no placeholder arises. -/
theorem render_of_make_append (ht : t.Aligned) {text : String} {kind : TemplateKind} {u : Template}
    (h : make (t.pattern ++ text) t.args kind = .ok u) :
    u.render namer = t.render namer ++ text := by
  obtain ⟨hcount, rfl⟩ := make_eq_ok_iff.1 h
  obtain ⟨-, hzero, hfill⟩ := filled_append_of_length_le t.pattern text (t.args.map namer) []
    (by rw [List.length_map]; exact Nat.le_of_eq ht.symm) (Nat.zero_le _)
    (by rw [List.length_map]; exact hcount)
  rw [List.append_nil, filled_of_count_eq_zero hzero.symm] at hfill
  exact hfill

/-- A text in front of an aligned pattern is kept, and no placeholder arises. -/
theorem render_of_make_prepend (ht : t.Aligned) {text : String} {kind : TemplateKind}
    {u : Template} (h : make (text ++ t.pattern) t.args kind = .ok u) :
    u.render namer = text ++ t.render namer := by
  obtain ⟨hcount, rfl⟩ := make_eq_ok_iff.1 h
  obtain ⟨hzero, -, hfill⟩ := filled_append_of_length_le text t.pattern [] (t.args.map namer)
    (Nat.zero_le _) (by rw [List.length_map]; exact Nat.le_of_eq ht.symm)
    (by rw [List.length_map, List.length_nil, Nat.zero_add]; exact hcount)
  rw [List.nil_append, filled_of_count_eq_zero hzero.symm] at hfill
  exact hfill

theorem render_array {component : Template} (hc : component.Aligned)
    (h : component.array = .ok t) : t.render namer = component.render namer ++ "[]" :=
  render_of_make_append hc ((array_eq component).symm.trans h)

theorem render_wildcardExtends {bound : Template} (hb : bound.Aligned)
    (h : bound.wildcardExtends = .ok t) : t.render namer = "? extends " ++ bound.render namer :=
  render_of_make_prepend hb ((wildcardExtends_eq bound).symm.trans h)

theorem render_wildcardSuper {bound : Template} (hb : bound.Aligned)
    (h : bound.wildcardSuper = .ok t) : t.render namer = "? super " ++ bound.render namer :=
  render_of_make_prepend hb ((wildcardSuper_eq bound).symm.trans h)

/-! ## Declared types -/

theorem angleBrackets_of_ne_nil {arguments : List String} (h : arguments ≠ []) :
    angleBrackets arguments = "<" ++ ", ".intercalate arguments ++ ">" := if_neg h

theorem concat_eq (first second : Template) :
    concat first second =
      make (first.pattern ++ second.pattern) (first.args ++ second.args) .composite := by
  have hpattern : "" ++ "".intercalate [first.pattern, second.pattern] ++ "" =
      first.pattern ++ second.pattern := by
    rw [Pieces.intercalate_cons _ _ (by simp), Pieces.intercalate_singleton]
    simp
  have hargs : [first, second].flatMap (·.args) = first.args ++ second.args := by simp
  rw [concat, join, List.map_cons, List.map_cons, List.map_nil, hpattern, hargs]

/-- A declared type is made as one pattern: its placeholder and its arguments in
brackets. -/
theorem declared_eq_ok_iff {raw : BinaryName} :
    declared raw ts = .ok t ↔
      make (placeholder ++ angleBrackets (ts.map (·.pattern))) (raw :: ts.flatMap (·.args))
        .declared = .ok t := by
  have hraw : make placeholder [raw] .declared = .ok ⟨placeholder, [raw], .declared⟩ :=
    make_eq_ok_iff.2 ⟨rfl, rfl⟩
  cases ts with
  | nil =>
    rw [declared, hraw]
    rfl
  | cons a ts =>
    have hunfold : declared raw (a :: ts) = join (a :: ts) ", " "<" ">" >>= fun brackets => do
        return (← concat ⟨placeholder, [raw], .declared⟩ brackets).withKind .declared := by
      rw [declared, hraw]
      rfl
    rw [hunfold, bind_eq_ok_iff, angleBrackets_of_ne_nil (by simp)]
    constructor
    · rintro ⟨brackets, hbrackets, ht⟩
      obtain ⟨-, rfl⟩ := make_eq_ok_iff.1 hbrackets
      rwa [concat_eq, make_withKind] at ht
    · intro h
      have hcount := (make_eq_ok_iff.1 h).1
      have hmore := count_placeholder_append
        ("<" ++ ", ".intercalate ((a :: ts).map (·.pattern)) ++ ">")
      refine ⟨⟨_, _, .composite⟩, make_eq_ok_iff.2 ⟨?_, rfl⟩, ?_⟩
      · exact Nat.succ.inj (hmore.symm.trans hcount)
      · rw [concat_eq, make_withKind]
        exact h

theorem length_le_count_angleBrackets (hts : ∀ t ∈ ts, t.Aligned) :
    (ts.flatMap (·.args)).length ≤ count (angleBrackets (ts.map (·.pattern))) := by
  cases ts with
  | nil => exact Nat.zero_le _
  | cons a ts =>
    have hle := length_le_count_intercalate hts ", "
    have hopening := le_count_append "<" (", ".intercalate ((a :: ts).map (·.pattern)))
    have hclosing := le_count_append ("<" ++ ", ".intercalate ((a :: ts).map (·.pattern))) ">"
    rw [angleBrackets_of_ne_nil (by simp)]
    omega

/-- Filling the bracketed arguments of a type. -/
theorem filled_angleBrackets (hts : ∀ t ∈ ts, t.Aligned)
    (h : count (angleBrackets (ts.map (·.pattern))) = (ts.flatMap (·.args)).length)
    (namer : BinaryName → String) :
    filled (angleBrackets (ts.map (·.pattern))) ((ts.flatMap (·.args)).map namer) =
      angleBrackets (ts.map (·.render namer)) := by
  cases ts with
  | nil => rfl
  | cons a ts =>
    rw [angleBrackets_of_ne_nil (by simp)] at h ⊢
    rw [angleBrackets_of_ne_nil (by simp)]
    have hjoin : join (a :: ts) ", " "<" ">" = .ok ⟨_, _, .composite⟩ :=
      make_eq_ok_iff.2 ⟨h, rfl⟩
    rw [← render_join hts hjoin, render_eq_filled]

/-! ## Rooted templates -/

/-- A declared type with the given raw type: what its pattern has after the placeholder
of the raw type, and what its arguments are after the raw type. -/
structure IsRooted (t : Template) (raw : BinaryName) (tail : String) (rest : List BinaryName) :
    Prop where
  eq_mk : t = ⟨placeholder ++ tail, raw :: rest, .declared⟩
  count_tail : count tail = rest.length
  /-- No text in front of the tail makes a placeholder with it. -/
  head?_tail : tail.toList.head? ≠ some 's'

variable {raw outer : BinaryName} {tail : String} {rest : List BinaryName}

theorem IsRooted.aligned (h : t.IsRooted raw tail rest) : t.Aligned := by
  obtain ⟨rfl, hcount, -⟩ := h
  rw [Aligned, count_placeholder_append, hcount, List.length_cons]

theorem IsRooted.render_eq (h : t.IsRooted raw tail rest) (namer : BinaryName → String) :
    t.render namer = namer raw ++ filled tail (rest.map namer) := by
  obtain ⟨rfl, -, -⟩ := h
  exact filled_placeholder_append tail (namer raw)

theorem IsRooted.rawTypeOrFault_eq (h : t.IsRooted raw tail rest) :
    t.rawTypeOrFault = .ok raw := by
  obtain ⟨rfl, -, -⟩ := h
  rfl

theorem head?_angleBrackets_append (arguments : List String) (text : String)
    (h : arguments ≠ []) : (angleBrackets arguments ++ text).toList.head? = some '<' := by
  rw [angleBrackets_of_ne_nil h]
  simp

/-- A declared type is rooted at its raw type. -/
theorem isRooted_of_declared (h : declared raw ts = .ok t) :
    t.IsRooted raw (angleBrackets (ts.map (·.pattern))) (ts.flatMap (·.args)) := by
  obtain ⟨hcount, rfl⟩ := make_eq_ok_iff.1 (declared_eq_ok_iff.1 h)
  have hmore := count_placeholder_append (angleBrackets (ts.map (·.pattern)))
  refine ⟨rfl, Nat.succ.inj (hmore.symm.trans hcount), ?_⟩
  cases ts with
  | nil => simp [angleBrackets]
  | cons a ts =>
    have hhead := head?_angleBrackets_append ((a :: ts).map (·.pattern)) "" (by simp)
    rw [String.append_empty] at hhead
    rw [hhead]
    decide

/-! ## Arguments of outer types -/

theorem addOuterArguments_of_suffixAfter?_eq_none (hraw : t.rawTypeOrFault = .ok raw)
    (hsuffix : BinaryName.suffixAfter? outer raw = none) :
    t.addOuterArguments outer ts = .error (.misuse (.notAnOuterType outer raw)) := by
  rw [addOuterArguments, hraw]
  simp [BinaryName.qualifiedSuffix, hsuffix, Except.mapError, bind, Except.bind]

theorem addOuterArguments_nil (hraw : t.rawTypeOrFault = .ok raw) {suffix : String}
    (hsuffix : BinaryName.suffixAfter? outer raw = some suffix) :
    t.addOuterArguments outer [] = .ok t := by
  rw [addOuterArguments, hraw]
  simp [BinaryName.qualifiedSuffix, hsuffix, Except.mapError, bind, Except.bind, pure,
    Except.pure]

theorem addOuterArguments_of_ne_nil (hraw : t.rawTypeOrFault = .ok raw) {suffix : String}
    (hsuffix : BinaryName.suffixAfter? outer raw = some suffix) (hts : ts ≠ []) :
    t.addOuterArguments outer ts =
      orFault (make
        (placeholder ++ (angleBrackets (ts.map (·.pattern)) ++ suffix ++
          afterPlaceholder t.pattern))
        (outer :: (ts.flatMap (·.args) ++ t.args.tail)) .declared) := by
  have hempty : ts.isEmpty = false := by simpa using hts
  rw [addOuterArguments, hraw, angleBrackets_of_ne_nil (by simpa using hts)]
  simp [BinaryName.qualifiedSuffix, hsuffix, hempty, Except.mapError, bind, Except.bind,
    String.append_assoc]

/-- Arguments of an outer type re-root a declared type there, in front of its tail. -/
theorem IsRooted.addOuterArguments_eq_ok_iff (h : t.IsRooted raw tail rest) {u : Template} :
    t.addOuterArguments outer ts = .ok u ↔
      ∃ suffix, BinaryName.suffixAfter? outer raw = some suffix ∧
        (ts = [] ∧ u = t ∨ ts ≠ [] ∧
          u.IsRooted outer (angleBrackets (ts.map (·.pattern)) ++ suffix ++ tail)
            (ts.flatMap (·.args) ++ rest)) := by
  have hraw := h.rawTypeOrFault_eq
  cases hsuffix : BinaryName.suffixAfter? outer raw with
  | none =>
    rw [addOuterArguments_of_suffixAfter?_eq_none hraw hsuffix]
    simp
  | some suffix =>
    by_cases hts : ts = []
    · rw [hts, addOuterArguments_nil hraw hsuffix]
      simp [eq_comm]
    · rw [addOuterArguments_of_ne_nil hraw hsuffix hts, orFault, mapError_eq_ok_iff]
      obtain ⟨rfl, -, -⟩ := h
      rw [afterPlaceholder_placeholder_append, List.tail_cons]
      constructor
      · intro hmake
        obtain ⟨hcount, hu⟩ := make_eq_ok_iff.1 hmake
        have hmore := count_placeholder_append
          (angleBrackets (ts.map (·.pattern)) ++ suffix ++ tail)
        refine ⟨suffix, rfl, .inr ⟨hts, hu, Nat.succ.inj (hmore.symm.trans hcount), ?_⟩⟩
        rw [String.append_assoc, head?_angleBrackets_append _ _ (by simpa using hts)]
        decide
      · rintro ⟨found, hfound, ⟨hnil, -⟩ | ⟨-, hu⟩⟩
        · exact absurd hnil hts
        · cases hfound
          have haligned := hu.aligned
          rw [hu.eq_mk] at haligned
          exact make_eq_ok_iff.2 ⟨haligned, hu.eq_mk⟩

/-- The tail that outer arguments give renders to their brackets, the suffix and the tail
before. -/
theorem filled_outer (hts : ∀ t ∈ ts, t.Aligned) {suffix : String}
    (htail : count tail = rest.length)
    (h : count (angleBrackets (ts.map (·.pattern)) ++ suffix ++ tail) =
      (ts.flatMap (·.args) ++ rest).length) (namer : BinaryName → String) :
    filled (angleBrackets (ts.map (·.pattern)) ++ suffix ++ tail)
        ((ts.flatMap (·.args) ++ rest).map namer) =
      angleBrackets (ts.map (·.render namer)) ++ suffix ++ filled tail (rest.map namer) := by
  have hle := length_le_count_angleBrackets hts
  have hbetween := filled_between (angleBrackets (ts.map (·.pattern))) suffix tail
    ((ts.flatMap (·.args)).map namer) (rest.map namer) (by rw [List.length_map]; exact hle)
    (by rw [List.length_map]; exact Nat.le_of_eq htail.symm)
    (by rw [List.length_map, List.length_map, h, List.length_append])
  rw [List.length_map] at hbetween
  rw [List.map_append, hbetween.2, filled_angleBrackets hts hbetween.1]

theorem addOuterArgumentLists_cons_eq_ok_iff {level : BinaryName × List Template}
    {levels : List (BinaryName × List Template)} {u : Template} :
    t.addOuterArgumentLists (level :: levels) = .ok u ↔
      ∃ v, t.addOuterArguments level.1 level.2 = .ok v ∧ v.addOuterArgumentLists levels = .ok u := by
  rw [addOuterArgumentLists, List.foldlM_cons, bind_eq_ok_iff]
  rfl

/-- Outer arguments keep a template rooted. -/
theorem IsRooted.exists_of_addOuterArgumentLists (h : t.IsRooted raw tail rest)
    {levels : List (BinaryName × List Template)} {u : Template}
    (hu : t.addOuterArgumentLists levels = .ok u) :
    ∃ raw' tail' rest', u.IsRooted raw' tail' rest' := by
  induction levels generalizing t raw tail rest with
  | nil =>
    cases hu
    exact ⟨raw, tail, rest, h⟩
  | cons level levels ih =>
    obtain ⟨v, hv, hrest⟩ := addOuterArgumentLists_cons_eq_ok_iff.1 hu
    obtain ⟨suffix, -, ⟨-, rfl⟩ | ⟨-, hroot⟩⟩ := h.addOuterArguments_eq_ok_iff.1 hv
    · exact ih h hrest
    · exact ih hroot hrest

/-! ## Headers -/

theorem IsRooted.topLevelDeclaration_eq (h : t.IsRooted raw tail rest) :
    t.topLevelDeclaration = orFault (make (raw.simpleName ++ tail) rest .declaration) := by
  rw [topLevelDeclaration, h.rawTypeOrFault_eq]
  obtain ⟨rfl, -, -⟩ := h
  show orFault (make (raw.simpleName ++ afterPlaceholder (placeholder ++ tail)) rest _) = _
  rw [afterPlaceholder_placeholder_append]

/-- A declared type has a header exactly when its simple name has no placeholder. -/
theorem IsRooted.exists_topLevelDeclaration_iff (h : t.IsRooted raw tail rest) :
    (∃ u, t.topLevelDeclaration = .ok u) ↔ count raw.simpleName = 0 := by
  have hcount : count (raw.simpleName ++ tail) = rest.length ↔ count raw.simpleName = 0 := by
    rw [count_append_of_head? h.head?_tail, h.count_tail]
    omega
  rw [h.topLevelDeclaration_eq, ← hcount]
  constructor
  · rintro ⟨u, hu⟩
    exact (make_eq_ok_iff.1 (mapError_eq_ok_iff.1 hu)).1
  · intro hname
    exact ⟨_, mapError_eq_ok_iff.2 (make_eq_ok_iff.2 ⟨hname, rfl⟩)⟩

/-- In a header the simple name stands in place of the raw type. -/
theorem IsRooted.render_topLevelDeclaration (h : t.IsRooted raw tail rest) {u : Template}
    (hu : t.topLevelDeclaration = .ok u) (namer : BinaryName → String) :
    u.render namer = raw.simpleName ++ filled tail (rest.map namer) := by
  rw [h.topLevelDeclaration_eq, orFault, mapError_eq_ok_iff] at hu
  have htail : Aligned ⟨tail, rest, .composite⟩ := h.count_tail
  exact render_of_make_prepend htail hu

/-! ## Templates that can always be made -/

theorem isDelimiter_comma : IsDelimiter ", " := ⟨by decide, by decide, by decide, by decide⟩

theorem isDelimiter_ampersand : IsDelimiter " & " := ⟨by decide, by decide, by decide, by decide⟩

theorem exists_make (pattern : String) (args : List BinaryName) (kind : TemplateKind)
    (h : count pattern = args.length) : ∃ t, make pattern args kind = .ok t ∧ t.Aligned :=
  ⟨⟨pattern, args, kind⟩, make_eq_ok_iff.2 ⟨h, rfl⟩, h⟩

theorem exists_array (ht : t.Aligned) : ∃ u, t.array = .ok u ∧ u.Aligned := by
  rw [array_eq]
  refine exists_make _ _ _ ?_
  rw [count_append_of_head? (by decide), ht]
  rfl

theorem exists_wildcardExtends (ht : t.Aligned) : ∃ u, t.wildcardExtends = .ok u ∧ u.Aligned := by
  rw [wildcardExtends_eq]
  refine exists_make _ _ _ ?_
  rw [count_append_of_getLast? (by decide), ht, Nat.add_eq_right]
  decide

theorem exists_wildcardSuper (ht : t.Aligned) : ∃ u, t.wildcardSuper = .ok u ∧ u.Aligned := by
  rw [wildcardSuper_eq]
  refine exists_make _ _ _ ?_
  rw [count_append_of_getLast? (by decide), ht, Nat.add_eq_right]
  decide

theorem exists_typeParameter {name : String} (hname : count name = 0)
    (hts : ∀ t ∈ ts, t.Aligned) : ∃ u, typeParameter name ts = .ok u ∧ u.Aligned := by
  rw [typeParameter_eq]
  cases ts with
  | nil => exact exists_make _ _ _ hname
  | cons a ts =>
    refine exists_make _ _ _ ?_
    have hopening : count (name ++ " extends ") = 0 := by
      rw [count_append_of_head? (by decide), hname]
      decide
    have hblank : " extends ".toList.getLast? = some ' ' := by decide
    have hlast : (name ++ " extends ").toList.getLast? ≠ some '%' := by
      rw [String.toList_append, List.getLast?_append, hblank, Option.some_or]
      decide
    rw [if_neg (by simp), count_append_of_getLast? hlast,
      IsDelimiter.count_intercalate isDelimiter_ampersand hts, hopening, Nat.zero_add]

/-- Aligned arguments have as many placeholders in their brackets. -/
theorem count_angleBrackets (hts : ∀ t ∈ ts, t.Aligned) :
    count (angleBrackets (ts.map (·.pattern))) = (ts.flatMap (·.args)).length := by
  cases ts with
  | nil => rfl
  | cons a ts =>
    have hopening : count "<" = 0 := by decide
    have hclosing : count ">" = 0 := by decide
    rw [angleBrackets_of_ne_nil (by simp), count_append_of_head? (by decide),
      count_append_of_getLast? (by decide), IsDelimiter.count_intercalate isDelimiter_comma hts,
      hopening, hclosing, Nat.zero_add, Nat.add_zero]

theorem exists_declared (raw : BinaryName) (hts : ∀ t ∈ ts, t.Aligned) :
    ∃ t, declared raw ts = .ok t := by
  obtain ⟨t, ht, -⟩ := exists_make (placeholder ++ angleBrackets (ts.map (·.pattern)))
    (raw :: ts.flatMap (·.args)) .declared
    (by rw [count_placeholder_append, count_angleBrackets hts, List.length_cons])
  exact ⟨t, declared_eq_ok_iff.2 ht⟩

end Template

end ImmutableJava
