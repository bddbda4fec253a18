import ImmutableJava.Template

/-!
# Placeholders of patterns put together

A pattern put together from two parts has the placeholders of both, and one more
exactly when the first part ends in `%` and the second begins with `s` (`Meet`,
`holes_append`).  So counting placeholders is enough to know that no placeholder arose
between two parts, and then filling the whole is filling the parts
(`fill_append_of_length_le`).

That is how alignment is used: a template whose pattern was put together and whose count
came out right renders to the renderings of the parts put together.
-/

namespace ImmutableJava

namespace Pattern

/-- A placeholder arises where the one pattern follows the other. -/
def Meet (p q : List Char) : Prop := p.getLast? = some '%' ∧ q.head? = some 's'

instance (p q : List Char) : Decidable (Meet p q) := instDecidableAnd

variable {p q : List Char} {texts : List String}

theorem Meet.cons (h : Meet p q) (c : Char) : Meet (c :: p) q := by
  cases p with
  | nil => exact absurd h.1 (by simp)
  | cons d p => exact ⟨by rw [List.getLast?_cons_cons]; exact h.1, h.2⟩

theorem meet_cons_cons (c d : Char) (p q : List Char) :
    Meet (c :: d :: p) q ↔ Meet (d :: p) q := by
  rw [Meet, Meet, List.getLast?_cons_cons]

/-- What follows a character is decided by the nearest part that is not empty. -/
theorem meet_singleton_append (c : Char) (p q : List Char) :
    Meet [c] (p ++ q) ↔ Meet [c] p ∨ p = [] ∧ Meet [c] q := by
  cases p with
  | nil => simp [Meet]
  | cons d p => simp [Meet]

theorem not_meet_of_head? (h : q.head? ≠ some 's') : ¬ Meet p q := fun hmeet => h hmeet.2

theorem not_meet_of_getLast? (h : p.getLast? ≠ some '%') : ¬ Meet p q := fun hmeet => h hmeet.1

/-! ## Counting -/

theorem holes_cons (c : Char) (q : List Char) :
    holes (c :: q) = holes q + if Meet [c] q then 1 else 0 := by
  by_cases h : Meet [c] q
  · obtain ⟨rfl, hq⟩ : c = '%' ∧ q.head? = some 's' := by simpa [Meet] using h
    obtain ⟨q, rfl⟩ := List.head?_eq_some_iff.1 hq
    rw [if_pos h]
    rfl
  · rw [if_neg h, holes, Nat.add_zero]
    rintro q rfl rfl
    exact h ⟨rfl, rfl⟩

/-- The placeholders of two patterns put together. -/
theorem holes_append (p q : List Char) :
    holes (p ++ q) = holes p + holes q + if Meet p q then 1 else 0 := by
  induction p with
  | nil => simp [holes, Meet]
  | cons c p ih =>
    rw [List.cons_append, holes_cons, holes_cons, ih]
    cases p with
    | nil =>
      have hend : ¬ Meet [c] [] := fun hmeet => absurd hmeet.2 (by simp)
      have hstart : ¬ Meet [] q := fun hmeet => absurd hmeet.1 (by simp)
      rw [List.nil_append, if_neg hend, if_neg hstart]
      omega
    | cons d p =>
      have hnext : Meet [c] (d :: p ++ q) ↔ Meet [c] (d :: p) := Iff.rfl
      simp only [hnext, meet_cons_cons]
      omega

theorem holes_append_of_not_meet (h : ¬ Meet p q) : holes (p ++ q) = holes p + holes q := by
  rw [holes_append, if_neg h, Nat.add_zero]

theorem le_holes_append (p q : List Char) : holes p + holes q ≤ holes (p ++ q) := by
  rw [holes_append]
  omega

/-- No placeholder arises between the parts if the whole has no more than they have. -/
theorem not_meet_of_holes_append_le (h : holes (p ++ q) ≤ holes p + holes q) : ¬ Meet p q := by
  intro hmeet
  rw [holes_append, if_pos hmeet] at h
  omega

/-! ## Filling -/

theorem fill_cons (c : Char) (h : ¬ Meet [c] q) : fill (c :: q) texts = c :: fill q texts := by
  rw [fill]
  · rintro rest - rfl rfl
    exact h ⟨rfl, rfl⟩
  · rintro rest text texts - rfl rfl
    exact h ⟨rfl, rfl⟩

/-- A pattern without placeholders stays as it is. -/
theorem fill_of_holes_eq_zero (h : holes p = 0) : fill p texts = p := by
  induction p with
  | nil => rfl
  | cons c p ih =>
    rw [holes_cons] at h
    have hmeet : ¬ Meet [c] p := fun hmeet => by
      rw [if_pos hmeet] at h
      omega
    rw [fill_cons c hmeet, ih (by omega)]

theorem fill_append {first second : List String} (hcount : first.length = holes p)
    (hmeet : ¬ Meet p q) :
    fill (p ++ q) (first ++ second) = fill p first ++ fill q second := by
  fun_induction fill p first with
  | case1 rest => cases hcount
  | case2 rest text texts ih =>
    have hrest : fill (rest ++ q) (texts ++ second) = fill rest texts ++ fill q second :=
      ih (Nat.succ.inj hcount) fun h => hmeet ((h.cons 's').cons '%')
    rw [List.append_assoc, ← hrest]
    rfl
  | case3 c rest texts hnone hsome ih =>
    have hnext : ¬ Meet [c] rest := by
      rintro ⟨hc, hs⟩
      obtain ⟨tail, rfl⟩ := List.head?_eq_some_iff.1 hs
      cases texts with
      | nil => exact hnone _ rfl (by simpa using hc) rfl
      | cons text texts => exact hsome _ _ _ rfl (by simpa using hc) rfl
    have hafter : ¬ Meet [c] (rest ++ q) := by
      rw [meet_singleton_append]
      rintro (h | ⟨rfl, h⟩)
      · exact hnext h
      · exact hmeet h
    rw [holes_cons, if_neg hnext] at hcount
    rw [List.cons_append, fill_cons c hafter, ih hcount fun h => hmeet (h.cons c)]
    rfl
  | case4 texts =>
    have hempty : texts = [] := List.length_eq_zero_iff.1 hcount
    rw [hempty]
    rfl

/-- Where the parts of a pattern have at least as many placeholders as texts, and the
whole has as many placeholders as there are texts, each part is filled with its own. -/
theorem fill_append_of_length_le {first second : List String} (hp : first.length ≤ holes p)
    (hq : second.length ≤ holes q) (h : holes (p ++ q) = first.length + second.length) :
    first.length = holes p ∧ second.length = holes q ∧
      fill (p ++ q) (first ++ second) = fill p first ++ fill q second := by
  have hle := le_holes_append p q
  have hfirst : first.length = holes p := by omega
  have hsecond : second.length = holes q := by omega
  exact ⟨hfirst, hsecond, fill_append hfirst (not_meet_of_holes_append_le (by omega))⟩

/-! ## Texts as patterns -/

/-- The number of placeholders of a text. -/
def count (pattern : String) : Nat := holes pattern.toList

/-- A text with its placeholders filled from the left. -/
def filled (pattern : String) (texts : List String) : String :=
  String.ofList (fill pattern.toList texts)

variable {pattern tail : String}

theorem le_count_append (first second : String) :
    count first + count second ≤ count (first ++ second) := by
  rw [count, count, count, String.toList_append]
  exact le_holes_append _ _

theorem count_append (h : ¬ Meet pattern.toList tail.toList) :
    count (pattern ++ tail) = count pattern + count tail := by
  rw [count, String.toList_append, holes_append_of_not_meet h]
  rfl

theorem filled_of_count_eq_zero (h : count pattern = 0) : filled pattern texts = pattern := by
  rw [filled, fill_of_holes_eq_zero h, String.ofList_toList]

theorem filled_append_of_length_le (pattern tail : String) (first second : List String)
    (hp : first.length ≤ count pattern) (hq : second.length ≤ count tail)
    (h : count (pattern ++ tail) = first.length + second.length) :
    first.length = count pattern ∧ second.length = count tail ∧
      filled (pattern ++ tail) (first ++ second) = filled pattern first ++ filled tail second := by
  rw [count, String.toList_append] at h
  obtain ⟨hfirst, hsecond, hfill⟩ := fill_append_of_length_le hp hq h
  refine ⟨hfirst, hsecond, ?_⟩
  rw [filled, String.toList_append, hfill, String.ofList_append]
  rfl

/-- Texts around a pattern that has a placeholder for each filling already. -/
theorem filled_surround (opening pattern closing : String) (texts : List String)
    (hle : texts.length ≤ count pattern)
    (h : count (opening ++ pattern ++ closing) = texts.length) :
    count pattern = texts.length ∧
      filled (opening ++ pattern ++ closing) texts = opening ++ filled pattern texts ++ closing := by
  have houter := le_count_append (opening ++ pattern) closing
  have hinner := le_count_append opening pattern
  have hclosing := filled_append_of_length_le (opening ++ pattern) closing texts [] (by omega)
    (Nat.zero_le _) h
  have hopening := filled_append_of_length_le opening pattern [] texts (Nat.zero_le _) hle
    (by rw [← hclosing.1]; simp)
  rw [List.append_nil] at hclosing
  rw [List.nil_append] at hopening
  refine ⟨hopening.2.1.symm, ?_⟩
  rw [hclosing.2.2, hopening.2.2, filled_of_count_eq_zero hopening.1.symm,
    filled_of_count_eq_zero hclosing.2.1.symm]

/-- A text between two patterns that have a placeholder for each filling already. -/
theorem filled_between (first between second : String) (texts more : List String)
    (hle : texts.length ≤ count first) (hmore : more.length ≤ count second)
    (h : count (first ++ between ++ second) = texts.length + more.length) :
    count first = texts.length ∧
      filled (first ++ between ++ second) (texts ++ more) =
        filled first texts ++ between ++ filled second more := by
  have hinner := le_count_append first between
  have hsecond := filled_append_of_length_le (first ++ between) second texts more (by omega) hmore h
  have hfirst := filled_append_of_length_le first between texts [] hle (Nat.zero_le _)
    (by rw [← hsecond.1]; rfl)
  rw [List.append_nil] at hfirst
  refine ⟨hfirst.1.symm, ?_⟩
  rw [hsecond.2.2, hfirst.2.2, filled_of_count_eq_zero hfirst.2.1.symm]

/-! ## Texts without placeholders -/

/-- A text in which `%s` does not occur has no placeholder. -/
theorem count_eq_zero_of_not_infix (h : ¬ placeholder.toList <:+: pattern.toList) :
    count pattern = 0 := by
  have hlist : ∀ p : List Char, ¬ ['%', 's'] <:+: p → holes p = 0 := by
    intro p
    induction p with
    | nil => exact fun _ => rfl
    | cons c p ih =>
      intro hp
      have hmeet : ¬ Meet [c] p := by
        rintro ⟨hc, hs⟩
        obtain ⟨rest, rfl⟩ := List.head?_eq_some_iff.1 hs
        cases hc
        exact hp ⟨[], rest, rfl⟩
      rw [holes_cons, if_neg hmeet, ih fun hinfix => hp (List.infix_cons hinfix)]
  exact hlist _ h

theorem count_eq_zero_iff : count pattern = 0 ↔ ¬ placeholder.toList <:+: pattern.toList := by
  refine ⟨?_, count_eq_zero_of_not_infix⟩
  rintro hcount ⟨front, back, hpattern⟩
  have hback := le_holes_append (front ++ placeholder.toList) back
  have hfront := le_holes_append front placeholder.toList
  have hone : holes placeholder.toList = 1 := rfl
  rw [hpattern] at hback
  rw [count] at hcount
  omega

theorem count_append_of_head? (h : tail.toList.head? ≠ some 's') :
    count (pattern ++ tail) = count pattern + count tail :=
  count_append (not_meet_of_head? h)

theorem count_append_of_getLast? (h : pattern.toList.getLast? ≠ some '%') :
    count (pattern ++ tail) = count pattern + count tail :=
  count_append (not_meet_of_getLast? h)

/-- A text that makes no placeholder, whatever stands around it. -/
structure IsDelimiter (text : String) : Prop where
  count_eq : count text = 0
  head?_ne : text.toList.head? ≠ some 's'
  getLast?_ne : text.toList.getLast? ≠ some '%'
  toList_ne_nil : text.toList ≠ []

theorem IsDelimiter.count_between {text : String} (h : IsDelimiter text)
    (first second : String) : count (first ++ text ++ second) = count first + count second := by
  have hlast : (first ++ text).toList.getLast? ≠ some '%' := by
    rw [String.toList_append, List.getLast?_append,
      List.getLast?_eq_some_getLast h.toList_ne_nil, Option.some_or,
      ← List.getLast?_eq_some_getLast]
    exact h.getLast?_ne
  rw [count_append_of_getLast? hlast, count_append_of_head? h.head?_ne, h.count_eq, Nat.add_zero]

/-- Joining with a delimiter makes no placeholder. -/
theorem IsDelimiter.count_intercalate {α β : Type} {text : String} (h : IsDelimiter text)
    {l : List α} {f : α → String} {g : α → List β} (hl : ∀ a ∈ l, count (f a) = (g a).length) :
    count (text.intercalate (l.map f)) = (l.flatMap g).length := by
  induction l with
  | nil => rfl
  | cons a l ih =>
    obtain ⟨ha, hrest⟩ := List.forall_mem_cons.1 hl
    cases l with
    | nil => simpa using ha
    | cons b l =>
      have hargs : ((a :: b :: l).flatMap g).length = (g a).length + ((b :: l).flatMap g).length := by
        rw [List.flatMap_cons, List.length_append]
      rw [List.map_cons, Pieces.intercalate_cons _ _ (by simp), h.count_between, ha, ih hrest, hargs]

/-! ## A placeholder in front -/

theorem count_placeholder_append (tail : String) :
    count (placeholder ++ tail) = count tail + 1 := by
  rw [count, String.toList_append]
  rfl

@[simp] theorem afterPlaceholder_placeholder_append (tail : String) :
    afterPlaceholder (placeholder ++ tail) = tail := by
  rw [afterPlaceholder, String.toList_append]
  exact String.ofList_toList

theorem filled_placeholder_append (tail text : String) :
    filled (placeholder ++ tail) (text :: texts) = text ++ filled tail texts := by
  rw [filled, String.toList_append]
  show String.ofList (text.toList ++ fill tail.toList texts) = _
  rw [String.ofList_append, String.ofList_toList]
  rfl

end Pattern

end ImmutableJava
