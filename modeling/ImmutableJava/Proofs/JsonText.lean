import ImmutableJava.Json.Parser
import ImmutableJava.Json.Printer
import Mathlib.Data.List.Basic

/-!
# A document is read back from its text

What the library writes down consists of texts, flags, lists and records (`Json.Plain`).  Such
a document is read back from its text (`Json.parse?_print`), in two steps: the lexer finds the
tokens that were written, and the parser puts them together again.

Most tokens are complete with their last character.  A word is not: it ends where no letter
follows (`NoLetter`), and in a document there is always a comma, a closing bracket or nothing
behind it.
-/

namespace ImmutableJava

namespace Json

/-- A document of texts, flags, lists and records: it has no numerals, and all of its strings
and keys denote texts. -/
inductive Plain : Json → Prop
  | null : Plain .null
  | bool (value : Bool) : Plain (.bool value)
  | text (value : String) : Plain (.text value)
  | array {items : List Json} (hitems : ∀ item ∈ items, Plain item) : Plain (.array items)
  | object {fields : List Field} (hkeys : ∀ f ∈ fields, f.1.isSome)
    (hvalues : ∀ f ∈ fields, Plain f.2) : Plain (.object fields)

/-! ## Putting tokens together -/

namespace Parser

variable {p q r : Parser} {t : Token} {ts us : List Token}

/-- Tokens lead the parser from one state to another. -/
def Leads (p : Parser) (ts : List Token) (q : Parser) : Prop := ts.foldlM step p = some q

theorem leads_nil (p : Parser) : Leads p [] p := rfl

theorem Leads.cons (h : step p t = some q) (hq : Leads q ts r) : Leads p (t :: ts) r := by
  rw [Leads, List.foldlM_cons, h]
  exact hq

theorem Leads.append (h : Leads p ts q) (hq : Leads q us r) : Leads p (ts ++ us) r := by
  rw [Leads, List.foldlM_append, h]
  exact hq

/-- The first item of an array is read like any other value. -/
theorem leads_atFirstItem_iff {j : Json} {stack : List Frame} :
    Leads (.atFirstItem stack) j.tokens q ↔ Leads (.atValue (.item [] :: stack)) j.tokens q := by
  cases j with
  | array items => cases items <;> exact Iff.rfl
  | object fields => cases fields <;> exact Iff.rfl
  | _ => exact Iff.rfl

/-- Whether the parser makes a document of its tokens, inside any frames. -/
def Reads (j : Json) : Prop := ∀ stack, Leads (.atValue stack) j.tokens (complete j stack)

theorem leads_furtherItems {items : List Json} (h : ∀ item ∈ items, Reads item)
    (before : List Json) (stack : List Frame) :
    Leads (.afterItem before stack) (furtherItems items ++ [.closeBracket])
      (complete (.array (before.reverse ++ items)) stack) := by
  induction items generalizing before with
  | nil =>
    rw [List.append_nil]
    exact .cons rfl (leads_nil _)
  | cons item items ih =>
    obtain ⟨hitem, hitems⟩ := List.forall_mem_cons.1 h
    have hrest := ih hitems (item :: before)
    rw [List.reverse_cons, List.append_assoc] at hrest
    rw [furtherItems, List.cons_append, List.append_assoc]
    exact .cons rfl ((hitem _).append hrest)

theorem leads_furtherFields {fields : List Field} (h : ∀ f ∈ fields, Reads f.2)
    (before : List Field) (stack : List Frame) :
    Leads (.afterField before stack) (furtherFields fields ++ [.closeBrace])
      (complete (.object (before.reverse ++ fields)) stack) := by
  induction fields generalizing before with
  | nil =>
    rw [List.append_nil]
    exact .cons rfl (leads_nil _)
  | cons f fields ih =>
    obtain ⟨hvalue, hfields⟩ := List.forall_mem_cons.1 h
    have hrest := ih hfields (f :: before)
    rw [List.reverse_cons, List.append_assoc] at hrest
    rw [furtherFields, List.cons_append, List.cons_append, List.cons_append, List.append_assoc]
    exact .cons rfl (.cons rfl (.cons rfl ((hvalue _).append hrest)))

end Parser

open Json.Parser in
theorem Plain.reads {j : Json} (h : j.Plain) : Reads j := by
  induction h with
  | null => exact fun _ => rfl
  | bool value => exact fun _ => rfl
  | text value => exact fun _ => rfl
  | @array items hitems ih =>
    intro stack
    cases items with
    | nil => rfl
    | cons item items =>
      obtain ⟨hitem, hitems⟩ := List.forall_mem_cons.1 ih
      exact .cons rfl ((leads_atFirstItem_iff.2 (hitem _)).append (leads_furtherItems hitems _ _))
  | @object fields hkeys hvalues ih =>
    intro stack
    cases fields with
    | nil => rfl
    | cons f fields =>
      obtain ⟨hvalue, hfields⟩ := List.forall_mem_cons.1 ih
      exact .cons rfl (.cons rfl (.cons rfl ((hvalue _).append (leads_furtherFields hfields _ _))))

/-- The parser makes a document of its tokens. -/
theorem ofTokens?_tokens {j : Json} (h : j.Plain) : ofTokens? j.tokens = some j := by
  have hdone : j.tokens.foldlM Parser.step (.atValue []) = some (.done j) := h.reads []
  rw [ofTokens?, hdone]
  rfl

/-! ## Finding tokens -/

/-- Whether no letter comes next. -/
def NoLetter (rest : List Char) : Prop := ∀ c ∈ rest.head?, c.isLower = false

namespace Lexer

theorem run_cons {lexer next : Lexer} {c : Char} {tokens : List Token}
    (h : step lexer c = some (next, tokens)) (found : List Token) (rest : List Char) :
    run lexer found (c :: rest) = run next (tokens.reverse ++ found) rest := by
  rw [run, h]

/-- A word ends where no letter follows. -/
theorem run_word (chars : List Char) {rest : List Char} {token : Token}
    (hword : wordToken? chars = some token) (hrest : NoLetter rest) (found : List Token) :
    run (word chars) found rest = run between (token :: found) rest := by
  cases rest with
  | nil => simp [run, finish, hword]
  | cons c rest =>
    have hletter : c.isLower = false := hrest c rfl
    rw [run, run, step, step, hletter, hword]
    cases start c with
    | none => rfl
    | some next => simp

/-- Tokens are found in their text if no letter follows it. -/
def Finds (ts : List Token) : Prop :=
  ∀ found rest, NoLetter rest →
    run between found (ts.flatMap Token.chars ++ rest) = run between (ts.reverse ++ found) rest

/-- A token is found in its text, whatever follows it. -/
def Completes (t : Token) : Prop :=
  ∀ found rest, run between found (t.chars ++ rest) = run between (t :: found) rest

theorem finds_nil : Finds [] := fun _ _ _ => rfl

theorem Completes.cons {t : Token} {ts : List Token} (h : Completes t) (hts : Finds ts) :
    Finds (t :: ts) := by
  intro found rest hrest
  rw [List.flatMap_cons, List.append_assoc, h, hts _ _ hrest, List.reverse_cons, List.append_assoc,
    List.singleton_append]

theorem Finds.append {ts us : List Token} (hts : Finds ts) (hus : Finds us)
    (h : ∀ rest, NoLetter rest → NoLetter (us.flatMap Token.chars ++ rest)) :
    Finds (ts ++ us) := by
  intro found rest hrest
  rw [List.flatMap_append, List.append_assoc, hts _ _ (h rest hrest), hus _ _ hrest,
    List.reverse_append, List.append_assoc]

theorem completes_of_start {t : Token} {c : Char} (hchars : t.chars = [c])
    (hstart : step between c = some (between, [t])) : Completes t := by
  intro found rest
  rw [hchars]
  exact run_cons hstart found rest

theorem finds_null : Finds [.scalar .null] := by
  intro found rest hrest
  exact run_word ['l', 'l', 'u', 'n'] rfl hrest found

theorem finds_bool (value : Bool) : Finds [.scalar (.bool value)] := by
  intro found rest hrest
  cases value with
  | false => exact run_word ['e', 's', 'l', 'a', 'f'] rfl hrest found
  | true => exact run_word ['e', 'u', 'r', 't'] rfl hrest found

/-! ### Strings -/

/-- The unit that a character of a text is read as. -/
def unitOf (c : Char) : StringUnit :=
  if escapeLetter? c = none ∧ c.toNat < 0x20 then .code c.toNat else .char c

theorem unitOf_cases (c : Char) :
    unitOf c = .char c ∨ c.toNat < 0x20 ∧ unitOf c = .code c.toNat := by
  rw [unitOf]
  split
  · rename_i h
    exact .inr ⟨h.2, rfl⟩
  · exact .inl rfl

theorem decode?_unitOf_cons (c : Char) (units : List StringUnit) :
    StringUnit.decode? (unitOf c :: units) = (StringUnit.decode? units).map (c :: ·) := by
  rcases unitOf_cases c with h | ⟨hc, h⟩
  · rw [h, StringUnit.decode?]
  · have hhigh : StringUnit.isHigh c.toNat = false := by
      simp [StringUnit.isHigh]
      omega
    have hlow : StringUnit.isLow c.toNat = false := by
      simp [StringUnit.isLow]
      omega
    rw [h]
    cases units with
    | nil => simp [StringUnit.decode?, hhigh, hlow]
    | cons unit units => cases unit <;> simp [StringUnit.decode?, hhigh, hlow]

/-- The units of a text are decoded to the text. -/
theorem decode?_map_unitOf (cs : List Char) : StringUnit.decode? (cs.map unitOf) = some cs := by
  induction cs with
  | nil => rfl
  | cons c cs ih => rw [List.map_cons, decode?_unitOf_cons, ih, Option.map_some]

theorem escaped?_of_escapeLetter? {c letter : Char} (h : escapeLetter? c = some letter) :
    escaped? letter = some c ∧ letter ≠ 'u' := by
  unfold escapeLetter? at h
  split at h <;> cases h
  all_goals exact ⟨rfl, by decide⟩

theorem hexDigit?_digitChar {n : Nat} (h : n < 16) : hexDigit? (Nat.digitChar n) = some n := by
  have hall : ∀ i : Fin 16, hexDigit? (Nat.digitChar i) = some i.val := by decide
  exact hall ⟨n, h⟩

/-- A character that is written inside a string is read as its unit. -/
theorem run_escapeChar (c : Char) (units : List StringUnit) (found : List Token)
    (rest : List Char) :
    run (string units) found (escapeChar c ++ rest) =
      run (string (unitOf c :: units)) found rest := by
  rw [escapeChar, unitOf]
  split
  · rename_i letter h
    obtain ⟨hletter, hne⟩ := escaped?_of_escapeLetter? h
    have hstep : step (escape units) letter = some (string (.char c :: units), []) := by
      rw [step, if_neg hne, hletter]
      rfl
    rw [h, if_neg (by simp)]
    exact (run_cons rfl _ _).trans (run_cons hstep _ _)
  · rename_i h
    by_cases hcontrol : c.toNat < 0x20
    · rw [if_pos hcontrol, if_pos ⟨h, hcontrol⟩]
      have hhigh : step (code units 2 0) (Nat.digitChar (c.toNat / 16)) =
          some (code units 1 (c.toNat / 16), []) := by
        rw [step, hexDigit?_digitChar (by omega)]
        simp
      have hlow : step (code units 1 (c.toNat / 16)) (Nat.digitChar (c.toNat % 16)) =
          some (string (.code c.toNat :: units), []) := by
        rw [step, hexDigit?_digitChar (by omega), Option.bind_eq_bind, Option.bind_some,
          if_pos (Nat.le_refl 1), Nat.div_add_mod]
      exact (run_cons hhigh _ _).trans (run_cons hlow _ _)
    · have hplain : step (string units) c = some (string (.char c :: units), []) := by
        have hquote : c ≠ '"' := by
          rintro rfl
          cases h
        have hbackslash : c ≠ '\\' := by
          rintro rfl
          cases h
        rw [step, if_neg hquote, if_neg hbackslash, if_neg hcontrol]
      rw [if_neg hcontrol, if_neg fun hboth => hcontrol hboth.2]
      exact run_cons hplain _ _

theorem run_escapeChars (cs : List Char) (units : List StringUnit) (found : List Token)
    (rest : List Char) :
    run (string units) found (cs.flatMap escapeChar ++ rest) =
      run (string ((cs.map unitOf).reverse ++ units)) found rest := by
  induction cs generalizing units with
  | nil => rfl
  | cons c cs ih =>
    rw [List.flatMap_cons, List.append_assoc, run_escapeChar, ih, List.map_cons, List.reverse_cons,
      List.append_assoc, List.singleton_append]

theorem completes_text (value : String) : Completes (.scalar (.text value)) := by
  intro found rest
  have htoken : stringToken (value.toList.map unitOf).reverse = .scalar (.text value) := by
    rw [stringToken, List.reverse_reverse, decode?_map_unitOf, Option.map_some,
      String.ofList_toList]
    rfl
  have hopening : step between '"' = some (string [], []) := rfl
  have hclosing (units : List StringUnit) :
      step (string units) '"' = some (between, [stringToken units]) := rfl
  show run between found ('"' :: (value.toList.flatMap escapeChar ++ ['"'] ++ rest)) = _
  rw [run_cons hopening, List.append_assoc, run_escapeChars, List.append_nil, ← htoken]
  exact run_cons (hclosing _) found rest

/-! ### Documents -/

theorem noLetter_furtherItems (items : List Json) (rest : List Char) :
    NoLetter ((furtherItems items ++ [Token.closeBracket]).flatMap Token.chars ++ rest) := by
  cases items <;> rintro _ ⟨⟩ <;> decide

theorem noLetter_furtherFields (fields : List Field) (rest : List Char) :
    NoLetter ((furtherFields fields ++ [Token.closeBrace]).flatMap Token.chars ++ rest) := by
  cases fields <;> rintro _ ⟨⟩ <;> decide

theorem finds_furtherItems {items : List Json} (h : ∀ item ∈ items, Finds item.tokens) :
    Finds (furtherItems items ++ [Token.closeBracket]) := by
  induction items with
  | nil => exact (completes_of_start rfl rfl).cons finds_nil
  | cons item items ih =>
    obtain ⟨hitem, hitems⟩ := List.forall_mem_cons.1 h
    rw [furtherItems, List.cons_append, List.append_assoc]
    exact (completes_of_start rfl rfl).cons
      (hitem.append (ih hitems) fun rest _ => noLetter_furtherItems items rest)

/-- A key and its value are found if they stand before the rest of an object. -/
theorem finds_field {key : Option String} {value : Json} (hkey : key.isSome)
    (hvalue : Finds value.tokens) {fields : List Field}
    (hfields : Finds (furtherFields fields ++ [Token.closeBrace])) :
    Finds (.scalar (.string key) :: .colon ::
      (value.tokens ++ (furtherFields fields ++ [Token.closeBrace]))) := by
  obtain ⟨name, rfl⟩ := Option.isSome_iff_exists.1 hkey
  exact (completes_text name).cons ((completes_of_start rfl rfl).cons
    (hvalue.append hfields fun rest _ => noLetter_furtherFields fields rest))

theorem finds_furtherFields {fields : List Field} (hkeys : ∀ f ∈ fields, f.1.isSome)
    (h : ∀ f ∈ fields, Finds f.2.tokens) : Finds (furtherFields fields ++ [Token.closeBrace]) := by
  induction fields with
  | nil => exact (completes_of_start rfl rfl).cons finds_nil
  | cons f fields ih =>
    obtain ⟨hkey, hrest⟩ := List.forall_mem_cons.1 hkeys
    obtain ⟨hvalue, hfields⟩ := List.forall_mem_cons.1 h
    rw [furtherFields, List.cons_append, List.cons_append, List.cons_append, List.append_assoc]
    exact (completes_of_start rfl rfl).cons (finds_field hkey hvalue (ih hrest hfields))

end Lexer

open Json.Lexer in
theorem Plain.finds {j : Json} (h : j.Plain) : Finds j.tokens := by
  induction h with
  | null => exact finds_null
  | bool value => exact finds_bool value
  | text value => exact (completes_text value).cons finds_nil
  | @array items hitems ih =>
    cases items with
    | nil =>
      exact (completes_of_start rfl rfl).cons ((completes_of_start rfl rfl).cons finds_nil)
    | cons item items =>
      obtain ⟨hitem, hitems⟩ := List.forall_mem_cons.1 ih
      exact (completes_of_start rfl rfl).cons (hitem.append (finds_furtherItems hitems)
        fun rest _ => noLetter_furtherItems items rest)
  | @object fields hkeys hvalues ih =>
    cases fields with
    | nil =>
      exact (completes_of_start rfl rfl).cons ((completes_of_start rfl rfl).cons finds_nil)
    | cons f fields =>
      obtain ⟨hkey, hkeys⟩ := List.forall_mem_cons.1 hkeys
      obtain ⟨hvalue, hfields⟩ := List.forall_mem_cons.1 ih
      exact (completes_of_start rfl rfl).cons
        (finds_field hkey hvalue (finds_furtherFields hkeys hfields))

/-- The lexer finds the tokens of a document in its text. -/
theorem tokens?_print {j : Json} (h : j.Plain) : tokens? j.print = some j.tokens := by
  have hfinds := h.finds [] [] fun c hc => absurd hc (by simp)
  rw [tokens?, print, String.toList_ofList, ← List.append_nil (List.flatMap _ _), hfinds]
  simp [Lexer.run, Lexer.finish]

/-- A document is read back from its text. -/
theorem parse?_print {j : Json} (h : j.Plain) : parse? j.print = some j := by
  rw [parse?, tokens?_print h, Option.bind_some, ofTokens?_tokens h]

example : (object [field "a" (array [text "b\n", bool true])]).print =
    "\x7b\"a\":[\"b\\n\",true]\x7d" := by
  decide +kernel

end Json

end ImmutableJava
