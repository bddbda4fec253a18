import ImmutableJava.JavaLang
import ImmutableJava.Proofs.Template

/-!
# Rendering is a homomorphism

Templates are put together by joining them, and texts are put together by joining texts.
Rendering with a namer takes the one to the other: what a composition renders to is put
together in the same way from what its parts render to (`render_eq_of_composed`).

Nothing is asked of the delimiters, of the texts around the parts, or of the names that the
namer gives; any of them may contain `%s`.  The parts have to be aligned, and the composition
has to be a template.  The second condition is what the constructors check: they count the
placeholders of the whole pattern.  A placeholder that stands in a delimiter, or that arises
where two parts meet, is counted beside those of the parts, which are as many as the
arguments already.  So a shift of the arguments would show in the count.
-/

namespace ImmutableJava

namespace Template

variable {t u first second : Template} {ts : List Template} {namer : BinaryName → String}

/-! ## Compositions of few parts -/

theorem render_concat (hfirst : first.Aligned) (hsecond : second.Aligned)
    (h : concat first second = .ok u) :
    u.render namer = first.render namer ++ second.render namer := by
  have haligned : ∀ t ∈ [first, second], t.Aligned := by
    intro t ht
    rcases List.mem_pair.1 ht with rfl | rfl
    · exact hfirst
    · exact hsecond
  rw [render_join haligned h, List.map_cons, List.map_cons, List.map_nil,
    Pieces.intercalate_cons _ _ (by simp), Pieces.intercalate_singleton]
  simp

theorem render_withPrefix (ht : t.Aligned) {text : String} (h : withPrefix text t = .ok u) :
    u.render namer = text ++ t.render namer :=
  render_of_make_prepend ht h

theorem render_withSuffix (ht : t.Aligned) {text : String} (h : t.withSuffix text = .ok u) :
    u.render namer = t.render namer ++ text :=
  render_of_make_append ht h

/-! ## Compositions of a list of parts -/

/-- A type parameter renders to its name, and to its bounds behind it if it has any. -/
theorem render_typeParameter (hts : ∀ t ∈ ts, t.Aligned) {name : String}
    (h : typeParameter name ts = .ok u) :
    u.render namer = if ts = [] then name
      else name ++ " extends " ++ " & ".intercalate (ts.map (·.render namer)) := by
  rw [typeParameter_eq] at h
  by_cases hnil : ts = []
  · subst hnil
    exact render_of_make_nil h
  · rw [if_neg hnil] at h ⊢
    obtain ⟨hcount, rfl⟩ := make_eq_ok_iff.1 h
    have hjoin : join ts " & " (name ++ " extends ") "" =
        .ok ⟨name ++ " extends " ++ " & ".intercalate (ts.map (·.pattern)) ++ "",
          ts.flatMap (·.args), .composite⟩ :=
      make_eq_ok_iff.2 ⟨by rw [String.append_empty]; exact hcount, rfl⟩
    have hrender := @render_join _ _ namer hts _ _ _ hjoin
    rw [String.append_empty, String.append_empty] at hrender
    exact hrender

/-- A declared type renders to its name and its arguments in angle brackets. -/
theorem render_declared (hts : ∀ t ∈ ts, t.Aligned) {raw : BinaryName}
    (h : declared raw ts = .ok u) :
    u.render namer = namer raw ++ angleBrackets (ts.map (·.render namer)) := by
  have hroot := isRooted_of_declared h
  rw [hroot.render_eq, filled_angleBrackets hts hroot.count_tail]

/-! ## The template algebra -/

/-- Every composition of aligned templates that is a template renders to the composition of
the renderings. -/
theorem render_eq_of_composed (namer : BinaryName → String) (ts : List Template)
    (hts : ∀ t ∈ ts, t.Aligned) :
    (∀ delimiter opening closing u, join ts delimiter opening closing = .ok u →
      u.render namer = opening ++ delimiter.intercalate (ts.map (·.render namer)) ++ closing) ∧
    (∀ first ∈ ts, ∀ second ∈ ts, ∀ u, concat first second = .ok u →
      u.render namer = first.render namer ++ second.render namer) ∧
    (∀ t ∈ ts, ∀ text u, withPrefix text t = .ok u →
      u.render namer = text ++ t.render namer) ∧
    (∀ t ∈ ts, ∀ text u, t.withSuffix text = .ok u →
      u.render namer = t.render namer ++ text) ∧
    (∀ t ∈ ts, ∀ u, t.array = .ok u → u.render namer = t.render namer ++ "[]") ∧
    (∀ t ∈ ts, ∀ u, t.wildcardExtends = .ok u →
      u.render namer = "? extends " ++ t.render namer) ∧
    (∀ t ∈ ts, ∀ u, t.wildcardSuper = .ok u →
      u.render namer = "? super " ++ t.render namer) ∧
    (∀ name u, typeParameter name ts = .ok u →
      u.render namer = if ts = [] then name
        else name ++ " extends " ++ " & ".intercalate (ts.map (·.render namer))) ∧
    (∀ raw u, declared raw ts = .ok u →
      u.render namer = namer raw ++ if ts = [] then ""
        else "<" ++ ", ".intercalate (ts.map (·.render namer)) ++ ">") := by
  refine ⟨?_, ?_, ?_, ?_, ?_, ?_, ?_, ?_, ?_⟩
  · intro delimiter opening closing u hu
    exact render_join hts hu
  · intro first hfirst second hsecond u hu
    exact render_concat (hts first hfirst) (hts second hsecond) hu
  · intro t ht text u hu
    exact render_withPrefix (hts t ht) hu
  · intro t ht text u hu
    exact render_withSuffix (hts t ht) hu
  · intro t ht u hu
    exact render_array (hts t ht) hu
  · intro t ht u hu
    exact render_wildcardExtends (hts t ht) hu
  · intro t ht u hu
    exact render_wildcardSuper (hts t ht) hu
  · intro name u hu
    exact render_typeParameter hts hu
  · intro raw u hu
    rw [render_declared hts hu, angleBrackets]
    simp only [List.map_eq_nil_iff]

/-- Two bounds whose names contain a placeholder each, joined and as the bounds of a type
parameter. -/
theorem render_eq_of_composed_placeholder :
    ∃ bounds joined parameter,
      bounds = [⟨"%s", [JavaLang.object], .declared⟩, ⟨"%s[]", [JavaLang.override], .array⟩] ∧
      (∀ t ∈ bounds, t.Aligned) ∧
      join bounds "%, " "<" ">" = .ok joined ∧
      joined.render (fun n => "%s" ++ n.simpleName) = "<%sObject%, %sOverride[]>" ∧
      typeParameter "T" bounds = .ok parameter ∧
      parameter.render (fun n => "%s" ++ n.simpleName) =
        "T extends %sObject & %sOverride[]" := by
  have haligned : ∀ t ∈ ([⟨"%s", [JavaLang.object], .declared⟩,
      ⟨"%s[]", [JavaLang.override], .array⟩] : List Template), t.Aligned := by
    intro t ht
    rcases List.mem_pair.1 ht with rfl | rfl
    · rfl
    · rfl
  obtain ⟨hjoin, -, -, -, -, -, -, hparameter, -⟩ :=
    render_eq_of_composed (fun n => "%s" ++ n.simpleName) _ haligned
  refine ⟨_, _, _, rfl, haligned, rfl, ?_, rfl, ?_⟩
  · rw [hjoin "%, " "<" ">" _ rfl]
    decide +kernel
  · rw [hparameter "T" _ rfl]
    decide +kernel

end Template

end ImmutableJava
