import ImmutableJava.Proofs.Template

/-!
# Templates that were put together

A template can also be read from outside, and then its pattern, its arguments and its kind
are whatever was written there.  `Constructible` leaves these out: it has the templates that
come out of the constructors, of the compositions and of the operations on declared types,
one after another in any order.

The kind of such a template is not a mere label.  Only two of the operations make the kind
`declared`, and both put a placeholder in front of the pattern and a type in front of the
arguments.  So a constructible template of that kind is rooted at a type
(`Constructible.isRooted_of_rawType`); the raw type that it answers is that type, and what
follows the first placeholder belongs to the other arguments.
-/

namespace ImmutableJava

namespace Template

/-- The templates that the constructors and the operations make. -/
inductive Constructible : Template → Prop where
  | pattern {text : String} {args : List BinaryName} {t : Template}
      (made : make text args .composite = .ok t) : Constructible t
  | primitive {name : String} {t : Template} (made : Template.primitive name = .ok t) :
      Constructible t
  | array {component t : Template} (hc : Constructible component)
      (made : component.array = .ok t) : Constructible t
  | declared {raw : BinaryName} {ts : List Template} {t : Template}
      (hts : ∀ a ∈ ts, Constructible a) (made : Template.declared raw ts = .ok t) :
      Constructible t
  | typeParameter {name : String} {bounds : List Template} {t : Template}
      (hbounds : ∀ b ∈ bounds, Constructible b)
      (made : Template.typeParameter name bounds = .ok t) : Constructible t
  | typeVariable {name : String} {t : Template} (made : Template.typeVariable name = .ok t) :
      Constructible t
  | wildcard {t : Template} (made : Template.wildcard = .ok t) : Constructible t
  | wildcardExtends {bound t : Template} (hb : Constructible bound)
      (made : bound.wildcardExtends = .ok t) : Constructible t
  | wildcardSuper {bound t : Template} (hb : Constructible bound)
      (made : bound.wildcardSuper = .ok t) : Constructible t
  | errorMarker {t : Template} (made : Template.errorMarker = .ok t) : Constructible t
  | concat {first second t : Template} (hfirst : Constructible first)
      (hsecond : Constructible second) (made : Template.concat first second = .ok t) :
      Constructible t
  | withPrefix {text : String} {part t : Template} (hpart : Constructible part)
      (made : part.withPrefix text = .ok t) : Constructible t
  | withSuffix {text : String} {part t : Template} (hpart : Constructible part)
      (made : part.withSuffix text = .ok t) : Constructible t
  | join {ts : List Template} {delimiter opening closing : String} {t : Template}
      (hts : ∀ a ∈ ts, Constructible a)
      (made : Template.join ts delimiter opening closing = .ok t) : Constructible t
  | topLevelDeclaration {type t : Template} (htype : Constructible type)
      (made : type.topLevelDeclaration = .ok t) : Constructible t
  | addOuterArguments {type t : Template} {outer : BinaryName} {ts : List Template}
      (htype : Constructible type) (hts : ∀ a ∈ ts, Constructible a)
      (made : type.addOuterArguments outer ts = .ok t) : Constructible t

variable {t : Template} {raw : BinaryName}

/-! ## Kinds -/

theorem kind_of_make {pattern : String} {args : List BinaryName} {kind : TemplateKind}
    (h : make pattern args kind = .ok t) : t.kind = kind := by
  obtain ⟨-, rfl⟩ := make_eq_ok_iff.1 h
  rfl

/-- Every other kind excludes that of declared types. -/
theorem kind_ne_declared_of_make {pattern : String} {args : List BinaryName}
    {kind : TemplateKind} (h : make pattern args kind = .ok t) (hne : kind ≠ .declared) :
    t.kind ≠ .declared := by
  rw [kind_of_make h]
  exact hne

theorem kind_of_topLevelDeclaration {type : Template} (h : type.topLevelDeclaration = .ok t) :
    t.kind = .declaration := by
  obtain ⟨raw, -, hmake⟩ := bind_eq_ok_iff.1 h
  exact kind_of_make (mapError_eq_ok_iff.1 hmake)

/-- A template that answers a raw type has the kind of declared types. -/
theorem rawType_eq_ok_iff :
    t.rawType = .ok raw ↔ t.kind = .declared ∧ t.args.head? = some raw := by
  rw [rawType]
  cases t.args.head? with
  | none => simp
  | some found => by_cases hkind : t.kind = .declared <;> simp [isDeclared, hkind]

theorem kind_of_addOuterArguments {type : Template} {outer : BinaryName} {ts : List Template}
    (h : type.addOuterArguments outer ts = .ok t) : type.kind = .declared := by
  obtain ⟨raw, hraw, -⟩ := bind_eq_ok_iff.1 h
  exact (rawType_eq_ok_iff.1 (mapError_eq_ok_iff.1 hraw)).1

/-! ## Roots -/

/-- A constructible template of the kind of declared types is rooted at a type. -/
theorem Constructible.exists_isRooted (h : t.Constructible) (hkind : t.kind = .declared) :
    ∃ raw tail rest, t.IsRooted raw tail rest := by
  induction h with
  | declared _ made => exact ⟨_, _, _, isRooted_of_declared made⟩
  | addOuterArguments _ _ made ih =>
    obtain ⟨raw, tail, rest, hroot⟩ := ih (kind_of_addOuterArguments made)
    obtain ⟨suffix, -, ⟨-, rfl⟩ | ⟨-, hnew⟩⟩ := hroot.addOuterArguments_eq_ok_iff.1 made
    · exact ⟨raw, tail, rest, hroot⟩
    · exact ⟨_, _, _, hnew⟩
  -- all others make a kind of their own
  | pattern made => exact absurd hkind (kind_ne_declared_of_make made (by decide))
  | primitive made => exact absurd hkind (kind_ne_declared_of_make made (by decide))
  | typeVariable made => exact absurd hkind (kind_ne_declared_of_make made (by decide))
  | wildcard made => exact absurd hkind (kind_ne_declared_of_make made (by decide))
  | errorMarker made => exact absurd hkind (kind_ne_declared_of_make made (by decide))
  | concat _ _ made => exact absurd hkind (kind_ne_declared_of_make made (by decide))
  | withPrefix _ made => exact absurd hkind (kind_ne_declared_of_make made (by decide))
  | withSuffix _ made => exact absurd hkind (kind_ne_declared_of_make made (by decide))
  | join _ made => exact absurd hkind (kind_ne_declared_of_make made (by decide))
  | array _ made =>
    exact absurd hkind (kind_ne_declared_of_make ((array_eq _).symm.trans made) (by decide))
  | typeParameter _ made =>
    exact absurd hkind
      (kind_ne_declared_of_make ((typeParameter_eq _ _).symm.trans made) (by decide))
  | wildcardExtends _ made =>
    exact absurd hkind
      (kind_ne_declared_of_make ((wildcardExtends_eq _).symm.trans made) (by decide))
  | wildcardSuper _ made =>
    exact absurd hkind
      (kind_ne_declared_of_make ((wildcardSuper_eq _).symm.trans made) (by decide))
  | topLevelDeclaration _ made =>
    rw [kind_of_topLevelDeclaration made] at hkind
    cases hkind

/-- A constructible template is rooted at its raw type. -/
theorem Constructible.isRooted_of_rawType (h : t.Constructible) (hraw : t.rawType = .ok raw) :
    ∃ tail rest, t.IsRooted raw tail rest := by
  obtain ⟨hkind, hhead⟩ := rawType_eq_ok_iff.1 hraw
  obtain ⟨root, tail, rest, hroot⟩ := h.exists_isRooted hkind
  rw [hroot.eq_mk] at hhead
  obtain rfl : root = raw := Option.some.inj hhead
  exact ⟨tail, rest, hroot⟩

end Template

end ImmutableJava
