import ImmutableJava.Reporting
import Mathlib.Data.List.Forall2

/-!
# Work on lists that reports as it goes

Three things are asked of such work besides its outcome: whether a misaligned template can
stop it (`Ensures`), whether all that it reports are errors (`OnlyErrors`), and what exactly
it reports (`Reports`).  They are proved along the steps of the work, with one rule for each
way to put steps together.

A list is worked through element by element, and a walk without reports met no element
with one (`run_mapM_eq_ok_nil_iff`).
-/

namespace ImmutableJava

section Except

variable {ε δ α β : Type}

theorem bind_eq_ok_iff {x : Except ε α} {f : α → Except ε β} {b : β} :
    (x >>= f) = .ok b ↔ ∃ a, x = .ok a ∧ f a = .ok b := by
  cases x with
  | error e => simp [bind, Except.bind]
  | ok a => simp [bind, Except.bind]

theorem mapError_eq_ok_iff {x : Except ε α} {f : ε → δ} {a : α} :
    x.mapError f = .ok a ↔ x = .ok a := by
  cases x with
  | error e => simp [Except.mapError]
  | ok b => simp [Except.mapError]

theorem toOption_eq_some_iff {x : Except ε α} {a : α} : x.toOption = some a ↔ x = .ok a := by
  cases x with
  | error e => simp [Except.toOption]
  | ok b => simp [Except.toOption]

theorem isOk_iff {x : Except ε α} : x.isOk = true ↔ ∃ a, x = .ok a := by
  cases x with
  | error e => simp [Except.isOk, Except.toBool]
  | ok b => simp [Except.isOk, Except.toBool]

end Except

namespace Reporting

variable {α β : Type}

/-! ## Single steps -/

theorem run_align_eq_ok_nil_iff {t : Except Misalignment Template} {u : Template} :
    (align t).run = .ok ⟨u, []⟩ ↔ t = .ok u := by
  cases t with
  | error fault => simp [align]
  | ok t => simp [align]

/-- A step without reports is a step without reports after another one. -/
theorem run_bind_eq_ok_nil_iff {x : Reporting α} {f : α → Reporting β} {b : β} :
    (x >>= f).run = .ok ⟨b, []⟩ ↔ ∃ a, x.run = .ok ⟨a, []⟩ ∧ (f a).run = .ok ⟨b, []⟩ := by
  rw [run_bind_eq_ok_iff]
  constructor
  · rintro ⟨a, ds, es, hx, hf, hnil⟩
    obtain ⟨rfl, rfl⟩ := List.append_eq_nil_iff.1 hnil.symm
    exact ⟨a, hx, hf⟩
  · rintro ⟨a, hx, hf⟩
    exact ⟨a, [], [], hx, hf, rfl⟩

/-! ## Work that is not stopped -/

/-- The work is not stopped, and its value satisfies a condition. -/
def Ensures (x : Reporting α) (P : α → Prop) : Prop := ∃ r, x.run = .ok r ∧ P r.value

section Ensures

variable {P P' : α → Prop} {Q : β → Prop} {x : Reporting α}

theorem Ensures.mono (h : Ensures x P) (himp : ∀ a, P a → P' a) : Ensures x P' := by
  obtain ⟨r, hrun, hvalue⟩ := h
  exact ⟨r, hrun, himp _ hvalue⟩

theorem ensures_pure {a : α} (h : P a) : Ensures (pure a) P := ⟨⟨a, []⟩, rfl, h⟩

theorem ensures_report (d : Diagnostic) : Ensures (report d) fun _ => True :=
  ⟨⟨(), [d]⟩, rfl, trivial⟩

theorem ensures_reportIf (condition : Bool) (d : Diagnostic) :
    Ensures (reportIf condition d) fun _ => True := by
  cases condition with
  | false => exact ensures_pure trivial
  | true => exact ensures_report d

theorem ensures_align {t : Except Misalignment Template} {P : Template → Prop}
    (h : ∃ u, t = .ok u ∧ P u) : Ensures (align t) P := by
  obtain ⟨u, rfl, hu⟩ := h
  exact ensures_pure hu

theorem Ensures.bind (hx : Ensures x P) {f : α → Reporting β} (hf : ∀ a, P a → Ensures (f a) Q) :
    Ensures (x >>= f) Q := by
  obtain ⟨r, hrun, hvalue⟩ := hx
  obtain ⟨s, hrun', hvalue'⟩ := hf r.value hvalue
  refine ⟨⟨s.value, r.diagnostics ++ s.diagnostics⟩, ?_, hvalue'⟩
  exact run_bind_eq_ok_iff.2 ⟨r.value, r.diagnostics, s.diagnostics, hrun, hrun', rfl⟩

theorem ensures_mapM {l : List α} {f : α → Reporting β} (h : ∀ a ∈ l, Ensures (f a) Q) :
    Ensures (l.mapM f) fun bs => ∀ b ∈ bs, Q b := by
  induction l with
  | nil =>
    rw [List.mapM_nil]
    exact ensures_pure fun b hb => absurd hb List.not_mem_nil
  | cons a l ih =>
    obtain ⟨ha, hl⟩ := List.forall_mem_cons.1 h
    rw [List.mapM_cons]
    exact ha.bind fun b hb => (ih hl).bind fun bs hbs =>
      ensures_pure (List.forall_mem_cons.2 ⟨hb, hbs⟩)

end Ensures

/-! ## Work that reports errors only -/

/-- All that the work reports are errors. -/
def OnlyErrors (x : Reporting α) : Prop :=
  ∀ r, x.run = .ok r → ∀ d ∈ r.diagnostics, d.isError = true

theorem onlyErrors_pure (a : α) : OnlyErrors (pure a) := by
  rintro r hr d hd
  cases hr
  exact absurd hd List.not_mem_nil

theorem onlyErrors_report {d : Diagnostic} (h : d.isError = true) : OnlyErrors (report d) := by
  rintro r hr e he
  cases hr
  rw [List.mem_singleton.1 he]
  exact h

theorem onlyErrors_reportIf (condition : Bool) {d : Diagnostic} (h : d.isError = true) :
    OnlyErrors (reportIf condition d) := by
  cases condition with
  | false => exact onlyErrors_pure ()
  | true => exact onlyErrors_report h

theorem onlyErrors_stop (fault : Misalignment) : OnlyErrors (stop fault : Reporting α) := by
  rintro r hr
  cases hr

theorem onlyErrors_align (t : Except Misalignment Template) : OnlyErrors (align t) := by
  cases t with
  | error fault => exact onlyErrors_stop fault
  | ok t => exact onlyErrors_pure t

theorem OnlyErrors.bind {x : Reporting α} (hx : OnlyErrors x) {f : α → Reporting β}
    (hf : ∀ a, OnlyErrors (f a)) : OnlyErrors (x >>= f) := by
  rintro r hr d hd
  obtain ⟨a, ds, es, ha, hb, hds⟩ := run_bind_eq_ok_iff.1 hr
  rw [hds] at hd
  rcases List.mem_append.1 hd with hd | hd
  · exact hx _ ha d hd
  · exact hf a _ hb d hd

theorem onlyErrors_mapM {l : List α} {f : α → Reporting β} (h : ∀ a ∈ l, OnlyErrors (f a)) :
    OnlyErrors (l.mapM f) := by
  induction l with
  | nil =>
    rw [List.mapM_nil]
    exact onlyErrors_pure []
  | cons a l ih =>
    obtain ⟨ha, hl⟩ := List.forall_mem_cons.1 h
    rw [List.mapM_cons]
    exact ha.bind fun b => (ih hl).bind fun bs => onlyErrors_pure (b :: bs)

/-! ## Exact reports -/

/-- What work reports, if it is not stopped. -/
def diagnostics (x : Reporting α) : List Diagnostic :=
  match x.run with
  | .ok r => r.diagnostics
  | .error _ => []

/-- Work that is not stopped reports the given diagnostics, and its value satisfies a
condition. -/
def Reports (x : Reporting α) (ds : List Diagnostic) (P : α → Prop) : Prop :=
  ∀ r, x.run = .ok r → r.diagnostics = ds ∧ P r.value

section Reports

variable {P : α → Prop} {Q : β → Prop} {x : Reporting α} {ds es : List Diagnostic}

theorem Reports.congr (h : Reports x ds P) (hds : ds = es) : Reports x es P := hds ▸ h

theorem reports_diagnostics (x : Reporting α) : Reports x x.diagnostics fun _ => True := by
  intro r hr
  rw [diagnostics, hr]
  exact ⟨rfl, trivial⟩

theorem reports_pure {a : α} (h : P a) : Reports (pure a) [] P := by
  rintro r hr
  cases hr
  exact ⟨rfl, h⟩

theorem reports_report (d : Diagnostic) : Reports (report d) [d] fun _ => True := by
  rintro r hr
  cases hr
  exact ⟨rfl, trivial⟩

theorem reports_reportIf {condition : Bool} {p : Prop} [Decidable p] (h : condition = true ↔ p)
    (d : Diagnostic) : Reports (reportIf condition d) (if p then [d] else []) fun _ => True := by
  by_cases hp : p
  · rw [if_pos hp, reportIf, if_pos (h.2 hp)]
    exact reports_report d
  · rw [if_neg hp, reportIf, if_neg (mt h.1 hp)]
    exact reports_pure trivial

/-- Making a template reports nothing, and what goes on is the template that was made. -/
theorem reports_align_eq (t : Except Misalignment Template) :
    Reports (align t) [] fun u => t = .ok u := by
  cases t with
  | error fault => exact fun r hr => absurd hr (by simp [align])
  | ok t => exact reports_pure rfl

theorem reports_align (t : Except Misalignment Template) :
    Reports (align t) [] fun _ => True := fun r hr => ⟨(reports_align_eq t r hr).1, trivial⟩

/-- The reports of two steps follow each other. -/
theorem Reports.bind (hx : Reports x ds P) {f : α → Reporting β}
    (hf : ∀ a, P a → Reports (f a) es Q) : Reports (x >>= f) (ds ++ es) Q := by
  intro r hr
  obtain ⟨a, ds', es', ha, hb, hds⟩ := run_bind_eq_ok_iff.1 hr
  obtain ⟨hfirst, hvalue⟩ := hx _ ha
  obtain ⟨hsecond, hresult⟩ := hf a hvalue _ hb
  exact ⟨by rw [hds, ← hfirst, ← hsecond], hresult⟩

/-- A second step without reports leaves those of the first. -/
theorem Reports.bind_nil (hx : Reports x ds P) {f : α → Reporting β}
    (hf : ∀ a, P a → Reports (f a) [] Q) : Reports (x >>= f) ds Q :=
  (hx.bind hf).congr (List.append_nil ds)

/-- The reports on the elements of a list follow each other. -/
theorem reports_mapM {l : List α} {f : α → Reporting β} {g : α → List Diagnostic}
    (h : ∀ a ∈ l, Reports (f a) (g a) fun _ => True) :
    Reports (l.mapM f) (l.flatMap g) fun _ => True := by
  induction l with
  | nil =>
    rw [List.mapM_nil]
    exact reports_pure trivial
  | cons a l ih =>
    obtain ⟨ha, hl⟩ := List.forall_mem_cons.1 h
    rw [List.mapM_cons, List.flatMap_cons]
    exact ha.bind fun b _ => (ih hl).bind_nil fun bs _ => reports_pure trivial

end Reports

/-! ## Lists -/

/-- What holds of everything that is made from an element holds of a list that is made element
by element. -/
theorem forall_mem_of_forall₂ {R : α → β → Prop} {P : β → Prop} {l : List α} {bs : List β}
    (h : List.Forall₂ R l bs) (hmade : ∀ a b, R a b → P b) : ∀ b ∈ bs, P b :=
  ((List.forall₂_and_left bs l).1 (h.flip.imp fun b a hab => ⟨hmade a b hab, hab⟩)).1

/-- A walk without reports, as the values of its elements. -/
theorem run_mapM_eq_ok_nil_iff {f : α → Reporting β} {l : List α} {bs : List β} :
    (l.mapM f).run = .ok ⟨bs, []⟩ ↔
      List.Forall₂ (fun a b => (f a).run = .ok ⟨b, []⟩) l bs := by
  induction l generalizing bs with
  | nil =>
    rw [List.mapM_nil, run_pure]
    simp [eq_comm]
  | cons a l ih =>
    simp only [List.mapM_cons, run_bind_eq_ok_nil_iff, ih]
    constructor
    · rintro ⟨b, ha, bs, hl, hpure⟩
      cases hpure
      exact .cons ha hl
    · rintro (_ | ⟨ha, hl⟩)
      exact ⟨_, ha, _, hl, rfl⟩

end Reporting

end ImmutableJava
