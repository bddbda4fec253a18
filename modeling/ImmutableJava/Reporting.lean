import ImmutableJava.Diagnostic
import ImmutableJava.Template

/-!
# Work that reports as it goes

Building templates from descriptors, and models from declarations, meets problems
of two natures.  A problem of the declaration is reported and the work continues;
a misaligned template ends the work, and whatever was reported before it is lost.

`Reporting` is that combination: either a misalignment, or a value with the
diagnostics in the order in which they arose.  `run_bind_eq_ok_iff` says that the
reports of consecutive steps are concatenated.
-/

namespace ImmutableJava

/-- A value with its diagnostics, unless a misaligned template stopped the work. -/
structure Reporting (α : Type) where
  /-- The outcome of the work. -/
  run : Except Misalignment (Reported α)

namespace Reporting

variable {α β γ : Type}

/-- Goes on after a step that succeeded, keeping what it reported. -/
def after (r : Reported α) (f : α → Reporting β) : Reporting β :=
  ⟨(f r.value).run.map fun s => ⟨s.value, r.diagnostics ++ s.diagnostics⟩⟩

instance : Monad Reporting where
  pure a := ⟨.ok ⟨a, []⟩⟩
  bind x f :=
    match x.run with
    | .error fault => ⟨.error fault⟩
    | .ok r => after r f

/-- Reports a diagnostic. -/
def report (d : Diagnostic) : Reporting Unit := ⟨.ok ⟨(), [d]⟩⟩

/-- Stops on a misaligned template. -/
def stop (fault : Misalignment) : Reporting α := ⟨.error fault⟩

/-- Makes a template, and stops if it is misaligned. -/
def align (t : Except Misalignment Template) : Reporting Template :=
  match t with
  | .ok template => pure template
  | .error fault => stop fault

/-- Reports a diagnostic if a condition holds. -/
def reportIf (condition : Bool) (d : Diagnostic) : Reporting Unit :=
  if condition then report d else pure ()

@[simp] theorem run_pure (a : α) : (pure a : Reporting α).run = .ok ⟨a, []⟩ := rfl

@[simp] theorem run_report (d : Diagnostic) : (report d).run = .ok ⟨(), [d]⟩ := rfl

@[simp] theorem run_stop (fault : Misalignment) : (stop fault : Reporting α).run = .error fault :=
  rfl

theorem ok_bind (r : Reported α) (f : α → Reporting β) :
    ((⟨.ok r⟩ : Reporting α) >>= f) = after r f := rfl

theorem error_bind (fault : Misalignment) (f : α → Reporting β) :
    ((⟨.error fault⟩ : Reporting α) >>= f) = ⟨.error fault⟩ := rfl

instance : LawfulMonad Reporting :=
  LawfulMonad.mk' Reporting
    (fun x =>
      match x with
      | ⟨.error _⟩ => rfl
      | ⟨.ok r⟩ => by
        change (⟨.ok ⟨r.value, r.diagnostics ++ []⟩⟩ : Reporting _) = ⟨.ok r⟩
        rw [List.append_nil])
    (fun a f => by
      change after ⟨a, []⟩ f = f a
      rw [after]
      rcases h : f a with ⟨_ | s⟩ <;> simp [Except.map])
    (fun x f g =>
      match x with
      | ⟨.error _⟩ => rfl
      | ⟨.ok r⟩ => by
        rw [ok_bind, ok_bind, after, after]
        rcases hf : f r.value with ⟨_ | s⟩
        · simp [Except.map, error_bind]
        · simp only [Except.map, ok_bind, after]
          rcases hg : g s.value with ⟨_ | u⟩ <;> simp)

/-- Two steps succeed together, with the reports of both in order. -/
theorem run_bind_eq_ok_iff {x : Reporting α} {f : α → Reporting β} {r : Reported β} :
    (x >>= f).run = .ok r ↔
      ∃ a ds es, x.run = .ok ⟨a, ds⟩ ∧ (f a).run = .ok ⟨r.value, es⟩ ∧ r.diagnostics = ds ++ es := by
  rcases x with ⟨_ | first⟩
  · simp [error_bind]
  · rw [ok_bind, after]
    rcases hf : (f first.value).run with _ | second
    · simp only [Except.map, reduceCtorEq, false_iff, not_exists, not_and]
      rintro a ds es he hfa
      cases he
      rw [hf] at hfa
      cases hfa
    · simp only [Except.map, Except.ok.injEq]
      constructor
      · rintro rfl
        exact ⟨first.value, first.diagnostics, second.diagnostics, rfl, hf, rfl⟩
      · rintro ⟨a, ds, es, he, hfa, hr⟩
        cases he
        rw [hf] at hfa
        cases hfa
        rw [← hr]

end Reporting

end ImmutableJava
