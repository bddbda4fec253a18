/-!
# Diagnostics

A diagnostic is a problem of one declaration: it is recorded and the work goes on,
so that one pass over a declaration finds all of its problems.  An error keeps the
declaration from being generated; a warning does not.

`Reported` pairs a value with what was reported while it was made, and
`DiagnosticBag` collects the reports of a pass.
-/

namespace ImmutableJava

/-- How grave a diagnostic is. -/
inductive Severity where
  /-- The declaration cannot be generated. -/
  | error
  /-- Worth saying, without effect on the outcome. -/
  | warning
  deriving DecidableEq, Repr

/-- The word for a severity. -/
def Severity.label : Severity → String
  | error => "error"
  | warning => "warning"

/-- One message, with the element of a declaration that it is about. -/
structure Diagnostic where
  /-- How grave it is. -/
  severity : Severity
  /-- What is wrong. -/
  message : String
  /-- The element at fault, such as `test.Rectangle#width`, where one is known. -/
  element? : Option String
  deriving DecidableEq, Repr

namespace Diagnostic

/-- An error about an element. -/
def error (message : String) (element? : Option String) : Diagnostic :=
  ⟨.error, message, element?⟩

/-- A warning about an element. -/
def warning (message : String) (element? : Option String) : Diagnostic :=
  ⟨.warning, message, element?⟩

/-- Whether the diagnostic is an error. -/
def isError (d : Diagnostic) : Bool := d.severity = .error

@[simp] theorem isError_error (message : String) (element? : Option String) :
    (error message element?).isError = true := rfl

@[simp] theorem isError_warning (message : String) (element? : Option String) :
    (warning message element?).isError = false := rfl

/-- The diagnostic on one line: severity, message, and the element in parentheses. -/
def display (d : Diagnostic) : String :=
  match d.element? with
  | some element => d.severity.label ++ ": " ++ d.message ++ " (" ++ element ++ ")"
  | none => d.severity.label ++ ": " ++ d.message

end Diagnostic

/-- A value with the diagnostics reported while it was made. -/
structure Reported (α : Type) where
  /-- The value. -/
  value : α
  /-- The reports, in the order in which they were made. -/
  diagnostics : List Diagnostic
  deriving DecidableEq, Repr

/-- Whether an error was reported. -/
def Reported.hasErrors {α : Type} (r : Reported α) : Bool := r.diagnostics.any (·.isError)

/-! ## Collecting -/

/-- The diagnostics of one pass, oldest first, with a count of the errors that is kept
along the way. -/
structure DiagnosticBag where
  /-- The diagnostics collected so far. -/
  diagnostics : List Diagnostic := []
  /-- The number of errors among them. -/
  errorCount : Nat := 0
  /-- No error is left uncounted, and no warning is counted. -/
  errorCount_eq : errorCount = diagnostics.countP (·.isError) := by rfl
  deriving DecidableEq, Repr

namespace DiagnosticBag

/-- Adds a diagnostic at the end, and counts it if it is an error. -/
def push (bag : DiagnosticBag) (d : Diagnostic) : DiagnosticBag where
  diagnostics := bag.diagnostics ++ [d]
  errorCount := if d.isError then bag.errorCount + 1 else bag.errorCount
  errorCount_eq := by
    rw [List.countP_append, List.countP_singleton, bag.errorCount_eq]
    split <;> rfl

/-- Adds diagnostics in order. -/
def extend (bag : DiagnosticBag) (ds : List Diagnostic) : DiagnosticBag :=
  ds.foldl push bag

/-- Takes the value out of a nested pass and keeps what that pass reported. -/
def absorb {α : Type} (bag : DiagnosticBag) (r : Reported α) : α × DiagnosticBag :=
  (r.value, bag.extend r.diagnostics)

/-- The number of diagnostics. -/
def size (bag : DiagnosticBag) : Nat := bag.diagnostics.length

/-- Whether an error was collected. -/
def hasErrors (bag : DiagnosticBag) : Bool := 0 < bag.errorCount

/-- Ends the pass with a value. -/
def finish {α : Type} (bag : DiagnosticBag) (value : α) : Reported α := ⟨value, bag.diagnostics⟩

@[simp] theorem diagnostics_push (bag : DiagnosticBag) (d : Diagnostic) :
    (bag.push d).diagnostics = bag.diagnostics ++ [d] := rfl

@[simp] theorem diagnostics_extend (bag : DiagnosticBag) (ds : List Diagnostic) :
    (bag.extend ds).diagnostics = bag.diagnostics ++ ds := by
  induction ds generalizing bag with
  | nil => simp [extend]
  | cons d ds ih =>
    have := ih (bag.push d)
    simpa [extend] using this

/-- The finished pass has errors exactly when the bag counted one. -/
theorem hasErrors_finish {α : Type} (bag : DiagnosticBag) (value : α) :
    (bag.finish value).hasErrors = bag.hasErrors := by
  rw [Bool.eq_iff_iff]
  simp [finish, Reported.hasErrors, hasErrors, errorCount_eq, List.countP_pos_iff]

end DiagnosticBag

end ImmutableJava
