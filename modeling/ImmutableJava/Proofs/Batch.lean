import ImmutableJava.Proofs.SourcePath
import Mathlib.Data.List.Pairwise

/-!
# Batches and the places of their sources

A batch generates the first declaration of each name.  That no two of its sources are
written to one place is more than that: the place depends on the flattened name of the
interface only, and interfaces of different names can have that in common.  Among
declarations without slashes in their names it is the one way in which sources meet
(`GeneratorOptions.pairwise_relativePath_iff`).

A nested interface is checked against the interfaces that it could run into
(`Declaration.not_mem_immutableTypes_of_generate`).  The check compares its flattened name
with the names of other interfaces as they are, before those are flattened.  So it keeps a
nested interface apart from the top-level ones, which are apart from each other anyway, and
two nested interfaces that flatten to one name pass it
(`GeneratorOptions.pairwise_flattened?_iff_isNested`).
-/

namespace ImmutableJava

open Reporting

/-! ## The declarations of a batch -/

namespace FiledDeclaration

theorem not_mem_of_mem_firstsExcept {names : List String} {ds : List FiledDeclaration}
    {d : Declaration} (h : d ∈ (firstsExcept names ds).value) : d.binaryName ∉ names := by
  induction ds generalizing names with
  | nil => exact absurd h List.not_mem_nil
  | cons e ds ih =>
    rw [firstsExcept] at h
    split at h
    · exact ih h
    · rename_i hnew
      rcases List.mem_cons.1 h with rfl | h
      · exact hnew
      · exact fun hmem => ih h (List.mem_cons_of_mem _ hmem)

theorem pairwise_firstsExcept (names : List String) (ds : List FiledDeclaration) :
    (firstsExcept names ds).value.Pairwise fun d e => d.binaryName ≠ e.binaryName := by
  induction ds generalizing names with
  | nil => exact .nil
  | cons e ds ih =>
    rw [firstsExcept]
    split
    · exact ih names
    · refine .cons (fun d hd heq => ?_) (ih _)
      exact not_mem_of_mem_firstsExcept hd (by rw [heq]; exact List.mem_cons_self)

/-- No two declarations of a batch have the same name. -/
theorem pairwise_firsts (ds : List FiledDeclaration) :
    (firsts ds).value.Pairwise fun d e => d.binaryName ≠ e.binaryName :=
  pairwise_firstsExcept [] ds

end FiledDeclaration

/-! ## The sources of a batch -/

/-- The sources of the declarations that have one, in order. -/
def GeneratorOptions.generated (options : GeneratorOptions) (ds : List Declaration) :
    List GeneratedSource := (options.generateAll ds).filterMap Except.toOption

/-- The declarations that have a source. -/
def GeneratorOptions.accepted (options : GeneratorOptions) (ds : List Declaration) :
    List Declaration := ds.filter fun d => (options.generate d).isOk

theorem Batch.sources_of_ofOutcomes {outcomes : List (Except GenerateError GeneratedSource)}
    {batch : Batch} (h : ofOutcomes outcomes = .ok batch) :
    batch.sources = outcomes.filterMap Except.toOption := by
  induction outcomes generalizing batch with
  | nil =>
    cases h
    rfl
  | cons outcome outcomes ih =>
    cases outcome with
    | ok source =>
      obtain ⟨rest, hrest, hbatch⟩ := bind_eq_ok_iff.1 h
      have hsource : (Except.ok source : Except GenerateError _).toOption = some source := rfl
      rw [← Except.ok.inj hbatch, List.filterMap_cons_some hsource, ← ih hrest]
    | error fault =>
      cases fault with
      | diagnostics sourceName ds =>
        obtain ⟨rest, hrest, hbatch⟩ := bind_eq_ok_iff.1 h
        have hnone : (Except.error (.diagnostics sourceName ds) :
            Except GenerateError GeneratedSource).toOption = none := rfl
        rw [← Except.ok.inj hbatch, List.filterMap_cons_none hnone, ← ih hrest]
      | conflict error => cases h
      | type error => cases h
      | misaligned fault => cases h

/-- A batch that is generated has the sources of its declarations. -/
theorem GeneratorOptions.sources_of_generateBatch {options : GeneratorOptions}
    {ds : List FiledDeclaration} {r : Reported Batch} (h : options.generateBatch ds = .ok r) :
    r.value.sources = options.generated (FiledDeclaration.firsts ds).value := by
  obtain ⟨batch, hbatch, hr⟩ := bind_eq_ok_iff.1 h
  rw [← Except.ok.inj hr]
  exact Batch.sources_of_ofOutcomes hbatch

/-! ## Flattened names -/

/-- A top-level interface keeps its name when it is flattened. -/
theorem BinaryName.qualifiedName_flattened {n : BinaryName} (h : n.isTopLevel = true) :
    n.flattened.qualifiedName = n.qualifiedName := by
  have hflat : n.flatName = n.simpleName := by
    cases n with
    | root s => rfl
    | dotted p s => rfl
    | nested o s => cases h
  rw [flattened, hflat, qualifiedName_topLevelName h]

namespace Declaration

variable {options : GeneratorOptions} {d e : Declaration} {n m : BinaryName}

/-- The top-level name that the declared interface is flattened to. -/
def flattened? (d : Declaration) : Option TopLevelName :=
  (BinaryName.ofText? d.binaryName).map (·.flattened)

/-- Whether the name of the declaration is that of a nested type. -/
def isNested (d : Declaration) : Bool :=
  (BinaryName.ofText? d.binaryName).any fun n => !n.isTopLevel

theorem flattened?_of_ofText (h : BinaryName.ofText d.binaryName = .ok n) :
    d.flattened? = some n.flattened := by
  rw [flattened?, ← BinaryName.ofText_eq_ok_iff.1 h, BinaryName.ofText?_text, Option.map_some]

theorem isNested_of_ofText (h : BinaryName.ofText d.binaryName = .ok n) :
    d.isNested = !n.isTopLevel := by
  rw [isNested, ← BinaryName.ofText_eq_ok_iff.1 h, BinaryName.ofText?_text, Option.any_some]

/-- A nested interface that flattens to the name of an interface to be implemented has no
source. -/
theorem not_mem_immutableTypes_of_generate {source : GeneratedSource}
    (h : options.generate d = .ok source) (hname : BinaryName.ofText d.binaryName = .ok n)
    (hnested : n.isTopLevel = false) : n.flattened.qualifiedName ∉ d.immutableTypes := by
  intro htaken
  obtain ⟨⟨value, ds⟩, hmodelled, hvalue⟩ := bind_eq_ok_iff.1 h
  have himplementation := mapError_eq_ok_iff.1 hmodelled
  cases value with
  | none => cases hvalue
  | some i =>
    obtain ⟨rfl, -, -⟩ := implementation_eq_ok_some_iff.1 himplementation
    have hnone := diagnostics_eq_diagnosis himplementation
    have htype := (List.append_eq_nil_iff.1 hnone.symm).1
    have hkind : d.kind.isInterface = true := by
      by_contra hkind
      rw [typeDiagnosis, if_neg hkind] at htype
      cases htype
    rw [typeDiagnosis, if_pos hkind, ← BinaryName.ofText_eq_ok_iff.1 hname,
      BinaryName.ofText?_text] at htype
    have hnames := (List.append_eq_nil_iff.1 (List.append_eq_nil_iff.1 htype).2).1
    have htakenName := (List.append_eq_nil_iff.1 hnames).1
    rw [Diagnostic.errorIf, if_pos ⟨hnested, htaken⟩] at htakenName
    cases htakenName

end Declaration

namespace GeneratorOptions

variable {options : GeneratorOptions} {d e : Declaration} {s t : GeneratedSource}

/-! ## The places of two sources -/

theorem components_relativePath_eq_iff (hd : options.generate d = .ok s)
    (he : options.generate e = .ok t) (hdslash : '/' ∉ d.binaryName.toList)
    (heslash : '/' ∉ e.binaryName.toList) :
    s.relativePath.components = t.relativePath.components ↔ d.flattened? = e.flattened? := by
  obtain ⟨n, raw, hn, hraw, hs⟩ := exists_of_generate_eq_ok hd
  obtain ⟨m, other, hm, hother, ht⟩ := exists_of_generate_eq_ok he
  rw [← BinaryName.ofText_eq_ok_iff.1 hn] at hdslash
  rw [← BinaryName.ofText_eq_ok_iff.1 hm] at heslash
  rw [hs, ht, BinaryName.components_sourcePath_eq_iff hdslash heslash hraw hother,
    Declaration.flattened?_of_ofText hn, Declaration.flattened?_of_ofText hm, Option.some_inj]

theorem components_outputPath (hd : options.generate d = .ok s)
    (hslash : '/' ∉ d.binaryName.toList) (outDir : Path) :
    (Run.outputPath outDir s).components = outDir.components ++ s.relativePath.components := by
  obtain ⟨n, raw, hn, hraw, hs⟩ := exists_of_generate_eq_ok hd
  rw [← BinaryName.ofText_eq_ok_iff.1 hn] at hslash
  rw [Run.outputPath, hs]
  exact Path.components_join outDir (BinaryName.isPlain_sourcePath hraw.head?_fileName
    (hraw.head?_ne_slash_of_mem_cut_packageName hslash))

/-! ## The places of the sources of a batch -/

/-- What holds of any two sources, from what holds of the declarations that have them. -/
theorem pairwise_generated_iff {ds : List Declaration}
    {R : GeneratedSource → GeneratedSource → Prop} {S : Declaration → Declaration → Prop}
    (h : ∀ d ∈ ds, ∀ e ∈ ds, ∀ s t, options.generate d = .ok s → options.generate e = .ok t →
      (R s t ↔ S d e)) :
    (options.generated ds).Pairwise R ↔ (options.accepted ds).Pairwise S := by
  rw [generated, generateAll, List.filterMap_map, List.pairwise_filterMap, accepted,
    List.pairwise_filter]
  refine List.Pairwise.iff_of_mem fun {d e} hd he => ?_
  constructor
  · intro hsources hdok heok
    obtain ⟨s, hs⟩ := isOk_iff.1 hdok
    obtain ⟨t, ht⟩ := isOk_iff.1 heok
    exact (h d hd e he s t hs ht).1
      (hsources s (toOption_eq_some_iff.2 hs) t (toOption_eq_some_iff.2 ht))
  · intro hdeclarations s hs t ht
    have hsource := toOption_eq_some_iff.1 hs
    have htarget := toOption_eq_some_iff.1 ht
    exact (h d hd e he s t hsource htarget).2
      (hdeclarations (isOk_iff.2 ⟨s, hsource⟩) (isOk_iff.2 ⟨t, htarget⟩))

/-- Among declarations without slashes in their names, no two sources of a batch have one
place exactly when no two of the interfaces that have a source are flattened to one name.
The same holds of the paths at which the sources are written. -/
theorem pairwise_relativePath_iff (options : GeneratorOptions) (ds : List FiledDeclaration)
    (hslash : ∀ d ∈ (FiledDeclaration.firsts ds).value, '/' ∉ d.binaryName.toList) :
    ((options.generated (FiledDeclaration.firsts ds).value).Pairwise
        (fun s t => s.relativePath.components ≠ t.relativePath.components) ↔
      (options.accepted (FiledDeclaration.firsts ds).value).Pairwise
        fun d e => d.flattened? ≠ e.flattened?) ∧
    ∀ outDir,
      ((options.generated (FiledDeclaration.firsts ds).value).Pairwise
          (fun s t => (Run.outputPath outDir s).components ≠ (Run.outputPath outDir t).components) ↔
        (options.accepted (FiledDeclaration.firsts ds).value).Pairwise
          fun d e => d.flattened? ≠ e.flattened?) := by
  have hrelative : ∀ d ∈ (FiledDeclaration.firsts ds).value,
      ∀ e ∈ (FiledDeclaration.firsts ds).value, ∀ s t, options.generate d = .ok s →
      options.generate e = .ok t →
      (s.relativePath.components ≠ t.relativePath.components ↔ d.flattened? ≠ e.flattened?) :=
    fun d hd e he s t hs ht =>
      not_congr (components_relativePath_eq_iff hs ht (hslash d hd) (hslash e he))
  refine ⟨pairwise_generated_iff hrelative, fun outDir => pairwise_generated_iff ?_⟩
  intro d hd e he s t hs ht
  rw [components_outputPath hs (hslash d hd), components_outputPath ht (hslash e he), Ne,
    List.append_cancel_left_eq]
  exact hrelative d hd e he s t hs ht

/-- An interface that is declared twice, one that is nested in it, and a private one that has
no source. -/
theorem pairwise_relativePath_iff_redeclared :
    ∃ ds : List FiledDeclaration,
      ds = [⟨⟨"a.json"⟩, .ofName "test.Outer$Box"⟩, ⟨⟨"b.json"⟩, .ofName "test.Outer$Box"⟩,
        ⟨⟨"b.json"⟩, .ofName "test.Outer$Box$Item"⟩,
        ⟨⟨"b.json"⟩, { Declaration.ofName "test.Outer_Box" with isPrivate := true }⟩] ∧
      (GeneratorOptions.standard.generated (FiledDeclaration.firsts ds).value).length = 2 ∧
      (GeneratorOptions.standard.generated (FiledDeclaration.firsts ds).value).Pairwise
        fun s t => s.relativePath.components ≠ t.relativePath.components := by
  refine ⟨_, rfl, by decide +kernel, ?_⟩
  exact (pairwise_relativePath_iff .standard _ (by decide +kernel)).1.2 (by decide +kernel)

/-- Two nested interfaces that are flattened to one name.  Each is told of the other, and
neither is refused. -/
theorem not_pairwise_relativePath_nested :
    ∃ ds : List FiledDeclaration,
      ds = ["x.A$B_C", "x.A_B$C"].map (fun name =>
        ⟨⟨"a.json"⟩, { Declaration.ofName name with
          immutableTypes := SortedSet.ofList ["x.A.B_C", "x.A_B.C"] }⟩) ∧
      (FiledDeclaration.firsts ds).diagnostics = [] ∧
      (GeneratorOptions.standard.generated (FiledDeclaration.firsts ds).value).map
          (·.relativePath) = [⟨"x/ImmutableA_B_C.java"⟩, ⟨"x/ImmutableA_B_C.java"⟩] ∧
      ¬ (GeneratorOptions.standard.generated (FiledDeclaration.firsts ds).value).Pairwise
        fun s t => s.relativePath.components ≠ t.relativePath.components := by
  refine ⟨_, rfl, by decide +kernel, by decide +kernel, ?_⟩
  decide +kernel

/-! ## What the check of nested interfaces keeps apart -/

/-- Declarations with a source have names, and these are flattened alike if the declarations
are. -/
theorem exists_flattened_eq (hd : options.generate d = .ok s) (he : options.generate e = .ok t)
    (h : d.flattened? = e.flattened?) :
    ∃ n m, BinaryName.ofText d.binaryName = .ok n ∧ BinaryName.ofText e.binaryName = .ok m ∧
      n.flattened = m.flattened := by
  obtain ⟨n, -, hn, -, -⟩ := exists_of_generate_eq_ok hd
  obtain ⟨m, -, hm, -, -⟩ := exists_of_generate_eq_ok he
  rw [Declaration.flattened?_of_ofText hn, Declaration.flattened?_of_ofText hm,
    Option.some_inj] at h
  exact ⟨n, m, hn, hm, h⟩

/-- A nested interface is flattened to the name of no top-level interface that its
declaration is told of. -/
theorem isNested_of_flattened?_eq (hd : options.generate d = .ok s)
    (he : options.generate e = .ok t) (hnested : d.isNested = true)
    (htold : ∀ n, BinaryName.ofText e.binaryName = .ok n → n.isTopLevel = true →
      n.qualifiedName ∈ d.immutableTypes)
    (h : d.flattened? = e.flattened?) : e.isNested = true := by
  obtain ⟨n, m, hn, hm, hflat⟩ := exists_flattened_eq hd he h
  rw [Declaration.isNested_of_ofText hn, Bool.not_eq_true'] at hnested
  rw [Declaration.isNested_of_ofText hm, Bool.not_eq_true']
  by_contra htop
  rw [Bool.not_eq_false] at htop
  apply Declaration.not_mem_immutableTypes_of_generate hd hn hnested
  rw [hflat, BinaryName.qualifiedName_flattened htop]
  exact htold m hm htop

/-- Top-level interfaces that are flattened to one name have one name. -/
theorem binaryName_eq_of_flattened?_eq (hd : options.generate d = .ok s)
    (he : options.generate e = .ok t) (hdtop : d.isNested = false) (hetop : e.isNested = false)
    (h : d.flattened? = e.flattened?) : d.binaryName = e.binaryName := by
  obtain ⟨n, m, hn, hm, hflat⟩ := exists_flattened_eq hd he h
  rw [Declaration.isNested_of_ofText hn, Bool.not_eq_false'] at hdtop
  rw [Declaration.isNested_of_ofText hm, Bool.not_eq_false'] at hetop
  have hqualified : n.qualifiedName = m.qualifiedName := by
    rw [← BinaryName.qualifiedName_flattened hdtop, hflat, BinaryName.qualifiedName_flattened hetop]
  rw [← BinaryName.ofText_eq_ok_iff.1 hn, ← BinaryName.ofText_eq_ok_iff.1 hm,
    BinaryName.eq_of_qualifiedName_eq hdtop hetop hqualified]

/-- Where every declaration of a batch is told of the top-level interfaces in the batch, two
interfaces that have a source are flattened to one name only if both of them are nested. -/
theorem pairwise_flattened?_iff_isNested (options : GeneratorOptions) (ds : List FiledDeclaration)
    (htold : ∀ d ∈ (FiledDeclaration.firsts ds).value, ∀ e ∈ (FiledDeclaration.firsts ds).value,
      ∀ n, BinaryName.ofText e.binaryName = .ok n → n.isTopLevel = true →
        n.qualifiedName ∈ d.immutableTypes) :
    (options.accepted (FiledDeclaration.firsts ds).value).Pairwise
        (fun d e => d.flattened? ≠ e.flattened?) ↔
      ((options.accepted (FiledDeclaration.firsts ds).value).filter (·.isNested)).Pairwise
        fun d e => d.flattened? ≠ e.flattened? := by
  rw [accepted, List.filter_filter, List.pairwise_filter, List.pairwise_filter]
  constructor
  · intro h
    refine h.imp fun hde hd he => ?_
    rw [Bool.and_eq_true] at hd he
    exact hde hd.2 he.2
  · intro h
    refine ((FiledDeclaration.pairwise_firsts ds).and h).imp_of_mem ?_
    rintro d e hd he ⟨hname, hnested⟩ hdok heok hflat
    obtain ⟨s, hs⟩ := isOk_iff.1 hdok
    obtain ⟨t, ht⟩ := isOk_iff.1 heok
    by_cases hdnested : d.isNested = true
    · have henested := isNested_of_flattened?_eq hs ht hdnested (htold d hd e he) hflat
      exact hnested (by rw [hdok, hdnested]; rfl) (by rw [heok, henested]; rfl) hflat
    · by_cases henested : e.isNested = true
      · exact hdnested (isNested_of_flattened?_eq ht hs henested (htold e he d hd) hflat.symm)
      · rw [Bool.not_eq_true] at hdnested henested
        exact hname (binaryName_eq_of_flattened?_eq hs ht hdnested henested hflat)

end GeneratorOptions

end ImmutableJava
