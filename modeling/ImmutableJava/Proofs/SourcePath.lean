import ImmutableJava.Proofs.Diagnosis
import ImmutableJava.Proofs.Path
import ImmutableJava.Run

/-!
# Where sources are written

The path of a source is put together from the segments of the package and the simple name
of the class.  A segment has no dot in it, so it cannot lead to the directory above, and the
file name ends in `.java`.  The one thing that can go wrong is a slash at the start of a
segment: such a segment is a path from the root and replaces everything before it, the
output directory included.

So the source of a declaration stays below every output directory exactly when no segment
of the package starts with a slash (`GeneratorOptions.isBelow_outputPath_iff`).

## What the path depends on

The class of a generated source lies in the package of the interface, and its simple name
is made from the flattened name (`GeneratorOptions.exists_of_generate_eq_ok`).  Nothing else
of a declaration has an influence on the path.  Where the name of the interface has no slash
the path also gives the flattened name back (`BinaryName.components_sourcePath_eq_iff`).
-/

namespace ImmutableJava

open Reporting

theorem Segment.cut_text (s : Segment) : Pieces.cut '.' s.text = [s.text] := by
  rw [Pieces.cut, Pieces.cutChars_of_not_mem fun c hc => (s.not_separator c hc).1]
  simp

namespace BinaryName

variable {n m raw other : BinaryName}

/-! ## The directories and the file -/

/-- The texts that are joined for the directories of a package. -/
def packageDirectories (n : BinaryName) : List String :=
  (Pieces.cut '.' n.packageName).filter (· ≠ "")

/-- The name of the source file of a class. -/
def fileName (n : BinaryName) : String := n.simpleName ++ ".java"

theorem sourcePath_eq (n : BinaryName) :
    n.sourcePath = (n.packageDirectories.foldl Path.join ⟨""⟩).join n.fileName := rfl

theorem mem_packageDirectories_iff {directory : String} :
    directory ∈ n.packageDirectories ↔
      directory ∈ Pieces.cut '.' n.packageName ∧ directory ≠ "" := by
  rw [packageDirectories, List.mem_filter, decide_eq_true_iff]

theorem ne_dot_of_mem_packageDirectories {directory : String}
    (h : directory ∈ n.packageDirectories) : ∀ c ∈ directory.toList, c ≠ '.' := fun c hc =>
  (Pieces.mem_of_mem_cut (mem_packageDirectories_iff.1 h).1 c hc).2

theorem ne_slash_of_mem_ending : ∀ c ∈ ".java".toList, c ≠ '/' := by simp

theorem isPlain_fileName (hfile : n.fileName.toList.head? ≠ some '/') :
    (Path.mk n.fileName).IsPlain :=
  Path.isPlain_append ne_slash_of_mem_ending (by decide) hfile n.ne_dot_of_mem_simpleName

theorem components_fileName_ne_nil (n : BinaryName) : (Path.mk n.fileName).components ≠ [] := by
  obtain ⟨first, last, -, hcut⟩ := Pieces.cut_append_of_not_mem ne_slash_of_mem_ending n.simpleName
  have hmem : last ++ ".java" ∈ Pieces.cut '/' n.fileName := by
    rw [fileName, hcut]
    exact List.mem_append_right _ List.mem_cons_self
  have hlength : 1 < (last ++ ".java").toList.length := by
    rw [String.toList_append, List.length_append]
    exact Nat.lt_add_left _ (by decide)
  refine Path.components_ne_nil hmem ?_ ?_
  · intro hempty
    rw [hempty] at hlength
    exact absurd hlength (by decide)
  · intro hcurrent
    rw [hcurrent] at hlength
    exact absurd hlength (by decide)

/-! ## The path of a source -/

/-- The path of a source starts at the root if a segment of the package starts there. -/
theorem isAbsolute_sourcePath_iff (hfile : n.fileName.toList.head? ≠ some '/') :
    n.sourcePath.isAbsolute = true ↔
      ∃ segment ∈ Pieces.cut '.' n.packageName, segment.toList.head? = some '/' := by
  have hrelative : (Path.mk n.fileName).isAbsolute = false := by
    simpa [Path.isAbsolute] using hfile
  have hstart : (Path.mk "").isAbsolute = false := rfl
  rw [sourcePath_eq, Path.isAbsolute_join, Path.isAbsolute_foldl_join, hrelative, hstart,
    Bool.or_false, Bool.false_or, List.any_eq_true]
  constructor
  · rintro ⟨directory, hdirectory, habsolute⟩
    exact ⟨directory, (mem_packageDirectories_iff.1 hdirectory).1,
      by simpa [Path.isAbsolute] using habsolute⟩
  · rintro ⟨segment, hsegment, hhead⟩
    have hne : segment ≠ "" := by
      rintro rfl
      cases hhead
    exact ⟨segment, mem_packageDirectories_iff.2 ⟨hsegment, hne⟩,
      by simpa [Path.isAbsolute] using hhead⟩

section Relative

variable (hfile : n.fileName.toList.head? ≠ some '/')
  (hpackage : ∀ segment ∈ Pieces.cut '.' n.packageName, segment.toList.head? ≠ some '/')

include hpackage in
theorem isPlain_of_mem_packageDirectories {directory : String}
    (h : directory ∈ n.packageDirectories) : (Path.mk directory).IsPlain :=
  Path.isPlain_of_ne_dot (hpackage directory (mem_packageDirectories_iff.1 h).1)
    (ne_dot_of_mem_packageDirectories h)

include hfile hpackage

/-- The steps of the path of a source are those of the segments and of the file name. -/
theorem components_sourcePath :
    n.sourcePath.components =
      (n.packageDirectories.flatMap fun directory => (Path.mk directory).components) ++
        (Path.mk n.fileName).components := by
  rw [sourcePath_eq, Path.components_join _ (isPlain_fileName hfile),
    Path.components_foldl_join _ fun _ => isPlain_of_mem_packageDirectories hpackage]
  rfl

/-- The path of a source leads down from one named entry to the next. -/
theorem isPlain_sourcePath : n.sourcePath.IsPlain := by
  intro c hc
  rw [components_sourcePath hfile hpackage] at hc
  rcases List.mem_append.1 hc with hc | hc
  · obtain ⟨directory, hdirectory, hc⟩ := List.mem_flatMap.1 hc
    exact isPlain_of_mem_packageDirectories hpackage hdirectory c hc
  · exact isPlain_fileName hfile c hc

theorem components_sourcePath_ne_nil : n.sourcePath.components ≠ [] := by
  rw [components_sourcePath hfile hpackage]
  exact List.append_ne_nil_of_right_ne_nil _ n.components_fileName_ne_nil

end Relative

/-! ## The source of an implementing class -/

/-- A class with the package and the simple name of the class that implements an interface. -/
structure IsImplementationOf (raw n : BinaryName) : Prop where
  /-- The class lies in the package of the interface. -/
  packageName_eq : raw.packageName = n.packageName
  /-- The class is named after the flattened interface. -/
  simpleName_eq : raw.simpleName = "Immutable" ++ n.flatName

namespace IsImplementationOf

theorem fileName_eq (h : raw.IsImplementationOf n) :
    raw.fileName = "Immutable" ++ n.flatName ++ ".java" := by
  rw [fileName, h.simpleName_eq]

theorem head?_fileName (h : raw.IsImplementationOf n) :
    raw.fileName.toList.head? ≠ some '/' := by
  rw [h.fileName_eq, String.append_assoc, String.toList_append,
    List.head?_append_of_ne_nil _ (by decide)]
  decide

end IsImplementationOf

/-! ## Names without slashes -/

theorem mem_text_dotted {p : BinaryName} {s : Segment} {c : Char} :
    c ∈ (dotted p s).text.toList ↔ c ∈ p.text.toList ∨ c = '.' ∨ c ∈ s.text.toList := by
  simp [text]

theorem mem_text_nested {o : BinaryName} {s : Segment} {c : Char} :
    c ∈ (nested o s).text.toList ↔ c ∈ o.text.toList ∨ c = '$' ∨ c ∈ s.text.toList := by
  simp [text]

theorem mem_text_of_mem_segments {segment : String} (h : segment ∈ n.segments) :
    ∀ c ∈ segment.toList, c ∈ n.text.toList := by
  intro c hc
  induction n with
  | root s =>
    rw [List.mem_singleton.1 h] at hc
    exact hc
  | dotted p s ih =>
    rw [mem_text_dotted]
    rcases List.mem_append.1 h with h | h
    · exact .inl (ih h)
    · rw [List.mem_singleton.1 h] at hc
      exact .inr (.inr hc)
  | nested o s ih =>
    rw [mem_text_nested]
    rcases List.mem_append.1 h with h | h
    · exact .inl (ih h)
    · rw [List.mem_singleton.1 h] at hc
      exact .inr (.inr hc)

theorem mem_text_of_mem_packageName : ∀ c ∈ n.packageName.toList, c ∈ n.text.toList := by
  intro c hc
  induction n with
  | root s => exact absurd hc List.not_mem_nil
  | dotted p s => exact mem_text_dotted.2 (.inl hc)
  | nested o s ih => exact mem_text_nested.2 (.inl (ih hc))

/-- A name has something between any two of its dots. -/
theorem ne_empty_of_mem_cut_text {piece : String} (h : piece ∈ Pieces.cut '.' n.text) :
    piece ≠ "" := by
  induction n generalizing piece with
  | root s =>
    rw [text, s.cut_text] at h
    rw [List.mem_singleton.1 h]
    exact s.text_ne_empty
  | dotted p s ih =>
    rw [text, show "." = String.singleton '.' from rfl, Pieces.cut_append_singleton,
      s.cut_text] at h
    rcases List.mem_append.1 h with h | h
    · exact ih h
    · rw [List.mem_singleton.1 h]
      exact s.text_ne_empty
  | nested o s ih =>
    -- the dollar sign and the segment go to the last piece of the outer name
    have hdot : ∀ c ∈ ("$" ++ s.text).toList, c ≠ '.' := by
      intro c hc
      rw [String.toList_append] at hc
      rcases List.mem_append.1 hc with hc | hc
      · rw [List.mem_singleton.1 hc]
        decide
      · exact (s.not_separator c hc).1
    obtain ⟨first, last, hcut, hcut'⟩ := Pieces.cut_append_of_not_mem hdot o.text
    rw [text, String.append_assoc, hcut'] at h
    rcases List.mem_append.1 h with h | h
    · exact ih (by rw [hcut]; exact List.mem_append_left _ h)
    · rw [List.mem_singleton.1 h]
      intro hempty
      have hlength := congrArg (fun t => t.toList.length) hempty
      simp at hlength

/-- No text that is joined for the directories of a package is left out. -/
theorem packageDirectories_eq (n : BinaryName) :
    n.packageDirectories = ImportTrie.packagePath n.packageName := by
  rcases n.packageName_eq_or with hunnamed | ⟨p, hp⟩
  · rw [packageDirectories, hunnamed]
    rfl
  · rw [packageDirectories, ImportTrie.packagePath, hp, if_neg p.text_ne_empty,
      List.filter_eq_self]
    intro piece hpiece
    exact decide_eq_true (ne_empty_of_mem_cut_text hpiece)

section NoSlash

variable (hslash : '/' ∉ n.text.toList)

include hslash

theorem ne_slash_of_mem_flatName : ∀ c ∈ n.flatName.toList, c ≠ '/' := by
  rintro c hc rfl
  rcases Pieces.mem_intercalate hc with hunderscore | ⟨segment, hsegment, hc⟩
  · exact absurd hunderscore (by decide)
  · exact hslash (mem_text_of_mem_segments (n.classSegments_subset_segments hsegment) '/' hc)

theorem ne_slash_of_mem_cut_packageName {segment : String}
    (h : segment ∈ Pieces.cut '.' n.packageName) : ∀ c ∈ segment.toList, c ≠ '/' := by
  rintro c hc rfl
  exact hslash (mem_text_of_mem_packageName '/' (Pieces.mem_of_mem_cut h '/' hc).1)

namespace IsImplementationOf

variable (h : raw.IsImplementationOf n)

include h

theorem ne_slash_of_mem_fileName : ∀ c ∈ raw.fileName.toList, c ≠ '/' := by
  have hletters : ∀ c ∈ "Immutable".toList, c ≠ '/' := by simp
  intro c hc
  rw [h.fileName_eq, String.toList_append, String.toList_append] at hc
  rcases List.mem_append.1 hc with hc | hc
  · rcases List.mem_append.1 hc with hc | hc
    · exact hletters c hc
    · exact ne_slash_of_mem_flatName hslash c hc
  · exact ne_slash_of_mem_ending c hc

theorem head?_ne_slash_of_mem_cut_packageName :
    ∀ segment ∈ Pieces.cut '.' raw.packageName, segment.toList.head? ≠ some '/' := by
  intro segment hsegment hhead
  rw [h.packageName_eq] at hsegment
  exact ne_slash_of_mem_cut_packageName hslash hsegment '/' (List.mem_of_mem_head? hhead) rfl

/-- There is a directory for each segment of the package, and the file in the last one. -/
theorem components_sourcePath_eq :
    raw.sourcePath.components = (ImportTrie.packagePath n.packageName).map Path.Component.normal ++
      [.normal ("Immutable" ++ n.flatName ++ ".java")] := by
  have hdirectory : ∀ directory ∈ raw.packageDirectories,
      (Path.mk directory).components = [.normal directory] := by
    intro directory hdirectory
    obtain ⟨hsegment, hempty⟩ := mem_packageDirectories_iff.1 hdirectory
    have hdot := ne_dot_of_mem_packageDirectories hdirectory
    rw [h.packageName_eq] at hsegment
    refine Path.components_of_ne_slash (ne_slash_of_mem_cut_packageName hslash hsegment)
      ⟨hempty, ?_, ?_⟩
    · rintro rfl
      exact hdot '.' (by decide) rfl
    · rintro rfl
      exact hdot '.' (by decide) rfl
  have hfile : (Path.mk raw.fileName).components = [.normal raw.fileName] := by
    have hlong : 2 < raw.fileName.toList.length := by
      rw [h.fileName_eq, String.toList_append, List.length_append]
      exact Nat.lt_add_left _ (by decide)
    refine Path.components_of_ne_slash (ne_slash_of_mem_fileName hslash h) ⟨?_, ?_, ?_⟩
    all_goals
      intro hshort
      rw [hshort] at hlong
      exact absurd hlong (by decide)
  rw [components_sourcePath h.head?_fileName (head?_ne_slash_of_mem_cut_packageName hslash h),
    hfile, h.fileName_eq, ← h.packageName_eq, ← packageDirectories_eq,
    List.flatMap_congr hdirectory, List.map_eq_flatMap]

end IsImplementationOf

end NoSlash

/-- Interfaces have the path of their sources in common exactly when they have the flattened
name in common. -/
theorem components_sourcePath_eq_iff (hn : '/' ∉ n.text.toList) (hm : '/' ∉ m.text.toList)
    (hraw : raw.IsImplementationOf n) (hother : other.IsImplementationOf m) :
    raw.sourcePath.components = other.sourcePath.components ↔ n.flattened = m.flattened := by
  rw [hraw.components_sourcePath_eq hn, hother.components_sourcePath_eq hm]
  constructor
  · intro h
    obtain ⟨hpackage, hfile⟩ := List.append_inj' h rfl
    have hnames := (List.map_inj_right fun _ _ => Path.Component.normal.inj).1 hpackage
    have hfiles := Path.Component.normal.inj (List.cons.inj hfile).1
    rw [String.append_left_inj, String.append_right_inj] at hfiles
    rw [flattened, flattened, ImportTrie.packagePath_injective hnames, hfiles]
  · intro h
    obtain ⟨hpackage, hflat⟩ := TopLevelName.mk.inj h
    rw [hpackage, hflat]

end BinaryName

namespace GeneratorOptions

variable {options : GeneratorOptions} {d : Declaration} {source : GeneratedSource}

/-- A generated source has the path of the class that implements the declared interface. -/
theorem exists_of_generate_eq_ok (h : options.generate d = .ok source) :
    ∃ n raw : BinaryName, BinaryName.ofText d.binaryName = .ok n ∧ raw.IsImplementationOf n ∧
      source.relativePath = raw.sourcePath := by
  obtain ⟨⟨value, ds⟩, hmodelled, hvalue⟩ := bind_eq_ok_iff.1 h
  have himplementation := mapError_eq_ok_iff.1 hmodelled
  cases value with
  | none => cases hvalue
  | some i =>
    obtain ⟨text, -, hsource⟩ := bind_eq_ok_iff.1 hvalue
    obtain ⟨-, htype, -⟩ := Declaration.implementation_eq_ok_some_iff.1 himplementation
    obtain ⟨n, raw, type, hi, hname, hraw, hmade⟩ :=
      Declaration.run_immutableType?_eq_ok_nil htype
    obtain ⟨-, -, -, -, -, -, hrawType, -⟩ := Declaration.run_immutableType_eq_ok_nil hmade
    obtain rfl := Option.some.inj hi
    obtain ⟨raw', hraw', hpackage, hsimple⟩ := n.exists_toBinaryName_implementationName
    obtain rfl : raw = raw' := Except.ok.inj (hraw.symm.trans hraw')
    refine ⟨n, raw, hname, ⟨hpackage, hsimple⟩, ?_⟩
    rw [← Except.ok.inj hsource, hrawType]

/-- The source of a declaration is written below every output directory exactly when no
segment of the package starts with a slash. -/
theorem isBelow_outputPath_iff (options : GeneratorOptions) (d : Declaration)
    (source : GeneratedSource) (h : options.generate d = .ok source) :
    ∃ n, BinaryName.ofText d.binaryName = .ok n ∧
      ((∀ outDir, (Run.outputPath outDir source).IsBelow outDir) ↔
        ∀ segment ∈ Pieces.cut '.' n.packageName, segment.toList.head? ≠ some '/') := by
  obtain ⟨n, raw, hname, hraw, hpath⟩ := exists_of_generate_eq_ok h
  refine ⟨n, hname, ?_⟩
  rw [← hraw.packageName_eq]
  constructor
  · intro hbelow segment hsegment hhead
    have habsolute : raw.sourcePath.isAbsolute = true :=
      (BinaryName.isAbsolute_sourcePath_iff hraw.head?_fileName).2 ⟨segment, hsegment, hhead⟩
    -- a path from the root is not below any relative directory
    have hout : Run.outputPath ⟨"out"⟩ source = raw.sourcePath := by
      rw [Run.outputPath, hpath, Path.join_of_isAbsolute _ habsolute]
    have hcomponents : (Path.mk "out").components = [.normal "out"] := rfl
    have hnot := Path.not_isBelow_of_isAbsolute habsolute hcomponents
    rw [← hout] at hnot
    exact hnot (hbelow ⟨"out"⟩)
  · intro hrelative outDir
    rw [Run.outputPath, hpath]
    exact Path.isBelow_join outDir (BinaryName.isPlain_sourcePath hraw.head?_fileName hrelative)
      (BinaryName.components_sourcePath_ne_nil hraw.head?_fileName hrelative)

/-- What is generated, from the path of the source. -/
theorem exists_of_map_relativePath (options : GeneratorOptions) (d : Declaration) (path : Path)
    (h : (options.generate d).toOption.map (·.relativePath) = some path) :
    ∃ source, options.generate d = .ok source ∧ source.relativePath = path := by
  obtain ⟨source, hsource, hpath⟩ := Option.map_eq_some_iff.1 h
  exact ⟨source, toOption_eq_some_iff.1 hsource, hpath⟩

/-- A nested interface of a named package. -/
theorem isBelow_outputPath_iff_nested :
    ∃ source, GeneratorOptions.standard.generate (Declaration.ofName "test.Outer$Box") =
        .ok source ∧
      source.relativePath = ⟨"test/ImmutableOuter_Box.java"⟩ ∧
      ∀ outDir, (Run.outputPath outDir source).IsBelow outDir := by
  obtain ⟨source, hsource, hpath⟩ := exists_of_map_relativePath .standard
    (Declaration.ofName "test.Outer$Box") ⟨"test/ImmutableOuter_Box.java"⟩ (by decide +kernel)
  obtain ⟨n, hname, hiff⟩ := isBelow_outputPath_iff .standard
    (Declaration.ofName "test.Outer$Box") source hsource
  refine ⟨source, hsource, hpath, hiff.2 ?_⟩
  cases hname
  decide +kernel

/-- An interface is accepted although a segment of its package starts with a slash, and its
source is not written below the output directory. -/
theorem not_isBelow_outputPath_slash :
    ∃ source, GeneratorOptions.standard.generate (Declaration.ofName "a./b.X") = .ok source ∧
      Run.outputPath ⟨"out"⟩ source = ⟨"/b/ImmutableX.java"⟩ ∧
      ¬ (Run.outputPath ⟨"out"⟩ source).IsBelow ⟨"out"⟩ := by
  obtain ⟨source, hsource, hpath⟩ := exists_of_map_relativePath .standard
    (Declaration.ofName "a./b.X") ⟨"/b/ImmutableX.java"⟩ (by decide +kernel)
  have habsolute : (Path.mk "/b/ImmutableX.java").isAbsolute = true := rfl
  have hcomponents : (Path.mk "out").components = [.normal "out"] := rfl
  have hout : Run.outputPath ⟨"out"⟩ source = ⟨"/b/ImmutableX.java"⟩ := by
    rw [Run.outputPath, hpath]
    rfl
  refine ⟨source, hsource, hout, ?_⟩
  rw [hout]
  exact Path.not_isBelow_of_isAbsolute habsolute hcomponents

end GeneratorOptions

end ImmutableJava
