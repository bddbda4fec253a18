import ImmutableJava.Implementation.Json
import ImmutableJava.Proofs.JsonRecord
import ImmutableJava.SourceText

/-!
# An implementation is read back from its document

An implementation that is written down and read again is the same implementation
(`Implementation.parse?_print_toJson`).  Nothing has to be assumed about it: its templates need
not fit their arguments, and the class need not be a declared type.

* *The same* includes the kinds of the templates.  Two templates are the same expression
  whatever their kinds, but only a template of the kind `declared` has a header that a source
  can begin with.
* A type is written as its binary name, and all of its other names are made from that.
* No document is too deep to be read.  The deepest part, five arrays and objects down, is the
  list of the types of a template: the template is in a member, in the list of members, in the
  implementation.
-/

namespace ImmutableJava

open Json

/-! ## Parts -/

theorem Json.codec_ofTexts : Codec ofTexts (readList readText) := Codec.list codec_text

theorem Json.codec_texts : Codec (fun s : SortedSet String => ofTexts s.toList) readTexts where
  plain s := Codec.plain codec_ofTexts s.toList
  read_write s depth hdepth := by
    rw [readTexts, Codec.read_write codec_ofTexts s.toList hdepth, Option.map_some,
      SortedSet.ofList_toList]

theorem Json.nesting_ofTexts_le (texts : List String) : (ofTexts texts).nesting ≤ 1 :=
  nesting_array_le (List.forall_mem_map.2 fun value _ => Nat.le_of_eq (nesting_text value))

theorem BinaryName.codec : Codec toJson read where
  plain n := .text n.text
  read_write n _ _ := ofText?_text n

theorem TemplateKind.ofName?_name (kind : TemplateKind) : ofName? kind.name = some kind := by
  cases kind <;> rfl

namespace Template

/-- The fields of a template. -/
def entries (t : Template) : List Entry :=
  [("pattern", some (.text t.pattern)), ("args", some (.array (t.args.map BinaryName.toJson))),
    ("kind", some (.text t.kind.name))]

theorem codec : Codec toJson read := by
  have hpattern := Codec.required codec_text
  have hargs := Codec.required (Codec.list BinaryName.codec)
  have hkind := Codec.withDefault (codec_name TemplateKind.ofName?_name) .composite
  refine .ofEntries ["pattern", "args", "kind"] entries (fun _ => rfl) (by decide) (fun _ => rfl)
    (fun t => ?_) fun t depth document hfields hdepth => ?_
  · simp only [entries, List.forall_mem_cons]
    exact ⟨hpattern.plain _, hargs.plain _, hkind.plain _, List.forall_mem_nil _⟩
  · simp only [entries, List.forall_mem_cons] at hdepth
    obtain ⟨dpattern, dargs, dkind, -⟩ := hdepth
    simp [read, hfields, entries, hpattern.read_write _ dpattern, hargs.read_write _ dargs,
      hkind.read_write _ dkind]

theorem nesting_toJson_le (t : Template) : t.toJson.nesting ≤ 2 := by
  have hargs : (Json.array (t.args.map BinaryName.toJson)).nesting ≤ 1 :=
    nesting_array_le (List.forall_mem_map.2 fun n _ => Nat.le_of_eq (nesting_text n.text))
  change (record t.entries).nesting ≤ 2
  exact nesting_record_le (by simp [entries, hargs])

end Template

namespace Member

/-- The fields of a member. -/
def entries (m : Member) : List Entry :=
  [("name", some (.text m.name)), ("type", some m.type.toJson)]

theorem codec : Codec toJson read := by
  have hname := Codec.required codec_text
  have htype := Codec.required Template.codec
  refine .ofEntries ["name", "type"] entries (fun _ => rfl) (by decide) (fun _ => rfl)
    (fun m => ?_) fun m depth document hfields hdepth => ?_
  · simp only [entries, List.forall_mem_cons]
    exact ⟨hname.plain _, htype.plain _, List.forall_mem_nil _⟩
  · simp only [entries, List.forall_mem_cons] at hdepth
    obtain ⟨dname, dtype, -⟩ := hdepth
    simp [read, hfields, entries, hname.read_write _ dname, htype.read_write _ dtype]

theorem nesting_toJson_le (m : Member) : m.toJson.nesting ≤ 3 := by
  change (record m.entries).nesting ≤ 3
  exact nesting_record_le (by simp [entries, m.type.nesting_toJson_le])

end Member

namespace ImmutableType

/-- The fields of a class and its interface. -/
def entries (t : ImmutableType) : List Entry :=
  [("rawImplType", some t.rawType.toJson), ("implType", some t.classType.toJson),
    ("interfaceType", some t.interfaceType.toJson),
    ("typeVariables", some (ofTexts t.typeVariables)),
    ("packageTypes", some (ofTexts t.packageTypes.toList))]

theorem codec : Codec toJson read := by
  have hraw := Codec.required BinaryName.codec
  have hclass := Codec.required Template.codec
  have hvariables := Codec.withDefault codec_ofTexts []
  have hpackage := Codec.withDefault codec_texts ∅
  refine .ofEntries ["rawImplType", "implType", "interfaceType", "typeVariables", "packageTypes"]
    entries (fun _ => rfl) (by decide) (fun _ => rfl) (fun t => ?_)
    fun t depth document hfields hdepth => ?_
  · simp only [entries, List.forall_mem_cons]
    exact ⟨hraw.plain _, hclass.plain _, hclass.plain _, hvariables.plain _, hpackage.plain _,
      List.forall_mem_nil _⟩
  · simp only [entries, List.forall_mem_cons] at hdepth
    obtain ⟨draw, dclass, dinterface, dvariables, dpackage, -⟩ := hdepth
    simp [read, hfields, entries, hraw.read_write _ draw, hclass.read_write _ dclass,
      hclass.read_write _ dinterface, hvariables.read_write _ dvariables,
      hpackage.read_write _ dpackage]

theorem nesting_toJson_le (t : ImmutableType) : t.toJson.nesting ≤ 3 := by
  have htexts (texts : List String) : (ofTexts texts).nesting ≤ 2 :=
    Nat.le_trans (nesting_ofTexts_le texts) (by decide)
  change (record t.entries).nesting ≤ 3
  exact nesting_record_le (by simp [entries, BinaryName.toJson, Template.nesting_toJson_le, htexts])

end ImmutableType

/-! ## Implementations -/

namespace Implementation

/-- The fields of an implementation. -/
def entries (i : Implementation) : List Entry :=
  [("type", some i.type.toJson), ("members", some (.array (i.members.map Member.toJson)))]

theorem codec : Codec toJson read := by
  have htype := Codec.required ImmutableType.codec
  have hmembers := Codec.required (Codec.list Member.codec)
  refine .ofEntries ["type", "members"] entries (fun _ => rfl) (by decide) (fun _ => rfl)
    (fun i => ?_) fun i depth document hfields hdepth => ?_
  · simp only [entries, List.forall_mem_cons]
    exact ⟨htype.plain _, hmembers.plain _, List.forall_mem_nil _⟩
  · simp only [entries, List.forall_mem_cons] at hdepth
    obtain ⟨dtype, dmembers, -⟩ := hdepth
    simp [read, hfields, entries, htype.read_write _ dtype, hmembers.read_write _ dmembers]

theorem nesting_toJson_le (i : Implementation) : i.toJson.nesting ≤ 5 := by
  have htype : i.type.toJson.nesting ≤ 4 := Nat.le_trans i.type.nesting_toJson_le (by decide)
  have hmembers : (Json.array (i.members.map Member.toJson)).nesting ≤ 4 :=
    nesting_array_le (List.forall_mem_map.2 fun m _ => m.nesting_toJson_le)
  change (record i.entries).nesting ≤ 5
  exact nesting_record_le (by simp [entries, htype, hmembers])

/-- However the document of an implementation is spelled, it is read as the implementation. -/
theorem parse?_of_json {i : Implementation} {text : String} (h : Json.parse? text = some i.toJson) :
    parse? text = some i := by
  have hdepth : i.toJson.nesting ≤ maxDepth := Nat.le_trans i.nesting_toJson_le (by decide)
  rw [parse?, h, Option.bind_some, Codec.read_write codec i hdepth]

/-- An implementation is read back from its document, and so the source that can be written
from what is read back is the source of the implementation. -/
theorem parse?_print_toJson (i : Implementation) :
    parse? i.toJson.print = some i ∧
      ∀ options, (parse? i.toJson.print).map (·.source options) = some (i.source options) := by
  have hread : parse? i.toJson.print = some i := parse?_of_json (parse?_print (Codec.plain codec i))
  exact ⟨hread, fun options => by rw [hread, Option.map_some]⟩

end Implementation

end ImmutableJava
