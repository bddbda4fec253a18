import ImmutableJava.Declaration.Json
import ImmutableJava.Proofs.DescriptorJson
import ImmutableJava.Proofs.ImplementationJson

/-!
# Declarations are read back from their documents

A declaration file that was written for some declarations is read as these declarations, and
one that was written for a single declaration as that declaration
(`Declaration.parseFile?_print_toJson`).  The only condition is that the document is not nested
more deeply than a reader goes, `Json.maxDepth`.

For each record the fields that are written and the fields that are read are the same, in the
same order, and what is left out is what a missing field stands for:

* lists and sets of names when they are empty;
* the declaring type of a method when there is none;
* the bounds of a wildcard, and the name of a broken type, when there are none.

The kind of a declaration, its flags and its methods are always written, though they have
defaults.
-/

namespace ImmutableJava

open Json

/-! ## Parts -/

@[simp] theorem Json.present_cons_arrayIfAny (key : String) (items : List Json)
    (entries : List Entry) :
    present ((key, arrayIfAny items) :: entries) = listField key items ++ present entries := by
  rw [listField, arrayIfAny]
  split <;> rfl

theorem DeclarationKind.ofName?_name (kind : DeclarationKind) : ofName? kind.name = some kind := by
  cases kind <;> rfl

namespace TypeParameter

/-- The fields of a type parameter. -/
def entries (p : TypeParameter) : List Entry :=
  [("name", some (.text p.name)), ("bounds", arrayIfAny (p.bounds.map TypeDescriptor.toJson))]

theorem toJson_eq (p : TypeParameter) : p.toJson = record p.entries := by
  simp [toJson, record, entries, listField, TypeDescriptor.listToJson_eq]

theorem codec : Codec toJson read := by
  have hname := Codec.required codec_text
  have hbounds := Codec.listIfAny TypeDescriptor.codec
  refine .ofEntries ["name", "bounds"] entries toJson_eq (by decide) (fun _ => rfl)
    (fun p => ?_) fun p depth document hfields hdepth => ?_
  · simp only [entries, List.forall_mem_cons]
    exact ⟨hname.plain _, hbounds.plain _, List.forall_mem_nil _⟩
  · simp only [entries, List.forall_mem_cons] at hdepth
    obtain ⟨dname, dbounds, -⟩ := hdepth
    simp [read, hfields, entries, hname.read_write _ dname, hbounds.read_write _ dbounds]

end TypeParameter

namespace Parameter

/-- The fields of a parameter. -/
def entries (p : Parameter) : List Entry :=
  [("name", some (.text p.name)), ("type", some p.type.toJson)]

theorem codec : Codec toJson read := by
  have hname := Codec.required codec_text
  have htype := Codec.required TypeDescriptor.codec
  refine .ofEntries ["name", "type"] entries (fun _ => rfl) (by decide) (fun _ => rfl)
    (fun p => ?_) fun p depth document hfields hdepth => ?_
  · simp only [entries, List.forall_mem_cons]
    exact ⟨hname.plain _, htype.plain _, List.forall_mem_nil _⟩
  · simp only [entries, List.forall_mem_cons] at hdepth
    obtain ⟨dname, dtype, -⟩ := hdepth
    simp [read, hfields, entries, hname.read_write _ dname, htype.read_write _ dtype]

end Parameter

namespace Method

/-- The fields of a method. -/
def entries (m : Method) : List Entry :=
  [("name", some (.text m.name)), ("returnType", some m.returnType.toJson),
    ("parameters", arrayIfAny (m.parameters.map Parameter.toJson)),
    ("typeParameters", arrayIfAny (m.typeParameters.map TypeParameter.toJson)),
    ("static", some (.bool m.isStatic)), ("default", some (.bool m.isDefault)),
    ("declaringType", m.declaringType?.map Json.text)]

theorem toJson_eq (m : Method) : m.toJson = record m.entries := by
  cases h : m.declaringType? <;> simp [toJson, record, entries, h]

theorem codec : Codec toJson read := by
  have hname := Codec.required codec_text
  have hreturn := Codec.required TypeDescriptor.codec
  have hparameters := Codec.listIfAny Parameter.codec
  have htypeParameters := Codec.listIfAny TypeParameter.codec
  have hflag := Codec.withDefault codec_flag false
  have hdeclaring := Codec.optional codec_text (by rintro _ ⟨⟩)
  refine .ofEntries
    ["name", "returnType", "parameters", "typeParameters", "static", "default", "declaringType"]
    entries toJson_eq (by decide) (fun _ => rfl) (fun m => ?_)
    fun m depth document hfields hdepth => ?_
  · simp only [entries, List.forall_mem_cons]
    exact ⟨hname.plain _, hreturn.plain _, hparameters.plain _, htypeParameters.plain _,
      hflag.plain _, hflag.plain _, hdeclaring.plain _, List.forall_mem_nil _⟩
  · simp only [entries, List.forall_mem_cons] at hdepth
    obtain ⟨dname, dreturn, dparameters, dtypeParameters, dstatic, ddefault, ddeclaring, -⟩ :=
      hdepth
    simp [read, hfields, entries, hname.read_write _ dname, hreturn.read_write _ dreturn,
      hparameters.read_write _ dparameters, htypeParameters.read_write _ dtypeParameters,
      hflag.read_write _ dstatic, hflag.read_write _ ddefault, hdeclaring.read_write _ ddeclaring]

end Method

namespace Declaration

/-- The fields of a declaration. -/
def entries (d : Declaration) : List Entry :=
  [("binaryName", some (.text d.binaryName)), ("kind", some (.text d.kind.name)),
    ("private", some (.bool d.isPrivate)),
    ("typeParameters", arrayIfAny (d.typeParameters.map TypeParameter.toJson)),
    ("methods", some (.array (d.methods.map Method.toJson))),
    ("packageTypes", arrayIfAny (d.packageTypes.toList.map Json.text)),
    ("existingTypes", arrayIfAny (d.existingTypes.toList.map Json.text)),
    ("immutableTypes", arrayIfAny (d.immutableTypes.toList.map Json.text))]

theorem toJson_eq (d : Declaration) : d.toJson = record d.entries := by
  simp [toJson, record, entries]

theorem codec : Codec toJson read := by
  have hname := Codec.required codec_text
  have hkind := Codec.withDefault (codec_name DeclarationKind.ofName?_name) .interfaceType
  have hprivate := Codec.withDefault codec_flag false
  have htypeParameters := Codec.listIfAny TypeParameter.codec
  have hmethods := Codec.withDefault (Codec.list Method.codec) []
  have hnames := Codec.ifAny codec_texts ∅ fun s hs => SortedSet.ext_mem fun name => by
    rw [SortedSet.mem_iff, List.map_eq_nil_iff.1 hs]
    exact Iff.rfl
  refine .ofEntries
    ["binaryName", "kind", "private", "typeParameters", "methods", "packageTypes",
      "existingTypes", "immutableTypes"]
    entries toJson_eq (by decide) (fun _ => rfl) (fun d => ?_)
    fun d depth document hfields hdepth => ?_
  · simp only [entries, List.forall_mem_cons]
    exact ⟨hname.plain _, hkind.plain _, hprivate.plain _, htypeParameters.plain _,
      hmethods.plain _, hnames.plain _, hnames.plain _, hnames.plain _, List.forall_mem_nil _⟩
  · simp only [entries, List.forall_mem_cons] at hdepth
    obtain ⟨dname, dkind, dprivate, dtypeParameters, dmethods, dpackage, dexisting, dimmutable,
      -⟩ := hdepth
    simp [read, hfields, entries, hname.read_write _ dname, hkind.read_write _ dkind,
      hprivate.read_write _ dprivate, htypeParameters.read_write _ dtypeParameters,
      hmethods.read_write _ dmethods, hnames.read_write _ dpackage, hnames.read_write _ dexisting,
      hnames.read_write _ dimmutable]

/-! ## Files -/

/-- However the document of a list of declarations is spelled, it is read as the list. -/
theorem parseFile?_of_json_array {ds : List Declaration} {text : String}
    (h : Json.parse? text = some (.array (ds.map toJson)))
    (hdepth : (Json.array (ds.map toJson)).nesting ≤ maxDepth) : parseFile? text = some ds := by
  rw [parseFile?, h, Option.bind_some, readFile]
  exact Codec.read_write (Codec.list codec) ds hdepth

/-- However the document of a declaration is spelled, it is read as the only declaration. -/
theorem parseFile?_of_json {d : Declaration} {text : String} (h : Json.parse? text = some d.toJson)
    (hdepth : d.toJson.nesting ≤ maxDepth) : parseFile? text = some [d] := by
  have hread : readFile d.toJson = (read maxDepth d.toJson).map ([·]) := by
    rw [toJson_eq]
    rfl
  rw [parseFile?, h, Option.bind_some, hread, Codec.read_write codec d hdepth, Option.map_some]

/-- Declarations are read back from the file that is written for them, both as a list and as a
single declaration, unless they are nested too deeply. -/
theorem parseFile?_print_toJson :
    (∀ ds : List Declaration, (Json.array (ds.map toJson)).nesting ≤ maxDepth →
      parseFile? (Json.array (ds.map toJson)).print = some ds) ∧
    ∀ d : Declaration, d.toJson.nesting ≤ maxDepth → parseFile? d.toJson.print = some [d] :=
  ⟨fun ds => parseFile?_of_json_array (parse?_print (Codec.plain (Codec.list codec) ds)),
    fun d => parseFile?_of_json (parse?_print (Codec.plain codec d))⟩

/-- A generic interface with a method that returns the entries of a map. -/
def entryHolder : Declaration :=
  { ofName "test.Holder" with
    typeParameters := [⟨"K", [.generic "java.lang.Comparable" [.typeVariable "K"]]⟩]
    methods := [.accessor "entries" (.array (.declared "java.util.Map$Entry"
      [.typeVariable "K", .wildcard (some (.plain "java.lang.Number")) none] [[]]))]
    packageTypes := SortedSet.ofList ["Holder"] }

theorem parseFile?_print_toJson_entryHolder :
    (Json.array ([entryHolder, ofName "test.Empty"].map toJson)).nesting ≤ maxDepth ∧
      parseFile? (Json.array ([entryHolder, ofName "test.Empty"].map toJson)).print =
        some [entryHolder, ofName "test.Empty"] ∧
      entryHolder.toJson.nesting ≤ maxDepth ∧
      parseFile? entryHolder.toJson.print = some [entryHolder] := by
  have hlist : (Json.array ([entryHolder, ofName "test.Empty"].map toJson)).nesting ≤ maxDepth := by
    decide +kernel
  have hsingle : entryHolder.toJson.nesting ≤ maxDepth := by decide +kernel
  exact ⟨hlist, parseFile?_print_toJson.1 _ hlist, hsingle, parseFile?_print_toJson.2 _ hsingle⟩

end Declaration

end ImmutableJava
