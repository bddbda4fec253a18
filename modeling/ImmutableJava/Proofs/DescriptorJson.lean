import ImmutableJava.Proofs.DescriptorNode
import ImmutableJava.Proofs.JsonRecord
import ImmutableJava.TypeDescriptor.Json

/-!
# A type descriptor is read back from its document

A descriptor is a record with one more field for its kind (`TypeDescriptor.toJson_eq`), and the
kind determines which other fields there may be.  Its document is taken apart in the same way
wherever the descriptor stands; only the reader of the descriptors inside it, its `children`,
is a different one.  So the round trip of one level is a single lemma
(`ofFields?_entries`): if the children are read back, the descriptor is.

Levels are then put together by induction on how deeply the reader may go.  A child is nested
less deeply than its parent, even if it stands in a list inside a list.
-/

namespace ImmutableJava

open Json

namespace TypeDescriptor

/-! ## The record of a descriptor -/

/-- The field with the kind of a descriptor. -/
def tag (d : TypeDescriptor) : Entry := ("kind", some (.text d.kind.name))

/-- The fields of a descriptor besides its kind. -/
def entries : TypeDescriptor → List Entry
  | primitive name => [("name", some (.text name))]
  | array component => [("component", some component.toJson)]
  | declared name arguments enclosing =>
    [("binaryName", some (.text name)), ("typeArguments", arrayIfAny (arguments.map toJson)),
      ("enclosingTypeArguments",
        arrayIfAny (enclosing.map fun level => .array (level.map toJson)))]
  | typeVariable name => [("name", some (.text name))]
  | wildcard extendsBound superBound =>
    [("extends", extendsBound.map toJson), ("super", superBound.map toJson)]
  | void => []
  | broken name => [("name", name.map Json.text)]
  | union alternatives => [("alternatives", some (.array (alternatives.map toJson)))]
  | intersection bounds => [("bounds", some (.array (bounds.map toJson)))]

theorem listToJson_cons (d : TypeDescriptor) (ds : List TypeDescriptor) :
    listToJson (d :: ds) = d.toJson :: listToJson ds := rfl

theorem listsToJson_cons (level : List TypeDescriptor) (levels : List (List TypeDescriptor)) :
    listsToJson (level :: levels) = .array (listToJson level) :: listsToJson levels := rfl

theorem listToJson_eq (ds : List TypeDescriptor) : listToJson ds = ds.map toJson := by
  induction ds with
  | nil => rfl
  | cons d ds ih => rw [listToJson_cons, ih, List.map_cons]

theorem listsToJson_eq (levels : List (List TypeDescriptor)) :
    listsToJson levels = levels.map fun level => .array (level.map toJson) := by
  induction levels with
  | nil => rfl
  | cons level levels ih => rw [listsToJson_cons, ih, listToJson_eq, List.map_cons]

theorem toJson_eq (d : TypeDescriptor) : d.toJson = record (d.tag :: d.entries) := by
  cases d with
  | declared name arguments enclosing =>
    cases arguments <;> cases enclosing <;>
      simp [toJson, tagged, kind, record, present, tag, entries, arrayIfAny, listToJson_eq,
        listsToJson_eq]
  | wildcard extendsBound superBound => cases extendsBound <;> cases superBound <;> rfl
  | broken name => cases name <;> rfl
  | union alternatives =>
    rw [toJson, listToJson_eq]
    rfl
  | intersection bounds =>
    rw [toJson, listToJson_eq]
    rfl
  | _ => rfl

/-- The descriptors directly inside a descriptor. -/
def children : TypeDescriptor → List TypeDescriptor
  | array component => [component]
  | declared _ arguments enclosing => arguments ++ enclosing.flatten
  | wildcard extendsBound superBound => extendsBound.toList ++ superBound.toList
  | union alternatives => alternatives
  | intersection bounds => bounds
  | _ => []

theorem plain_of_entries {d : TypeDescriptor} (h : ∀ e ∈ d.entries, ∀ j ∈ e.2, j.Plain) :
    d.toJson.Plain := by
  rw [toJson_eq]
  exact .record (List.forall_mem_cons.2 ⟨FieldCodec.plain (Codec.required codec_text) _, h⟩)

theorem plain_array_map {ds : List TypeDescriptor} (h : ∀ d ∈ ds, d.toJson.Plain) :
    (Json.array (ds.map toJson)).Plain := .array (List.forall_mem_map.2 h)

theorem plain_toJson (d : TypeDescriptor) : d.toJson.Plain := by
  induction d using TypeDescriptor.induction with
  | primitive name => exact plain_of_entries (by simp [entries, Plain.text])
  | array component ih => exact plain_of_entries (by simp [entries, ih])
  | declared name arguments enclosing iharguments ihenclosing =>
    refine plain_of_entries (List.forall_mem_cons.2
      ⟨FieldCodec.plain (Codec.required codec_text) _, ?_⟩)
    have hlevels : (Json.array (enclosing.map fun level => .array (level.map toJson))).Plain :=
      .array (List.forall_mem_map.2 fun level h => plain_array_map (ihenclosing level h))
    refine List.forall_mem_cons.2 ⟨fun j hj => ?_, List.forall_mem_singleton.2 fun j hj => ?_⟩
    · exact eq_array_of_mem_arrayIfAny hj ▸ plain_array_map iharguments
    · exact eq_array_of_mem_arrayIfAny hj ▸ hlevels
  | typeVariable name => exact plain_of_entries (by simp [entries, Plain.text])
  | wildcard extendsBound superBound ihextends ihsuper =>
    exact plain_of_entries (by simpa [entries] using ⟨ihextends, ihsuper⟩)
  | void => exact plain_of_entries (List.forall_mem_nil _)
  | broken name => exact plain_of_entries (by simp [entries, Plain.text])
  | union alternatives ih => exact plain_of_entries (by simp [entries, plain_array_map ih])
  | intersection bounds ih => exact plain_of_entries (by simp [entries, plain_array_map ih])

/-- The children are nested less deeply. -/
theorem nesting_child_le {d : TypeDescriptor} {depth : Nat} (h : d.toJson.nesting ≤ depth) :
    ∃ inner, depth = inner + 1 ∧ ∀ c ∈ d.children, c.toJson.nesting ≤ inner := by
  rw [toJson_eq, nesting_record_le_iff] at h
  obtain ⟨inner, rfl, hfields⟩ := h
  refine ⟨inner, rfl, ?_⟩
  obtain ⟨-, hentries⟩ := List.forall_mem_cons.1 hfields
  cases d with
  | array component => simpa [entries, children] using hentries
  | declared name arguments enclosing =>
    simp only [entries, List.forall_mem_cons] at hentries
    obtain ⟨-, harguments, henclosing, -⟩ := hentries
    refine List.forall_mem_append.2 ⟨?_, fun a ha => ?_⟩
    · exact List.forall_mem_map.1 (nesting_item_le_of_arrayIfAny harguments)
    · obtain ⟨level, hlevel, ha⟩ := List.mem_flatten.1 ha
      have hitem := List.forall_mem_map.1 (nesting_item_le_of_arrayIfAny henclosing) level hlevel
      exact List.forall_mem_map.1 (nesting_item_le hitem) a ha
  | wildcard extendsBound superBound =>
    simpa [entries, children, or_imp, forall_and] using hentries
  | union alternatives =>
    have hlist := hentries _ (List.mem_singleton_self _) _ rfl
    exact List.forall_mem_map.1 (nesting_item_le hlist)
  | intersection bounds =>
    have hlist := hentries _ (List.mem_singleton_self _) _ rfl
    exact List.forall_mem_map.1 (nesting_item_le hlist)
  | _ => exact List.forall_mem_nil _

/-! ## Taking a record apart -/

theorem Kind.ofName?_name (kind : Kind) : ofName? kind.name = some kind := by
  cases kind <;> rfl

theorem namedKind?_text (kind : Kind) : namedKind? (.text kind.name) = some kind :=
  kind.ofName?_name

theorem numberedKind?_text (kind : Kind) : numberedKind? (.text kind.name) = some kind :=
  kind.ofName?_name

theorem nodup_keys (d : TypeDescriptor) : ((d.tag :: d.entries).map Prod.fst).Nodup := by
  cases d <;> simp [tag, entries]

/-- The kind of a descriptor is found, and its other fields are left. -/
theorem untag?_toJson (d : TypeDescriptor) :
    untag? d.toJson = some (.text d.kind.name, record d.entries) := by
  have hlookup :
      lookup? (present (d.tag :: d.entries)) "kind" = some (some (.text d.kind.name)) :=
    lookup?_present (e := d.tag) d.nodup_keys List.mem_cons_self
  have hothers : ∀ e ∈ d.entries, decide (some e.1 ≠ some "kind") = true := fun e he =>
    decide_eq_true fun h => (List.nodup_cons.1 d.nodup_keys).1
      (List.mem_map.2 ⟨e, he, Option.some.inj h⟩)
  have hrest : (present (d.tag :: d.entries)).filter (·.1 ≠ some "kind") = present d.entries := by
    rw [filter_present fun key => key ≠ some "kind", List.filter_cons_of_neg (by simp [tag]),
      List.filter_eq_self.2 hothers]
  rw [toJson_eq, record, untag?, hlookup]
  simp only [hrest, record]

theorem toJson_ne_null (d : TypeDescriptor) : d.toJson ≠ .null := by
  rw [toJson_eq, record]
  rintro ⟨⟩

theorem optional?_of_ne_null {α : Type} (read : Json → Option α) {j : Json} (h : j ≠ .null) :
    optional? read j = (read j).map some := by
  cases j with
  | null => exact absurd rfl h
  | _ => rfl

/-- A bound that may be missing is read back. -/
theorem orElse_optional? {α : Type} {write : α → Json} {read : Json → Option α}
    (hnull : ∀ a, write a ≠ .null) {a? : Option α} (h : ∀ a ∈ a?, read (write a) = some a) :
    orElse none (optional? read) (a?.map write) = some a? := by
  cases a? with
  | none => rfl
  | some a => rw [Option.map_some, orElse, optional?_of_ne_null read (hnull a), h a rfl,
      Option.map_some]

/-- A list that may be left out is read back. -/
theorem orElse_arrayIfAny {α : Type} {write : α → Json} {read : Json → Option (List α)}
    {l : List α} (h : read (.array (l.map write)) = some l) :
    orElse [] read (arrayIfAny (l.map write)) = some l := by
  cases l with
  | nil => rfl
  | cons a l => exact h

/-- If the children are read back, the descriptor is. -/
theorem ofFields?_entries {part : Json → Option TypeDescriptor} {d : TypeDescriptor}
    (h : ∀ c ∈ d.children, part c.toJson = some c) :
    ofFields? part d.kind (record d.entries) = some d := by
  cases d with
  | primitive name =>
    have hfields : fieldsOf? false ["name"] (record (primitive name).entries) =
        some [some (.text name)] := fieldsOf?_record rfl (by decide)
    simp [kind, ofFields?, hfields, Json.text, text?]
  | array component =>
    have hfields : fieldsOf? false ["component"] (record (array component).entries) =
        some [some component.toJson] := fieldsOf?_record rfl (by decide)
    simp [kind, ofFields?, hfields, h component (List.mem_singleton_self _)]
  | declared name arguments enclosing =>
    obtain ⟨harguments, henclosing⟩ := List.forall_mem_append.1 h
    have hfields :
        fieldsOf? false ["binaryName", "typeArguments", "enclosingTypeArguments"]
            (record (declared name arguments enclosing).entries) =
          some [some (.text name), arrayIfAny (arguments.map toJson),
            arrayIfAny (enclosing.map fun level => .array (level.map toJson))] :=
      fieldsOf?_record rfl (by decide)
    have hparts : orElse [] (fun value => (items? value).bind (·.mapM part))
        (arrayIfAny (arguments.map toJson)) = some arguments :=
      orElse_arrayIfAny (mapM_map_eq_self harguments)
    have hlevels :
        orElse [] (fun value => (items? value).bind
          (·.mapM fun level => (items? level).bind (·.mapM part)))
          (arrayIfAny (enclosing.map fun level => .array (level.map toJson))) = some enclosing :=
      orElse_arrayIfAny (mapM_map_eq_self fun level hlevel => mapM_map_eq_self fun a ha =>
        henclosing a (List.mem_flatten.2 ⟨level, hlevel, ha⟩))
    simp [kind, ofFields?, hfields, Json.text, text?, hparts, hlevels]
  | typeVariable name =>
    have hfields : fieldsOf? false ["name"] (record (typeVariable name).entries) =
        some [some (.text name)] := fieldsOf?_record rfl (by decide)
    simp [kind, ofFields?, hfields, Json.text, text?]
  | wildcard extendsBound superBound =>
    have hfields : fieldsOf? false ["extends", "super"]
        (record (wildcard extendsBound superBound).entries) =
          some [extendsBound.map toJson, superBound.map toJson] := fieldsOf?_record rfl (by decide)
    obtain ⟨hextends, hsuper⟩ := List.forall_mem_append.1 h
    have hupper := orElse_optional? toJson_ne_null fun b hb => hextends b (Option.mem_toList.2 hb)
    have hlower := orElse_optional? toJson_ne_null fun b hb => hsuper b (Option.mem_toList.2 hb)
    simp [kind, ofFields?, hfields, hupper, hlower]
  | void =>
    have hfields : fieldsOf? false [] (record void.entries) = some [] :=
      fieldsOf?_record rfl (by decide)
    simp [kind, ofFields?, hfields]
  | broken name =>
    have hfields : fieldsOf? false ["name"] (record (broken name).entries) =
        some [name.map Json.text] := fieldsOf?_record rfl (by decide)
    have hname : orElse none (optional? text?) (name.map Json.text) = some name :=
      orElse_optional? (by rintro _ ⟨⟩) fun _ _ => rfl
    simp [kind, ofFields?, hfields, hname]
  | union alternatives =>
    have hfields : fieldsOf? false ["alternatives"] (record (union alternatives).entries) =
        some [some (.array (alternatives.map toJson))] := fieldsOf?_record rfl (by decide)
    have hparts : (alternatives.map toJson).mapM part = some alternatives := mapM_map_eq_self h
    simp [kind, ofFields?, hfields, items?, hparts, -List.mapM_map]
  | intersection bounds =>
    have hfields : fieldsOf? false ["bounds"] (record (intersection bounds).entries) =
        some [some (.array (bounds.map toJson))] := fieldsOf?_record rfl (by decide)
    have hparts : (bounds.map toJson).mapM part = some bounds := mapM_map_eq_self h
    simp [kind, ofFields?, hfields, items?, hparts, -List.mapM_map]

/-! ## Reading -/

/-- A descriptor inside a descriptor is read back. -/
theorem codec_readInner : Codec toJson readInner where
  plain := plain_toJson
  read_write d depth hdepth := by
    induction depth generalizing d with
    | zero =>
      obtain ⟨inner, hzero, -⟩ := nesting_child_le hdepth
      exact absurd hzero (Nat.succ_ne_zero inner).symm
    | succ depth ih =>
      obtain ⟨inner, hsucc, hchildren⟩ := nesting_child_le hdepth
      obtain rfl : depth = inner := Nat.succ.inj hsucc
      have hfields := ofFields?_entries fun c hc => ih c (hchildren c hc)
      rw [readInner, untag?_toJson]
      simp [numberedKind?_text, hfields]

theorem codec : Codec toJson read where
  plain := plain_toJson
  read_write d depth hdepth := by
    obtain ⟨inner, rfl, hchildren⟩ := nesting_child_le hdepth
    have hfits : d.toJson.fits (inner + 1) = true := d.plain_toJson.fits_iff.2 hdepth
    have hfields : ofFields? (readInner (inner + 1)) d.kind (record d.entries) = some d :=
      ofFields?_entries fun c hc =>
        Codec.read_write codec_readInner c (Nat.le_succ_of_le (hchildren c hc))
    rw [read, if_pos hfits, untag?_toJson]
    simp [namedKind?_text, hfields]

end TypeDescriptor

end ImmutableJava
