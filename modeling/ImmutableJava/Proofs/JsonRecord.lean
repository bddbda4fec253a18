import ImmutableJava.Json.Record
import ImmutableJava.Proofs.JsonText
import Mathlib.Data.List.Nodup

/-!
# Values that are written as documents

A *codec* is a way to write values as documents and a reader that takes each of them for the
value it was written for.  Codecs of texts, flags and names are put together to codecs of lists
and, field by field, of records.

## 1.  Depth

A reader may open a limited number of nested arrays and objects, so a codec promises nothing
about a document that is nested more deeply (`Json.nesting`).  Of what is written nothing is
skipped, and therefore the depth of the document is all that matters, also for a value that is
read as a whole (`Json.Plain.fits_iff`).

## 2.  Records

A record is written as an object of those of its fields that are there (`Json.record`).  As its
keys are different, the reader finds for each key what was written under it, and nothing if
nothing was written (`Json.fieldsOf?_record`).

## 3.  Codecs

Besides the codecs of documents (`Json.Codec`) there are codecs of fields (`Json.FieldCodec`).
What a missing field stands for is up to the reader of the field, and the field may be left out
if that is its value: an empty list (`Json.Codec.ifAny`) or no value
(`Json.Codec.optional`).  A field that is always written may have any default
(`Json.Codec.withDefault`).
-/

namespace ImmutableJava

namespace Json

/-! ## 1.  Depth -/

mutual

/-- How deeply arrays and objects are nested in a document. -/
def nesting : Json → Nat
  | array items => nestingOfItems items + 1
  | object fields => nestingOfFields fields + 1
  | _ => 0

/-- How deeply arrays and objects are nested in the items. -/
def nestingOfItems : List Json → Nat
  | [] => 0
  | item :: items => max (nesting item) (nestingOfItems items)

/-- How deeply arrays and objects are nested in the values of the fields. -/
def nestingOfFields : List Field → Nat
  | [] => 0
  | (_, value) :: fields => max (nesting value) (nestingOfFields fields)

end

@[simp] theorem nesting_null : null.nesting = 0 := rfl

@[simp] theorem nesting_text (value : String) : (text value).nesting = 0 := rfl

@[simp] theorem nesting_bool (value : Bool) : (bool value).nesting = 0 := rfl

theorem nesting_array (items : List Json) : (array items).nesting = nestingOfItems items + 1 := rfl

theorem nesting_object (fields : List Field) :
    (object fields).nesting = nestingOfFields fields + 1 := rfl

@[simp] theorem nestingOfItems_nil : nestingOfItems [] = 0 := rfl

@[simp] theorem nestingOfItems_cons (item : Json) (items : List Json) :
    nestingOfItems (item :: items) = max item.nesting (nestingOfItems items) := rfl

@[simp] theorem nestingOfFields_nil : nestingOfFields [] = 0 := rfl

@[simp] theorem nestingOfFields_cons (f : Field) (fields : List Field) :
    nestingOfFields (f :: fields) = max f.2.nesting (nestingOfFields fields) := rfl

theorem nestingOfItems_le_iff {items : List Json} {depth : Nat} :
    nestingOfItems items ≤ depth ↔ ∀ item ∈ items, item.nesting ≤ depth := by
  induction items with
  | nil => simp
  | cons item items ih => rw [nestingOfItems_cons, Nat.max_le, ih, List.forall_mem_cons]

theorem nestingOfFields_le_iff {fields : List Field} {depth : Nat} :
    nestingOfFields fields ≤ depth ↔ ∀ f ∈ fields, f.2.nesting ≤ depth := by
  induction fields with
  | nil => simp
  | cons f fields ih => rw [nestingOfFields_cons, Nat.max_le, ih, List.forall_mem_cons]

theorem succ_le_iff_exists {n depth : Nat} :
    n + 1 ≤ depth ↔ ∃ inner, depth = inner + 1 ∧ n ≤ inner := by
  constructor
  · exact fun h => ⟨depth - 1, by omega, by omega⟩
  · rintro ⟨inner, rfl, h⟩
    omega

theorem nesting_array_le_iff {items : List Json} {depth : Nat} :
    (array items).nesting ≤ depth ↔
      ∃ inner, depth = inner + 1 ∧ ∀ item ∈ items, item.nesting ≤ inner := by
  simp only [nesting_array, succ_le_iff_exists, nestingOfItems_le_iff]

theorem nesting_array_le {items : List Json} {depth : Nat}
    (h : ∀ item ∈ items, item.nesting ≤ depth) : (array items).nesting ≤ depth + 1 :=
  nesting_array_le_iff.2 ⟨depth, rfl, h⟩

/-- An item is not nested more deeply than the array. -/
theorem nesting_item_le {items : List Json} {depth : Nat} (h : (array items).nesting ≤ depth) :
    ∀ item ∈ items, item.nesting ≤ depth := by
  obtain ⟨inner, rfl, hitems⟩ := nesting_array_le_iff.1 h
  exact fun item hitem => Nat.le_succ_of_le (hitems item hitem)

theorem nesting_object_le_iff {fields : List Field} {depth : Nat} :
    (object fields).nesting ≤ depth ↔
      ∃ inner, depth = inner + 1 ∧ ∀ f ∈ fields, f.2.nesting ≤ inner := by
  simp only [nesting_object, succ_le_iff_exists, nestingOfFields_le_iff]

theorem allFit_iff {depth : Nat} {items : List Json} :
    allFit depth items = true ↔ ∀ item ∈ items, item.fits depth = true := by
  induction items with
  | nil => simp [allFit]
  | cons item items ih => rw [allFit, Bool.and_eq_true, ih, List.forall_mem_cons]

theorem allFieldsFit_iff {depth : Nat} {fields : List Field} :
    allFieldsFit depth fields = true ↔ ∀ f ∈ fields, f.1.isSome ∧ f.2.fits depth = true := by
  induction fields with
  | nil => simp [allFieldsFit]
  | cons f fields ih =>
    rw [allFieldsFit, Bool.and_eq_true, Bool.and_eq_true, ih, List.forall_mem_cons]

@[simp] theorem fits_text (value : String) (depth : Nat) : (text value).fits depth = true := by
  cases depth <;> rfl

/-- A document can be read as a whole exactly if it is not nested too deeply. -/
theorem Plain.fits_iff {j : Json} (h : j.Plain) {depth : Nat} :
    j.fits depth = true ↔ j.nesting ≤ depth := by
  induction h generalizing depth with
  | null => cases depth <;> simp [fits]
  | bool value => cases depth <;> simp [fits]
  | text value => simp
  | @array items hitems ih =>
    rw [nesting_array_le_iff]
    cases depth with
    | zero => simp [fits]
    | succ depth => simpa [fits, allFit_iff] using forall₂_congr fun item h => ih item h
  | @object fields hkeys hvalues ih =>
    rw [nesting_object_le_iff]
    cases depth with
    | zero => simp [fits]
    | succ depth =>
      simp only [fits, allFieldsFit_iff, Nat.add_right_cancel_iff, exists_eq_left']
      exact forall₂_congr fun f h => by rw [ih f h, and_iff_right (hkeys f h)]

/-! ## 2.  Records -/

/-- A field of a record: its key, and what is written under it if it is there. -/
abbrev Entry := String × Option Json

/-- The fields that are there. -/
def present (entries : List Entry) : List Field := entries.filterMap fun e => e.2.map (field e.1)

/-- The object of a record. -/
def record (entries : List Entry) : Json := object (present entries)

variable {entries : List Entry}

@[simp] theorem present_nil : present [] = [] := rfl

@[simp] theorem present_cons_some (key : String) (value : Json) :
    present ((key, some value) :: entries) = field key value :: present entries := rfl

@[simp] theorem present_cons_none (key : String) :
    present ((key, none) :: entries) = present entries := rfl

theorem mem_present_iff {f : Field} :
    f ∈ present entries ↔ ∃ e ∈ entries, ∃ j ∈ e.2, field e.1 j = f := by
  simp [present]

/-- What holds of each value that is there holds of the values of the fields. -/
theorem forall_mem_present_iff {P : Json → Prop} :
    (∀ f ∈ present entries, P f.2) ↔ ∀ e ∈ entries, ∀ j ∈ e.2, P j := by
  constructor
  · exact fun h e he j hj => h (field e.1 j) (mem_present_iff.2 ⟨e, he, j, hj, rfl⟩)
  · intro h f hf
    obtain ⟨e, he, j, hj, rfl⟩ := mem_present_iff.1 hf
    exact h e he j hj

theorem isSome_of_mem_present {f : Field} (h : f ∈ present entries) : f.1.isSome = true := by
  obtain ⟨e, -, j, -, rfl⟩ := mem_present_iff.1 h
  rfl

theorem Plain.record (h : ∀ e ∈ entries, ∀ j ∈ e.2, j.Plain) : (record entries).Plain :=
  .object (fun _ => isSome_of_mem_present) (forall_mem_present_iff.2 h)

theorem nesting_record_le_iff {depth : Nat} :
    (record entries).nesting ≤ depth ↔
      ∃ inner, depth = inner + 1 ∧ ∀ e ∈ entries, ∀ j ∈ e.2, j.nesting ≤ inner := by
  simp only [record, nesting_object_le_iff, ← forall_mem_present_iff (P := fun j => nesting j ≤ _)]

theorem nesting_record_le {depth : Nat} (h : ∀ e ∈ entries, ∀ j ∈ e.2, j.nesting ≤ depth) :
    (record entries).nesting ≤ depth + 1 :=
  nesting_record_le_iff.2 ⟨depth, rfl, h⟩

/-- Fields are selected by their keys among all, whether they are there or not. -/
theorem filter_present (p : Option String → Bool) :
    (present entries).filter (fun f => p f.1) = present (entries.filter fun e => p (some e.1)) := by
  rw [present, present, List.filter_filterMap, List.filterMap_filter]
  refine List.filterMap_congr fun e _ => ?_
  cases e.2 with
  | none => simp
  | some j => cases h : p (some e.1) <;> simp [field, h]

theorem filter_key {α : Type} {entries : List (String × α)}
    (hkeys : (entries.map Prod.fst).Nodup) {e : String × α} (he : e ∈ entries) :
    entries.filter (·.1 = e.1) = [e] := by
  obtain ⟨before, after, rfl⟩ := List.append_of_mem he
  rw [List.map_append, List.map_cons, List.nodup_middle, List.nodup_cons, List.mem_append] at hkeys
  have hother (x) (hx : x ∈ before ∨ x ∈ after) : ¬ decide (x.1 = e.1) = true := fun heq =>
    hkeys.1 (hx.imp (fun h => List.mem_map.2 ⟨x, h, of_decide_eq_true heq⟩)
      fun h => List.mem_map.2 ⟨x, h, of_decide_eq_true heq⟩)
  exact List.filter_eq_cons_iff.2 ⟨before, after, rfl, fun x hx => hother x (.inl hx),
    decide_eq_true rfl, List.filter_eq_nil_iff.2 fun x hx => hother x (.inr hx)⟩

/-- Under each key is found what was written there. -/
theorem lookup?_present (hkeys : (entries.map Prod.fst).Nodup) {e : Entry} (he : e ∈ entries) :
    lookup? (present entries) e.1 = some e.2 := by
  have hfilter : (present entries).filter (·.1 = some e.1) = present [e] := by
    rw [filter_present fun key => key = some e.1]
    simp only [Option.some.injEq, filter_key hkeys he]
  rw [lookup?, hfilter]
  cases h : e.2 with
  | none => simp [present, h]
  | some j => simp [present, field, h]

/-- Reading element by element succeeds if each element is read. -/
theorem mapM_eq_some {α β : Type} {f : α → Option β} {g : α → β} {l : List α}
    (h : ∀ a ∈ l, f a = some (g a)) : l.mapM f = some (l.map g) := by
  induction l with
  | nil => rfl
  | cons a l ih =>
    obtain ⟨ha, hl⟩ := List.forall_mem_cons.1 h
    rw [List.mapM_cons, ha, ih hl]
    rfl

theorem mapM_map_eq_self {α β : Type} {f : β → Option α} {g : α → β} {l : List α}
    (h : ∀ a ∈ l, f (g a) = some a) : (l.map g).mapM f = some l := by
  have hself : l.mapM (f ∘ g) = some (l.map id) := mapM_eq_some h
  rw [List.mapM_map, hself, List.map_id]

/-- The reader of a record finds what was written under each of its keys. -/
theorem fieldsOf?_record {keys : List String} (hentries : entries.map Prod.fst = keys)
    (hkeys : keys.Nodup) :
    fieldsOf? false keys (record entries) = some (entries.map Prod.snd) := by
  subst hentries
  have hopen : ((present entries).all fun f =>
      f.1.isSome && (!false || f.1.any ((entries.map Prod.fst).contains ·))) = true :=
    List.all_eq_true.2 fun f hf => by simp [isSome_of_mem_present hf]
  rw [record, fieldsOf?, if_pos hopen, List.mapM_map]
  exact mapM_eq_some fun e he => lookup?_present hkeys he

/-! ## 3.  Codecs -/

section Codec

variable {α : Type} {write : α → Json} {read : Reader α}

/-- Documents for values, and a reader that takes each of them for its value. -/
structure Codec (write : α → Json) (read : Reader α) : Prop where
  /-- What is written can be printed without loss. -/
  plain (a : α) : (write a).Plain
  /-- A value is read back unless it is nested too deeply. -/
  read_write (a : α) {depth : Nat} (h : (write a).nesting ≤ depth) :
    read depth (write a) = some a

/-- What stands in a field for values, if anything, and a reader that takes it for its value. -/
structure FieldCodec (write : α → Option Json) (read : Nat → Option Json → Option α) : Prop where
  /-- What is written can be printed without loss. -/
  plain (a : α) : ∀ j ∈ write a, j.Plain
  /-- A value is read back unless it is nested too deeply. -/
  read_write (a : α) {depth : Nat} (h : ∀ j ∈ write a, j.nesting ≤ depth) :
    read depth (write a) = some a

theorem codec_text : Codec text readText where
  plain := .text
  read_write _ _ _ := rfl

theorem codec_flag : Codec bool readFlag where
  plain := .bool
  read_write _ _ _ := rfl

/-- Names can be read if each of them names what it was written for. -/
theorem codec_name {name : α → String} {ofName? : String → Option α}
    (h : ∀ a, ofName? (name a) = some a) : Codec (fun a => text (name a)) (readName ofName?) where
  plain a := .text (name a)
  read_write a depth _ := by
    rw [text, readName]
    exact h a

theorem Codec.list (h : Codec write read) :
    Codec (fun l => array (l.map write)) (readList read) where
  plain l := .array (List.forall_mem_map.2 fun a _ => h.plain a)
  read_write l depth hdepth := by
    obtain ⟨inner, rfl, hitems⟩ := nesting_array_le_iff.1 hdepth
    exact mapM_map_eq_self fun a ha => h.read_write a (List.forall_mem_map.1 hitems a ha)

theorem Codec.required (h : Codec write read) :
    FieldCodec (fun a => some (write a)) (required read) where
  plain a := by
    rintro _ ⟨⟩
    exact h.plain a
  read_write a _ hdepth := h.read_write a (hdepth _ rfl)

theorem Codec.withDefault (h : Codec write read) (default : α) :
    FieldCodec (fun a => some (write a)) (withDefault default read) where
  plain := h.required.plain
  read_write a _ hdepth := h.required.read_write a hdepth

/-- The array of some items, unless there are none. -/
def arrayIfAny (items : List Json) : Option Json :=
  if items.isEmpty then none else some (array items)

theorem eq_array_of_mem_arrayIfAny {items : List Json} {j : Json} (h : j ∈ arrayIfAny items) :
    j = array items := by
  rw [arrayIfAny] at h
  split at h
  · cases h
  · exact (Option.mem_some.1 h).symm

theorem nesting_item_le_of_arrayIfAny {items : List Json} {depth : Nat}
    (h : ∀ j ∈ arrayIfAny items, j.nesting ≤ depth) : ∀ item ∈ items, item.nesting ≤ depth := by
  intro item hitem
  have hany : array items ∈ arrayIfAny items := by
    rw [arrayIfAny, List.isEmpty_eq_false_iff.2 (List.ne_nil_of_mem hitem)]
    rfl
  exact nesting_item_le (h _ hany) item hitem

/-- A list may be left out when it is empty, if being empty is the default. -/
theorem Codec.ifAny {items : α → List Json} (h : Codec (fun a => array (items a)) read)
    (default : α) (hdefault : ∀ a, items a = [] → a = default) :
    FieldCodec (fun a => arrayIfAny (items a)) (Json.withDefault default read) where
  plain a _ hj := eq_array_of_mem_arrayIfAny hj ▸ h.plain a
  read_write a depth := by
    rw [arrayIfAny]
    split
    · rename_i hempty
      exact fun _ => congrArg some (hdefault a (List.isEmpty_iff.1 hempty)).symm
    · exact fun hdepth => h.read_write a (hdepth _ rfl)

theorem Codec.listIfAny (h : Codec write read) :
    FieldCodec (fun l => arrayIfAny (l.map write)) (Json.withDefault [] (readList read)) :=
  h.list.ifAny [] fun _ => List.map_eq_nil_iff.1

theorem readOptional_of_ne_null {j : Json} (h : j ≠ null) (depth : Nat) :
    readOptional read depth j = (read depth j).map some := by
  cases j with
  | null => exact absurd rfl h
  | _ => rfl

/-- A value that is missing may be left out if none is written as `null`. -/
theorem Codec.optional (h : Codec write read) (hnull : ∀ a, write a ≠ null) :
    FieldCodec (Option.map write) (Json.withDefault none (readOptional read)) where
  plain a? := by
    cases a? with
    | none => rintro _ ⟨⟩
    | some a =>
      rintro _ ⟨⟩
      exact h.plain a
  read_write a? depth hdepth := by
    cases a? with
    | none => rfl
    | some a =>
      rw [Option.map_some, Json.withDefault, readOptional_of_ne_null (hnull a),
        h.read_write a (hdepth _ rfl), Option.map_some]

/-- The codec of a record with some keys: it remains to read the record from what was written
under each of them. -/
theorem Codec.ofEntries (keys : List String) (entries : α → List Entry)
    (hwrite : ∀ a, write a = record (entries a)) (hkeys : keys.Nodup)
    (hentries : ∀ a, (entries a).map Prod.fst = keys)
    (hplain : ∀ a, ∀ e ∈ entries a, ∀ j ∈ e.2, j.Plain)
    (hread : ∀ a depth document,
      fieldsOf? false keys document = some ((entries a).map Prod.snd) →
      (∀ e ∈ entries a, ∀ j ∈ e.2, j.nesting ≤ depth) → read (depth + 1) document = some a) :
    Codec write read where
  plain a := hwrite a ▸ .record (hplain a)
  read_write a depth hdepth := by
    rw [hwrite] at hdepth ⊢
    obtain ⟨inner, rfl, hfields⟩ := nesting_record_le_iff.1 hdepth
    exact hread a inner _ (fieldsOf?_record (hentries a) hkeys) hfields

end Codec

end Json

end ImmutableJava
