import ImmutableJava.Json

/-!
# Reading records from JSON documents

The documents that are read have fixed shapes: records with named fields, lists,
names of a small set, texts and flags.  A record may be written as an object, or as
the array of its fields in their order, the last ones of which may be missing.

* A field that the record does not know is skipped unread, unless the record
  admits no such fields.
* A field may occur once.
* A key must denote a text.

## Depth

Arrays and objects that are read may be nested 127 deep.  A reader is told how many
more of them may be opened; what is skipped does not count, since nothing is opened
by skipping it.  A value that has to be read before it is known what it is must fit
as a whole (`fits`).
-/

namespace ImmutableJava

namespace Json

/-- How deep a document that is read may be nested. -/
def maxDepth : Nat := 127

/-- Reads a value, given how many nested arrays and objects may be opened. -/
abbrev Reader (α : Type) := Nat → Json → Option α

/-! ## Values of one token -/

/-- The text of a string. -/
def readText : Reader String
  | _, string text? => text?
  | _, _ => none

/-- One of the words `true` and `false`. -/
def readFlag : Reader Bool
  | _, bool value => some value
  | _, _ => none

/-- A value, or `null` for none. -/
def readOptional {α : Type} (read : Reader α) : Reader (Option α)
  | _, null => some none
  | depth, value => (read depth value).map some

/-- One of some names, as a string or as an object whose only field has that name
and the value `null`. -/
def readName {α : Type} (ofName? : String → Option α) : Reader α
  | _, string text? => text?.bind ofName?
  | _ + 1, object [(key, null)] => key.bind ofName?
  | _, _ => none

/-! ## Lists and records -/

/-- The items of an array. -/
def readList {α : Type} (read : Reader α) : Reader (List α)
  | depth + 1, array items => items.mapM (read depth)
  | _, _ => none

/-- The value of a key among fields: nothing if the key does not occur, and a
refusal if it occurs twice. -/
def lookup? (fields : List Field) (key : String) : Option (Option Json) :=
  match fields.filter (·.1 = some key) with
  | [] => some none
  | [(_, value)] => some (some value)
  | _ => none

/-- The values of the named fields, in the order of the names, and with no others
if the record is closed. -/
def fieldsOf? (closed : Bool) (names : List String) : Json → Option (List (Option Json))
  | object fields =>
    if fields.all fun f => f.1.isSome && (!closed || f.1.any (names.contains ·)) then
      names.mapM (lookup? fields)
    else none
  | array items =>
    if items.length ≤ names.length then
      some (items.map some ++ List.replicate (names.length - items.length) none)
    else none
  | _ => none

/-- A field that has to be there. -/
def required {α : Type} (read : Reader α) (depth : Nat) (value? : Option Json) : Option α :=
  value?.bind (read depth)

/-- A field that has a default. -/
def withDefault {α : Type} (default : α) (read : Reader α) (depth : Nat)
    (value? : Option Json) : Option α :=
  match value? with
  | none => some default
  | some value => read depth value

/-! ## Values that are read as a whole -/

mutual

/-- Whether a value can be read whole: it is not nested too deeply, a double can
hold its numerals, and its strings and keys denote texts. -/
def fits : Nat → Json → Bool
  | _, null => true
  | _, bool _ => true
  | _, number value => value.inRange
  | _, string text? => text?.isSome
  | 0, array _ => false
  | depth + 1, array items => allFit depth items
  | 0, object _ => false
  | depth + 1, object fields => allFieldsFit depth fields

/-- Whether all items can be read whole. -/
def allFit : Nat → List Json → Bool
  | _, [] => true
  | depth, item :: items => fits depth item && allFit depth items

/-- Whether all fields can be read whole. -/
def allFieldsFit : Nat → List Field → Bool
  | _, [] => true
  | depth, (key, value) :: fields => key.isSome && fits depth value && allFieldsFit depth fields

end

end Json

end ImmutableJava
