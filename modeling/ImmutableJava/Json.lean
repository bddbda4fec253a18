import ImmutableJava.Json.Numeral

/-!
# JSON documents

A `Json` value is a document with nothing decided about it: objects keep their
fields in order and with repetitions, numerals keep their digits, and a string may
be one that has no text.

A string has no text when an escape in it names half of a surrogate pair.  Such a
string is well formed, and it does no harm in a part of a document that nobody
reads.
-/

namespace ImmutableJava

/-- A JSON document. -/
inductive Json where
  /-- The word `null`. -/
  | null
  /-- One of the words `true` and `false`. -/
  | bool (value : Bool)
  /-- A numeral. -/
  | number (value : Json.Numeral)
  /-- A string, with the text it denotes if it denotes one. -/
  | string (text? : Option String)
  /-- An array. -/
  | array (items : List Json)
  /-- An object with its fields in order. -/
  | object (fields : List (Option String × Json))

namespace Json

/-- A field of an object: its key, if that denotes a text, and its value. -/
abbrev Field := Option String × Json

/-- The string that denotes a text. -/
def text (value : String) : Json := string (some value)

/-- The field with a key and a value. -/
def field (key : String) (value : Json) : Field := (some key, value)

end Json

end ImmutableJava
