import ImmutableJava.Json.Lexer

/-!
# Reading JSON documents

The parser takes a document one token at a time and keeps the arrays and objects
that are still open as a stack of frames.  What may come next is part of its
state: a value, the first item or key of something just opened, a colon, or a comma
or closing bracket after a complete item.

Nothing here depends on how deeply a document is nested.
-/

namespace ImmutableJava

namespace Json

/-- An array or object that a value under way belongs to; what is complete in it is
kept in reverse. -/
inductive Frame where
  /-- An array, after some items. -/
  | item (before : List Json)
  /-- An object, after some fields and at the value of a key. -/
  | field (before : List Field) (key : Option String)

/-- What the parser expects, inside which frames. -/
inductive Parser where
  /-- A value. -/
  | atValue (stack : List Frame)
  /-- The first item of an array, or its end. -/
  | atFirstItem (stack : List Frame)
  /-- A comma after an item, or the end of the array. -/
  | afterItem (items : List Json) (stack : List Frame)
  /-- The first key of an object, or its end. -/
  | atFirstKey (stack : List Frame)
  /-- A key after a comma. -/
  | atKey (fields : List Field) (stack : List Frame)
  /-- A colon after a key. -/
  | atColon (fields : List Field) (key : Option String) (stack : List Frame)
  /-- A comma after a field, or the end of the object. -/
  | afterField (fields : List Field) (stack : List Frame)
  /-- Nothing any more. -/
  | done (value : Json)

namespace Parser

/-- Goes on after a complete value. -/
def complete (value : Json) : List Frame → Parser
  | [] => done value
  | .item before :: stack => afterItem (value :: before) stack
  | .field before key :: stack => afterField ((key, value) :: before) stack

/-- Takes the first token of a value. -/
def begin (stack : List Frame) : Token → Option Parser
  | .scalar value => some (complete value stack)
  | .openBracket => some (atFirstItem stack)
  | .openBrace => some (atFirstKey stack)
  | _ => none

/-- Takes one token. -/
def step (parser : Parser) (token : Token) : Option Parser :=
  match parser, token with
  | atValue stack, token => begin stack token
  | atFirstItem stack, .closeBracket => some (complete (.array []) stack)
  | atFirstItem stack, token => begin (.item [] :: stack) token
  | afterItem items stack, .comma => some (atValue (.item items :: stack))
  | afterItem items stack, .closeBracket => some (complete (.array items.reverse) stack)
  | atFirstKey stack, .closeBrace => some (complete (.object []) stack)
  | atFirstKey stack, .scalar (.string key) => some (atColon [] key stack)
  | atKey fields stack, .scalar (.string key) => some (atColon fields key stack)
  | atColon fields key stack, .colon => some (atValue (.field fields key :: stack))
  | afterField fields stack, .comma => some (atKey fields stack)
  | afterField fields stack, .closeBrace => some (complete (.object fields.reverse) stack)
  | _, _ => none

/-- The value of a parser that has read a whole document. -/
def result? : Parser → Option Json
  | done value => some value
  | _ => none

end Parser

/-- The value of a sequence of tokens. -/
def ofTokens? (tokens : List Token) : Option Json :=
  (tokens.foldlM Parser.step (.atValue [])).bind Parser.result?

/-- The value of a document. -/
def parse? (document : String) : Option Json := (tokens? document).bind ofTokens?

end Json

end ImmutableJava
