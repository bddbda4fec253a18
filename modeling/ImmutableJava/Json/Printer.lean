import ImmutableJava.Json.Lexer

/-!
# Writing JSON documents

A document is written as its tokens one after another, with nothing between them.  Inside a
string only what has to be escaped is: quotation marks, backslashes and control characters,
by a letter where there is one and else by the number of the character.

A string that has no text is written with half of a surrogate pair.
-/

namespace ImmutableJava

namespace Json

/-! ## The tokens of a document -/

mutual

/-- The tokens of a document. -/
def tokens : Json → List Token
  | null => [.scalar null]
  | bool value => [.scalar (bool value)]
  | number value => [.scalar (number value)]
  | string text? => [.scalar (string text?)]
  | array [] => [.openBracket, .closeBracket]
  | array (item :: items) =>
    .openBracket :: (tokens item ++ (furtherItems items ++ [.closeBracket]))
  | object [] => [.openBrace, .closeBrace]
  | object ((key, value) :: fields) =>
    .openBrace :: .scalar (string key) :: .colon ::
      (tokens value ++ (furtherFields fields ++ [.closeBrace]))

/-- The tokens of items that stand behind another one. -/
def furtherItems : List Json → List Token
  | [] => []
  | item :: items => .comma :: (tokens item ++ furtherItems items)

/-- The tokens of fields that stand behind another one. -/
def furtherFields : List Field → List Token
  | [] => []
  | (key, value) :: fields =>
    .comma :: .scalar (string key) :: .colon :: (tokens value ++ furtherFields fields)

end

/-! ## The characters of a token -/

/-- The letter that escapes a character, if there is one. -/
def escapeLetter? : Char → Option Char
  | '"' => some '"'
  | '\\' => some '\\'
  | '\x08' => some 'b'
  | '\x0c' => some 'f'
  | '\n' => some 'n'
  | '\r' => some 'r'
  | '\t' => some 't'
  | _ => none

/-- How a character is written inside a string. -/
def escapeChar (c : Char) : List Char :=
  match escapeLetter? c with
  | some letter => ['\\', letter]
  | none =>
    if c.toNat < 0x20 then
      ['\\', 'u', '0', '0', Nat.digitChar (c.toNat / 16), Nat.digitChar (c.toNat % 16)]
    else [c]

/-- How a numeral is written. -/
def Numeral.chars (n : Numeral) : List Char :=
  (if n.negative then ['-'] else []) ++ n.whole ++
    (if n.fraction.isEmpty then [] else '.' :: n.fraction) ++
    match n.exponent? with
    | none => []
    | some exponent => 'e' :: exponent.repr.toList

/-- How a token is written. -/
def Token.chars : Token → List Char
  | openBrace => ['\x7b']
  | closeBrace => ['\x7d']
  | openBracket => ['[']
  | closeBracket => [']']
  | comma => [',']
  | colon => [':']
  | scalar (.bool true) => ['t', 'r', 'u', 'e']
  | scalar (.bool false) => ['f', 'a', 'l', 's', 'e']
  | scalar (.number value) => value.chars
  | scalar (.string (some text)) => '"' :: (text.toList.flatMap escapeChar ++ ['"'])
  | scalar (.string none) => ['"', '\\', 'u', 'd', '8', '0', '0', '"']
  | scalar _ => ['n', 'u', 'l', 'l']

/-- The text of a document. -/
def print (document : Json) : String := String.ofList (document.tokens.flatMap Token.chars)

end Json

end ImmutableJava
