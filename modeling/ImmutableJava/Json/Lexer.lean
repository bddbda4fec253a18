import ImmutableJava.Json

/-!
# Tokens of JSON documents

The lexer takes a document one character at a time.  Between tokens it only skips
spaces, tabs and line ends; inside a string, a numeral or a word it collects
characters until the token is complete.  A character that ends a numeral or a word
without belonging to it starts the next token.

The characters of a string are collected as units, a character or a numbered
escape.  Two escapes that form a surrogate pair denote one character; any other
escape in the surrogate range leaves the string without a text.
-/

namespace ImmutableJava

namespace Json

/-- A token of a document. -/
inductive Token where
  /-- An opening brace. -/
  | openBrace
  /-- A closing brace. -/
  | closeBrace
  /-- An opening bracket. -/
  | openBracket
  /-- A closing bracket. -/
  | closeBracket
  /-- A comma. -/
  | comma
  /-- A colon. -/
  | colon
  /-- A value that is a single token. -/
  | scalar (value : Json)

/-! ## Strings -/

/-- A part of a string. -/
inductive StringUnit where
  /-- A character, or an escape that stands for one. -/
  | char (c : Char)
  /-- An escape with four hexadecimal digits. -/
  | code (value : Nat)

namespace StringUnit

/-- Whether a code is the first half of a surrogate pair. -/
def isHigh (code : Nat) : Bool := 0xD800 ≤ code && code < 0xDC00

/-- Whether a code is the second half of a surrogate pair. -/
def isLow (code : Nat) : Bool := 0xDC00 ≤ code && code < 0xE000

/-- The character of a surrogate pair. -/
def paired (high low : Nat) : Char :=
  Char.ofNat (0x10000 + (high - 0xD800) * 0x400 + (low - 0xDC00))

/-- The characters that units denote, unless half of a surrogate pair is left
over. -/
def decode? : List StringUnit → Option (List Char)
  | [] => some []
  | char c :: rest => (decode? rest).map (c :: ·)
  | code high :: code low :: rest =>
    if isHigh high && isLow low then (decode? rest).map (paired high low :: ·)
    else if isHigh high || isLow high then none
    else (decode? (code low :: rest)).map (Char.ofNat high :: ·)
  | code value :: rest =>
    if isHigh value || isLow value then none else (decode? rest).map (Char.ofNat value :: ·)

end StringUnit

/-- The character that a one-letter escape stands for. -/
def escaped? : Char → Option Char
  | '"' => some '"'
  | '\\' => some '\\'
  | '/' => some '/'
  | 'b' => some '\x08'
  | 'f' => some '\x0c'
  | 'n' => some '\n'
  | 'r' => some '\r'
  | 't' => some '\t'
  | _ => none

/-- The value of a hexadecimal digit. -/
def hexDigit? (c : Char) : Option Nat :=
  if c.isDigit then some (c.toNat - '0'.toNat)
  else if 'a' ≤ c && c ≤ 'f' then some (c.toNat - 'a'.toNat + 10)
  else if 'A' ≤ c && c ≤ 'F' then some (c.toNat - 'A'.toNat + 10)
  else none

/-- The value that a word denotes. -/
def word? (cs : List Char) : Option Json :=
  if cs = ['n', 'u', 'l', 'l'] then some .null
  else if cs = ['t', 'r', 'u', 'e'] then some (.bool true)
  else if cs = ['f', 'a', 'l', 's', 'e'] then some (.bool false)
  else none

/-! ## The lexer -/

/-- What the lexer is in the middle of.  What is collected is kept in reverse. -/
inductive Lexer where
  /-- Between tokens. -/
  | between
  /-- Inside a string. -/
  | string (units : List StringUnit)
  /-- Inside a string, after a backslash. -/
  | escape (units : List StringUnit)
  /-- Inside a numbered escape, with the number of digits to come. -/
  | code (units : List StringUnit) (missing value : Nat)
  /-- Inside a numeral. -/
  | numeral (chars : List Char)
  /-- Inside a word. -/
  | word (chars : List Char)

namespace Lexer

/-- Whether a character stands between tokens. -/
def isBlank (c : Char) : Bool := c = ' ' || c = '\t' || c = '\n' || c = '\r'

/-- Whether a character can be part of a numeral. -/
def isNumeric (c : Char) : Bool :=
  c.isDigit || c = '-' || c = '+' || c = '.' || c = 'e' || c = 'E'

/-- The token that a single character is. -/
def punctuation? : Char → Option Token
  | '\x7b' => some .openBrace
  | '\x7d' => some .closeBrace
  | '[' => some .openBracket
  | ']' => some .closeBracket
  | ',' => some .comma
  | ':' => some .colon
  | _ => none

/-- Takes a character between tokens. -/
def start (c : Char) : Option (Lexer × List Token) :=
  if isBlank c then some (between, [])
  else if c = '"' then some (string [], [])
  else if c.isDigit || c = '-' then some (numeral [c], [])
  else if c.isLower then some (word [c], [])
  else (punctuation? c).map fun token => (between, [token])

/-- The token of a completed numeral. -/
def numeralToken? (chars : List Char) : Option Token :=
  (Numeral.ofChars? chars.reverse).map fun n => .scalar (.number n)

/-- The token of a completed word. -/
def wordToken? (chars : List Char) : Option Token := (word? chars.reverse).map .scalar

/-- The token of a completed string. -/
def stringToken (units : List StringUnit) : Token :=
  .scalar (.string ((StringUnit.decode? units.reverse).map String.ofList))

/-- Takes one character, and yields the tokens that it completes. -/
def step (lexer : Lexer) (c : Char) : Option (Lexer × List Token) :=
  match lexer with
  | between => start c
  | string units =>
    if c = '"' then some (between, [stringToken units])
    else if c = '\\' then some (escape units, [])
    else if c.toNat < 0x20 then none
    else some (string (.char c :: units), [])
  | escape units =>
    if c = 'u' then some (code units 4 0, [])
    else (escaped? c).map fun d => (string (.char d :: units), [])
  | code units missing value => do
    let digit ← hexDigit? c
    let value := 16 * value + digit
    if missing ≤ 1 then some (string (.code value :: units), [])
    else some (code units (missing - 1) value, [])
  | numeral chars =>
    if isNumeric c then some (numeral (c :: chars), [])
    else do
      let token ← numeralToken? chars
      let (next, tokens) ← start c
      some (next, token :: tokens)
  | word chars =>
    if c.isLower then some (word (c :: chars), [])
    else do
      let token ← wordToken? chars
      let (next, tokens) ← start c
      some (next, token :: tokens)

/-- The tokens that the end of the document completes. -/
def finish : Lexer → Option (List Token)
  | between => some []
  | numeral chars => (numeralToken? chars).map ([·])
  | word chars => (wordToken? chars).map ([·])
  | _ => none

/-- The tokens of the rest of a document, put behind those in hand, which are kept
in reverse. -/
def run (lexer : Lexer) (found : List Token) : List Char → Option (List Token)
  | [] => (finish lexer).map fun tokens => found.reverse ++ tokens
  | c :: cs =>
    match step lexer c with
    | none => none
    | some (next, tokens) => run next (tokens.reverse ++ found) cs

end Lexer

/-- The tokens of a document. -/
def tokens? (document : String) : Option (List Token) :=
  Lexer.run .between [] document.toList

end Json

end ImmutableJava
