/-!
# The words of a command line

A command line is a list of words, and each word is read on its own: whether it is
an option, several options in one, or something else does not depend on the words
before it, except that a word `--` makes plain texts of all that follow.

* `--name` and `--name=value` spell an option in full.
* `-abc` is a cluster of one-letter options.  The first of them that takes a value
  takes the rest of the word as its value, a sign `=` in front of it left out; with
  nothing left in the word the value is still to come.
* `-` alone and every word that does not start with `-` is a plain text.

Which plain text is the value of which option is decided in
`ImmutableJava.CommandLine.Arguments`.
-/

namespace ImmutableJava

namespace CommandLine

/-- The options that take a value. -/
inductive ValueOption where
  /-- The configuration file. -/
  | config
  /-- The directory that sources are written to. -/
  | outDir
  /-- What a generated class names as its generator. -/
  | processorName
  /-- The annotation of a generated class. -/
  | marker
  /-- The tag of reported diagnostics. -/
  | diagnosticTag
  /-- Whether to use colour. -/
  | pretty
  /-- The form of the log. -/
  | logFormat
  deriving DecidableEq, Repr

/-- The options that take no value. -/
inductive Flag where
  /-- Print the sources. -/
  | printSources
  /-- Write no sources. -/
  | noEmit
  /-- Log what is done. -/
  | verbose
  /-- Explain the command line. -/
  | help
  /-- Name the version. -/
  | version
  deriving DecidableEq, Repr

/-- An option. -/
inductive Switch where
  /-- An option that takes a value. -/
  | valued (option : ValueOption)
  /-- An option that takes none. -/
  | flag (flag : Flag)
  deriving DecidableEq, Repr

/-- The full names of options, the usual name of each before its other one. -/
def longNames : List (String × Switch) :=
  [("config", .valued .config),
    ("out-dir", .valued .outDir), ("outDir", .valued .outDir),
    ("stdout", .flag .printSources),
    ("no-emit", .flag .noEmit), ("noEmit", .flag .noEmit),
    ("processor-name", .valued .processorName), ("processorName", .valued .processorName),
    ("generated-annotation", .valued .marker), ("generatedAnnotation", .valued .marker),
    ("diagnostic-tag", .valued .diagnosticTag), ("diagnosticTag", .valued .diagnosticTag),
    ("pretty", .valued .pretty),
    ("verbose", .flag .verbose),
    ("log-format", .valued .logFormat),
    ("help", .flag .help),
    ("version", .flag .version)]

/-- The one-letter names of options. -/
def shortNames : List (Char × Switch) :=
  [('c', .valued .config), ('o', .valued .outDir), ('v', .flag .verbose), ('h', .flag .help),
    ('V', .flag .version)]

namespace Switch

/-- The option with a full name. -/
def ofLong? (name : String) : Option Switch := (longNames.find? (·.1 = name)).map (·.2)

/-- The option with a one-letter name. -/
def ofShort? (letter : Char) : Option Switch := (shortNames.find? (·.1 = letter)).map (·.2)

/-- The usual full name of an option, with its dashes. -/
def spelling (switch : Switch) : String :=
  ((longNames.find? (·.2 = switch)).map fun entry => "--" ++ entry.1).getD ""

end Switch

/-- What a word, or a part of one, stands for. -/
inductive Token where
  /-- An option that takes a value, with the value if the word holds it. -/
  | valued (option : ValueOption) (attached? : Option String)
  /-- An option that takes no value. -/
  | flag (flag : Flag)
  /-- An option that takes no value, with one all the same. -/
  | flagWithValue (flag : Flag) (value : String)
  /-- What looks like an option and is none. -/
  | unknown (spelling : String)
  /-- A plain text, which may be the value of an option before it. -/
  | plain (text : String)
  /-- A plain text after the end of options. -/
  | trailing (text : String)
  deriving DecidableEq, Repr

namespace Token

/-- The token of an option in full, given without its dashes. -/
def ofLong (body : List Char) : Token :=
  let name := String.ofList (body.takeWhile (· ≠ '='))
  let value? :=
    match body.dropWhile (· ≠ '=') with
    | [] => none
    | _ :: value => some (String.ofList value)
  match Switch.ofLong? name, value? with
  | some (.valued option), attached? => valued option attached?
  | some (.flag f), none => flag f
  | some (.flag f), some value => flagWithValue f value
  | none, _ => unknown ("--" ++ name)

/-- The value in the rest of a cluster. -/
def attachedValue? : List Char → Option String
  | [] => none
  | '=' :: value => some (String.ofList value)
  | value => some (String.ofList value)

/-- The tokens of a cluster, given without its dash. -/
def ofCluster : List Char → List Token
  | [] => []
  | letter :: rest =>
    match Switch.ofShort? letter with
    | some (.flag f) => flag f :: ofCluster rest
    | some (.valued option) => [valued option (attachedValue? rest)]
    | none => [unknown (String.ofList ['-', letter])]

/-- The tokens of a word among options. -/
def ofWord (word : String) : List Token :=
  match word.toList with
  | '-' :: '-' :: body => [ofLong body]
  | '-' :: letter :: rest => ofCluster (letter :: rest)
  | _ => [plain word]

/-- The tokens of a command line. -/
def ofWords : List String → List Token
  | [] => []
  | word :: words => if word = "--" then words.map trailing else ofWord word ++ ofWords words

end Token

end CommandLine

end ImmutableJava
