import ImmutableJava.CommandLine.Token
import ImmutableJava.LogSettings
import ImmutableJava.Path

/-!
# The arguments of a command line

Reading a command line goes through its tokens from the left.  An option whose value
is not in its own word stays *pending*: a plain text that follows directly is its
value.  Plain texts that are no values are inputs, and inputs in a row are pending
together.  What is pending is *settled* by the next option, by the next text that
does not belong to it, or by the end: then it is checked, and stored.

So the first problem from the left is the one that is reported, with one exception.
A word that is no option, or that gives a value to an option without one, is
reported at once, and what is pending just before it is never checked.
-/

namespace ImmutableJava

namespace CommandLine

/-- What a command line asks for. -/
structure Arguments where
  /-- The configuration file. -/
  config? : Option Path := none
  /-- The directory that sources are written to. -/
  outDir? : Option Path := none
  /-- Whether the sources are printed. -/
  printSources : Bool := false
  /-- Whether no source is written. -/
  noEmit : Bool := false
  /-- What a generated class names as its generator. -/
  processorName? : Option String := none
  /-- The annotation of a generated class. -/
  marker? : Option String := none
  /-- The tag of reported diagnostics. -/
  diagnosticTag? : Option String := none
  /-- Whether to use colour. -/
  pretty? : Option Bool := none
  /-- Whether to log what is done. -/
  verbose : Bool := false
  /-- The form of the log. -/
  logFormat? : Option LogFormat := none
  /-- The declaration files, and the directories to search for them. -/
  inputs : List Path := []
  deriving DecidableEq, Repr

/-- Why a command line is refused. -/
inductive ArgumentError where
  /-- A word looks like an option and is none. -/
  | unknown (spelling : String)
  /-- An option has no value, or none that it can have. -/
  | invalidValue (option : ValueOption) (text? : Option String)
  /-- An input is empty. -/
  | emptyInput
  /-- An option is given twice. -/
  | repeated (option : Switch)
  /-- An option without a value is given one. -/
  | unneededValue (option : Flag) (value : String)
  deriving DecidableEq, Repr

/-- The text shown for a refusal. -/
def ArgumentError.message : ArgumentError → String
  | unknown spelling => "unexpected argument '" ++ spelling ++ "' found"
  | invalidValue option none =>
    "a value is required for '" ++ (Switch.valued option).spelling ++ "' but none was supplied"
  | invalidValue option (some text) =>
    "invalid value '" ++ text ++ "' for '" ++ (Switch.valued option).spelling ++ "'"
  | emptyInput => "a value is required for '[INPUT]...' but none was supplied"
  | repeated option =>
    "the argument '" ++ option.spelling ++ "' cannot be used multiple times"
  | unneededValue option value =>
    "unexpected value '" ++ value ++ "' for '" ++ (Switch.flag option).spelling ++ "' found"

/-- Why reading a command line ends without arguments. -/
inductive Interruption where
  /-- The explanation of the command line is asked for. -/
  | help
  /-- The version is asked for. -/
  | version
  /-- The command line is refused. -/
  | refusal (error : ArgumentError)
  deriving DecidableEq, Repr

namespace Arguments

/-! ## Storing -/

/-- The path that a text spells, unless it is empty. -/
def path? (text : String) : Option Path := if text = "" then none else some ⟨text⟩

/-- The truth value that a text names. -/
def truth? (text : String) : Option Bool :=
  if text = "true" then some true else if text = "false" then some false else none

/-- Whether an option has a value already. -/
def isGiven (a : Arguments) : ValueOption → Bool
  | .config => a.config?.isSome
  | .outDir => a.outDir?.isSome
  | .processorName => a.processorName?.isSome
  | .marker => a.marker?.isSome
  | .diagnosticTag => a.diagnosticTag?.isSome
  | .pretty => a.pretty?.isSome
  | .logFormat => a.logFormat?.isSome

/-- The arguments with the value of an option, if the text is one. -/
def withValue? (a : Arguments) (option : ValueOption) (text : String) : Option Arguments :=
  match option with
  | .config => (path? text).map fun path => { a with config? := some path }
  | .outDir => (path? text).map fun path => { a with outDir? := some path }
  | .processorName => some { a with processorName? := some text }
  | .marker => some { a with marker? := some text }
  | .diagnosticTag => some { a with diagnosticTag? := some text }
  | .pretty => (truth? text).map fun truth => { a with pretty? := some truth }
  | .logFormat => (LogFormat.ofName? text).map fun format => { a with logFormat? := some format }

/-- Stores the value of an option. -/
def store (a : Arguments) (option : ValueOption) (text? : Option String) :
    Except ArgumentError Arguments :=
  match text? with
  | none => .error (.invalidValue option none)
  | some text =>
    if a.isGiven option then .error (.repeated (.valued option))
    else
      match a.withValue? option text with
      | some a => .ok a
      | none => .error (.invalidValue option text)

/-- Stores inputs. -/
def storeInputs (a : Arguments) (texts : List String) : Except ArgumentError Arguments :=
  match texts.mapM path? with
  | some paths => .ok { a with inputs := a.inputs ++ paths }
  | none => .error .emptyInput

/-- Stores an option without a value, or ends the reading if it asks for that. -/
def storeFlag (a : Arguments) (f : Flag) : Except Interruption Arguments :=
  let once (isGiven : Bool) (a : Arguments) : Except Interruption Arguments :=
    if isGiven then .error (.refusal (.repeated (.flag f))) else .ok a
  match f with
  | .printSources => once a.printSources { a with printSources := true }
  | .noEmit => once a.noEmit { a with noEmit := true }
  | .verbose => once a.verbose { a with verbose := true }
  | .help => .error .help
  | .version => .error .version

end Arguments

/-! ## Reading -/

/-- What has been read and not been checked. -/
inductive Pending where
  /-- An option, with its value if that has been read. -/
  | valued (option : ValueOption) (text? : Option String)
  /-- Inputs. -/
  | inputs (texts : List String)
  deriving DecidableEq, Repr

/-- How far the reading of a command line has come. -/
structure Progress where
  /-- What is settled. -/
  settled : Arguments := {}
  /-- What is pending. -/
  pending? : Option Pending := none
  deriving DecidableEq, Repr

namespace Progress

/-- Checks and stores what is pending. -/
def settle (p : Progress) : Except Interruption Arguments :=
  match p.pending? with
  | none => .ok p.settled
  | some (.valued option text?) => (p.settled.store option text?).mapError .refusal
  | some (.inputs texts) => (p.settled.storeInputs texts).mapError .refusal

/-- Reads a text that is an input. -/
def readInput (p : Progress) (text : String) : Except Interruption Progress :=
  match p.pending? with
  | some (.inputs texts) => .ok { p with pending? := some (.inputs (texts ++ [text])) }
  | _ => return ⟨← p.settle, some (.inputs [text])⟩

/-- Reads a token. -/
def read (p : Progress) : Token → Except Interruption Progress
  | .unknown spelling => .error (.refusal (.unknown spelling))
  | .flagWithValue f value => .error (.refusal (.unneededValue f value))
  | .flag f => do return ⟨← (← p.settle).storeFlag f, none⟩
  | .valued option none => return ⟨← p.settle, some (.valued option none)⟩
  | .valued option (some text) => do
    return ⟨← ((← p.settle).store option text).mapError .refusal, none⟩
  | .plain text =>
    match p.pending? with
    | some (.valued option none) => .ok { p with pending? := some (.valued option text) }
    | _ => p.readInput text
  | .trailing text => p.readInput text

end Progress

/-- The arguments that a command line gives. -/
def Arguments.ofWords (words : List String) : Except Interruption Arguments := do
  (← (Token.ofWords words).foldlM Progress.read {}).settle

end CommandLine

end ImmutableJava
