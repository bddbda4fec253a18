/-!
# Colour on a terminal

Terminal escapes are used when colour is wanted and the terminal takes them.  Colour
is wanted when the command line says so, and where it says nothing, when the error
stream is a terminal.  Whether escapes are taken is settled by the first of these
that says anything: a variable that forces them, a variable that forbids them, a
variable that asks for them to be left out, and whether the output stream is a
terminal.

A variable with the value `0` does not force escapes, but any value forbids them.
-/

namespace ImmutableJava

namespace CommandLine

/-- What is known about the terminal of a run. -/
structure Terminal where
  /-- Whether the output stream is a terminal. -/
  output : Bool := false
  /-- Whether the error stream is a terminal. -/
  error : Bool := false
  /-- The variable that forces escapes. -/
  force? : Option String := none
  /-- The variable that forbids escapes. -/
  forbid? : Option String := none
  /-- The variable that leaves escapes out when its value is `0`. -/
  leaveOut? : Option String := none
  deriving DecidableEq, Repr

namespace Terminal

/-- Whether the terminal takes escapes. -/
def takesEscapes (t : Terminal) : Bool :=
  if t.force?.any (· ≠ "0") then true
  else if t.forbid?.isSome then false
  else t.leaveOut? ≠ some "0" && t.output

/-- Whether to use colour, given what the command line says. -/
def usesColor (t : Terminal) (wanted? : Option Bool) : Bool :=
  wanted?.getD t.error && t.takesEscapes

end Terminal

end CommandLine

end ImmutableJava
