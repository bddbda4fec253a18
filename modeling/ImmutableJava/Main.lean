import ImmutableJava.CommandLine.Session

/-!
# The program

The outer layer: a session on the files of the machine, and its output on the
standard streams.
-/

namespace ImmutableJava

namespace Disk

/-- The value of an action, or the reason why it failed. -/
def attempt {α : Type} (action : IO α) : IO (Except String α) := do
  match ← action.toBaseIO with
  | .ok a => return .ok a
  | .error e => return .error (toString e)

/-- What kind of entry a path leads to. -/
def kind? (path : Path) : IO (Option IO.FS.FileType) := do
  let file := (← IO.currentDir) / path.text
  match ← file.metadata.toBaseIO with
  | .ok metadata => return some metadata.type
  | .error _ => return none

/-- The files in a directory and below it. -/
partial def filesBelow (path : Path) : IO (List Path) := do
  let directory := (← IO.currentDir) / path.text
  let entries ← directory.readDir
  let files ← entries.toList.mapM fun entry => do
    let inner := path.join entry.fileName
    match ← kind? inner with
    | some .file => return [inner]
    | some .dir => filesBelow inner
    | _ => return []
  return files.flatten

/-- The files of the machine. -/
def fileSystem : FileSystem IO where
  isFile path := return (← kind? path) == some .file
  isDirectory path := return (← kind? path) == some .dir
  readText path := attempt (IO.FS.readFile path.text)
  filesBelow path := attempt (filesBelow path)
  makeDirectories path := attempt (IO.FS.createDirAll path.text)
  writeText path text := attempt (IO.FS.writeFile path.text text)

end Disk

/-- What the environment says about the terminal. -/
def terminal : IO CommandLine.Terminal :=
  return {
    output := ← (← IO.getStdout).isTty
    error := ← (← IO.getStderr).isTty
    force? := ← IO.getEnv "CLICOLOR_FORCE"
    forbid? := ← IO.getEnv "NO_COLOR"
    leaveOut? := ← IO.getEnv "CLICOLOR" }

/-- Runs a command line in the working directory, and prints what is to be seen. -/
def runProgram (words : List String) : IO UInt32 := do
  let cwd : Path := ⟨(← IO.currentDir).toString⟩
  let output ← CommandLine.Session.run Disk.fileSystem cwd (← terminal) words
  IO.print output.output
  IO.eprint output.error
  return output.exitCode.toUInt32

end ImmutableJava

/-- The entry point. -/
def main (words : List String) : IO UInt32 := ImmutableJava.runProgram words
