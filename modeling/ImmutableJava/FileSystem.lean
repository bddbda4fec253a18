import ImmutableJava.Path

/-!
# File systems

A run reads and writes files through a `FileSystem`: six operations on paths, in a
monad of the file system's choice.  What a run does can then be stated without a
disk, over a file system that is a value (`ImmutableJava.FileSystem.Tree`).

An operation that can fail answers with the reason in the file system's own words.
-/

namespace ImmutableJava

/-- The operations that a run needs from a file system. -/
structure FileSystem (m : Type → Type) where
  /-- Whether a path leads to a file. -/
  isFile : Path → m Bool
  /-- Whether a path leads to a directory. -/
  isDirectory : Path → m Bool
  /-- The text of a file. -/
  readText : Path → m (Except String String)
  /-- The files in a directory and below it, as paths that start with its path. -/
  filesBelow : Path → m (Except String (List Path))
  /-- Makes a directory and those around it, as far as they are missing. -/
  makeDirectories : Path → m (Except String Unit)
  /-- Writes a file, in place of any text that it had. -/
  writeText : Path → String → m (Except String Unit)

end ImmutableJava
