import Chip8.Text

/-!
# Refusals and paths

Reading and writing can be refused from outside. The reasons are told apart because they are
reported in words, and the words are fixed.

A path is a sequence of names to follow, from the root or from the working directory. Empty names
between slashes say nothing and are left out, but a slash at the end is remembered: it insists on a
directory. Some texts are no paths at all and are refused before any directory is looked at.

## Main definitions

* `SystemFault`, `SystemFault.text`
* `Files.Path`, `Files.Path.parse`
-/

namespace Chip8

/-- Why reading or writing was refused. -/
inductive SystemFault
  | notFound
  | denied
  | notDirectory
  | isDirectory
  | nameTooLong
  | noSpace
  | outOfMemory
  /-- A path that holds the zero character. -/
  | zeroInPath
  /-- A writer that takes none of what it is offered. -/
  | nothingTaken
  | other (text : String)
  deriving DecidableEq, Repr

/-- How the user is told. -/
def SystemFault.text : SystemFault → String
  | notFound => "No such file or directory (os error 2)"
  | denied => "Permission denied (os error 13)"
  | notDirectory => "Not a directory (os error 20)"
  | isDirectory => "Is a directory (os error 21)"
  | nameTooLong => "File name too long (os error 36)"
  | noSpace => "No space left on device (os error 28)"
  | outOfMemory => "out of memory"
  | zeroInPath => "file name contained an unexpected NUL byte"
  | nothingTaken => "failed to write whole buffer"
  | other text => text

namespace Files

/-- A path, read from its text. -/
structure Path where
  /-- Whether it starts at the root. -/
  absolute : Bool
  names : List String
  /-- Whether it ends in a slash. -/
  slashed : Bool
  deriving DecidableEq, Repr

namespace Path

/-- The longest path, in bytes. -/
def longest : Nat := 4095

/-- The longest name, in bytes. -/
def longestName : Nat := 255

/-- Reads a path. -/
def parse (text : String) : Except SystemFault Path :=
  if '\x00' ∈ text.toList then .error .zeroInPath
  else if text.isEmpty then .error .notFound
  else if text.utf8ByteSize > longest then .error .nameTooLong
  else .ok {
    absolute := text.toList.head? = some '/'
    names := (Text.pieces '/' text).filter fun name => !name.isEmpty
    slashed := text.toList.getLast? = some '/' }

end Path

end Files

end Chip8
