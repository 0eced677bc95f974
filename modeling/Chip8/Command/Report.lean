import Chip8.Log
import Chip8.Text

/-!
# What is written to standard error

A text that has line breaks of its own is indented from its second line on, so that it can be told
from the next text.

Messages are written as a plain stream shows them. A message that ends in the middle of a string
takes its own line break along, and what is written next continues its line. A failure is written
as it is.

## Main definitions

* `Command.hanging` — a text, its further lines indented
* `Command.messageText` — a message of the log
* `Command.failureText` — a failure and what caused it
-/

namespace Chip8.Command

/-- The text with blanks behind each of its line breaks. -/
def hanging (indent : Nat) (text : String) : String :=
  String.ofList (text.toList.flatMap fun c =>
    if c = '\n' then '\n' :: List.replicate indent ' ' else [c])

/-- The name of a level, as wide as the longest of them. -/
def levelColumn (level : Log.Level) : String :=
  level.name ++ String.ofList (List.replicate (5 - level.name.length) ' ')

/-- A message behind its level and the component that speaks. -/
def messageText (m : Log.Message) : String :=
  Text.printable
    ("[" ++ levelColumn m.level ++ " " ++ m.source ++ "] " ++ hanging 4 m.text ++ "\n")

/-- The causes of a failure, each on a new line, numbered if there are several. -/
def causeText : List String → String
  | [cause] => "\n    " ++ hanging 4 cause
  | causes => String.join (causes.zipIdx.map fun (cause, i) =>
      "\n    " ++ i.repr ++ ": " ++ hanging 7 cause)

/-- A failure, followed by what caused it, the nearest cause first. -/
def failureText (failure : String) (causes : List String) : String :=
  "Error: " ++ failure ++
    (if causes.isEmpty then "" else "\n\nCaused by:" ++ causeText causes) ++ "\n"

end Chip8.Command
