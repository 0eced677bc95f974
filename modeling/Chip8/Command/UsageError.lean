import Chip8.Command.Help
import Chip8.Command.Numeral
import Chip8.Text

/-!
# What is wrong with a command line

## Main definitions

* `Command.Slot`, `Command.Flag` — what can be said after the name of the command
* `Command.UsageError`, `Command.UsageError.message`
-/

namespace Chip8.Command

/-- What takes a value. -/
inductive Slot
  | romPath
  | output
  | loadAddress
  deriving DecidableEq, Repr

/-- How a slot is named to the user. -/
def Slot.text : Slot → String
  | romPath => "<ROM_PATH>"
  | output => "--output <OUTPUT>"
  | loadAddress => "--load-address <LOAD_ADDRESS>"

/-- What is there or is not. -/
inductive Flag
  | bareUnknown
  | strict
  | help (extent : Extent)
  | version
  deriving DecidableEq, Repr

/-- How a flag is named to the user. -/
def Flag.text : Flag → String
  | bareUnknown => "--bare-unknown"
  | strict => "--strict"
  | help _ => "--help"
  | version => "--version"

/-- Why a command line is not understood. -/
inductive UsageError
  | unknownCommand (text : String)
  | unexpectedArgument (text : String)
  | unexpectedValue (value : String) (flag : Flag)
  | missingValue (slot : Slot)
  | repeatedSlot (slot : Slot)
  | repeatedFlag (flag : Flag)
  | invalidAddress (value : String) (error : NumeralError)
  | missingPath
  deriving DecidableEq, Repr

namespace UsageError

/-- A text in quotes, as far as it can be shown. -/
def quoted (text : String) : String := "'" ++ Text.printable text ++ "'"

/-- That an option was given more than once. -/
def repeatedText (option : String) : String :=
  "the argument " ++ quoted option ++ " cannot be used multiple times"

/-- How the user is told. -/
def message : UsageError → String
  | unknownCommand text => "unrecognized subcommand " ++ quoted text
  | unexpectedArgument text => "unexpected argument " ++ quoted text ++ " found"
  | unexpectedValue value flag =>
    "unexpected value " ++ quoted value ++ " for " ++ quoted flag.text ++
      " found; no more were expected"
  | missingValue slot => "a value is required for " ++ quoted slot.text ++ " but none was supplied"
  | repeatedSlot slot => repeatedText slot.text
  | repeatedFlag flag => repeatedText flag.text
  | invalidAddress value error =>
    "invalid value " ++ quoted value ++ " for " ++ quoted Slot.loadAddress.text ++ ": " ++
      error.message
  | missingPath =>
    "the following required arguments were not provided:\n  " ++ Slot.romPath.text

end UsageError

end Chip8.Command
