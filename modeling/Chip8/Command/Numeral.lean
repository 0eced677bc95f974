import Chip8.Word

/-!
# Addresses on the command line

An address is written in base ten, or in base sixteen after `0x` or `0X`. One plus sign may stand
before the digits; any number of zeros may lead them. It is read from the left, and the first place
at which something is wrong decides what is reported: a character that is no digit, or a number
that has grown past the largest address.

## Main definitions

* `Command.NumeralError`, `Command.NumeralError.message`
* `Command.digitValue?` — the value of a digit in a base
* `Command.readDigits`, `Command.readNumber`, `Command.readAddress`
-/

namespace Chip8.Command

/-- Why a text is no number, or none that an address can be. -/
inductive NumeralError
  | empty
  | invalidDigit
  | tooLarge
  deriving DecidableEq, Repr

/-- How the user is told. -/
def NumeralError.message : NumeralError → String
  | empty => "cannot parse integer from empty string"
  | invalidDigit => "invalid digit found in string"
  | tooLarge => "number too large to fit in target type"

/-- The value of a digit or letter, whatever the base. -/
def alphanumericValue? (c : Char) : Option Nat :=
  if '0' ≤ c ∧ c ≤ '9' then some (c.toNat - '0'.toNat)
  else if 'a' ≤ c ∧ c ≤ 'z' then some (c.toNat - 'a'.toNat + 10)
  else if 'A' ≤ c ∧ c ≤ 'Z' then some (c.toNat - 'A'.toNat + 10)
  else none

/-- The value of a digit in a base. -/
def digitValue? (base : Nat) (c : Char) : Option Nat :=
  (alphanumericValue? c).filter (· < base)

/-- Reads digits behind those that made up `v`. -/
def readDigits (base : Nat) (v : Nat) : List Char → Except NumeralError Nat
  | [] => .ok v
  | c :: rest =>
    match digitValue? base c with
    | none => .error .invalidDigit
    | some d => if base * v + d < 0x10000 then readDigits base (base * v + d) rest
      else .error .tooLarge

/-- Reads a number in a base, with or without a plus sign. -/
def readNumber (base : Nat) : List Char → Except NumeralError Nat
  | [] => .error .empty
  | ['+'] => .error .invalidDigit
  | '+' :: digits => readDigits base 0 digits
  | digits => readDigits base 0 digits

/-- Reads an address. -/
def readAddress (text : String) : Except NumeralError Address :=
  (match text.toList with
    | '0' :: 'x' :: digits => readNumber 16 digits
    | '0' :: 'X' :: digits => readNumber 16 digits
    | digits => readNumber 10 digits).map (BitVec.ofNat 16)

end Chip8.Command
