import Chip8.Memory
import Chip8.Operation

/-!
# Options, and one line of a listing

How an image is listed depends on where it is placed, on how words are shown that are no
instructions, and on what becomes of an odd last byte. The first two can be seen in a line.

A line is one word at its address. Its text is fixed-width up to the instruction: four digits for
the address, two for each byte, blanks between them.

The style is part of a line even where its text does not show it. So two lines are equal only if
they come from listings of one style.

## Main definitions

* `Listing.UnknownStyle` — how a word that is no instruction is shown
* `Listing.TrailingByte` — what becomes of an odd last byte
* `Listing.Options`
* `Listing.Line`, `Listing.Line.ofBytes`
* `Listing.Line.word`, `Listing.Line.isUnknown`
* `Listing.Line.text`
-/

namespace Chip8.Listing

/-! ### Options -/

/-- The bytes of a program. -/
abbrev Image := List Byte

/-- How a word that is no instruction is shown. -/
inductive UnknownStyle
  /-- With its address and its bytes, like any other word. -/
  | addressed
  /-- As the marker alone. -/
  | bare
  deriving DecidableEq, Repr

/-- What becomes of the last byte of an image of odd length. -/
inductive TrailingByte
  /-- It is left out, with a warning. -/
  | truncate
  /-- The whole image is refused. -/
  | reject
  deriving DecidableEq, Repr

/-- How an image is listed. -/
structure Options where
  /-- The address of the first byte. -/
  loadAddress : Address := programStart
  unknownStyle : UnknownStyle := .addressed
  trailingByte : TrailingByte := .truncate
  deriving DecidableEq, Repr

/-! ### Lines -/

/-- A word at its address, as it is listed. -/
structure Line where
  address : Address
  /-- The byte stored first. -/
  high : Byte
  low : Byte
  /-- The instruction the word stands for, if there is one. -/
  body : Option Instruction
  style : UnknownStyle
  deriving DecidableEq, Repr

namespace Line

/-- The line of the word stored at `address` as `high`, then `low`. -/
def ofBytes (style : UnknownStyle) (address : Address) (high low : Byte) : Line where
  address := address
  high := high
  low := low
  body := Instruction.decode? (Word.ofBytes high low)
  style := style

/-- The word of the line. -/
def word (l : Line) : Word := Word.ofBytes l.high l.low

/-- Whether the word is no instruction. -/
def isUnknown (l : Line) : Bool := l.body.isNone

/-- The address and bytes in front of what the word stands for. -/
def columns (l : Line) : String :=
  Hex.text .lower 4 l.address.toNat ++ " " ++ Hex.text .lower 2 l.high.toNat ++ " " ++
    Hex.text .lower 2 l.low.toNat ++ " "

/-- The text of the line. In the bare style an unknown word is shown without its columns. -/
def text (l : Line) : String :=
  match l.body, l.style with
  | some i, _ => l.columns ++ i.text
  | none, .addressed => l.columns ++ unknownMarker
  | none, .bare => unknownMarker

/-- The text as it is delivered, closed by a line break. -/
def ended (l : Line) : String := l.text ++ "\n"

end Line

end Chip8.Listing
