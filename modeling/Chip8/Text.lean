import Chip8.Word

/-!
# Text

Three things are done with text besides joining it. It is split at a character, it is turned into
bytes, and of text that comes from outside only a part is shown.

## Pieces and bytes

Splitting keeps empty pieces, also at both ends, so a text can be put together again from its
pieces, and there is always one piece more than there are separators.

Files and streams hold bytes. Text goes into them in its UTF-8 form, and joining texts joins their
bytes, so a text may be delivered piece by piece.

## What a plain stream shows

Text that comes from outside can hold control characters and escape sequences, which a terminal
would act on. A stream that is no terminal leaves both out.

A sequence begins with the escape character, and its next character decides its kind. Most kinds
end with a character of a given range. The ones that carry a string end with a cancelling
character, or else with a byte that closes strings; the latter is looked for among the bytes of a
character, so a character outside ASCII can close a string by one of its bytes. A title is a string
that ends with the bell instead. An escape begins a new sequence wherever it stands.

A tab or line break is never part of a sequence unless within a string. It is shown, and it suspends
the sequence: what follows is shown as well, up to the next control character, and there the
sequence is resumed. A character outside ASCII that is shown ends a suspended sequence for good.

## Main definitions

* `Text.splitList`, `Text.pieces` — the pieces between the occurrences of a character
* `Text.bytes` — the bytes of a text
* `Text.Sequence`, `Text.Sequence.after` — how far a sequence has come
* `Text.Scanner`, `Text.Scanner.step` — what is done with one character
* `Text.printable` — what is shown of a text

## Main results

* `Text.splitList_eq_splitOn` — lists are split in the same way
* `Text.bytes_append`, `Text.length_bytes` — the bytes of a joined text, and how many there are
-/

namespace Chip8.Text

/-! ### Pieces -/

/-- The pieces of `cs` between the occurrences of `sep`. -/
def splitList (sep : Char) : List Char → List (List Char)
  | [] => [[]]
  | c :: cs =>
    if c = sep then [] :: splitList sep cs else (splitList sep cs).modifyHead (c :: ·)

/-- Lists are split in the same way. -/
theorem splitList_eq_splitOn (sep : Char) (cs : List Char) : splitList sep cs = cs.splitOn sep := by
  induction cs with
  | nil => rfl
  | cons c cs ih =>
    rw [splitList, ih, List.splitOn_cons_eq_if_modifyHead]
    simp

/-- The pieces of `s` between the occurrences of `sep`. -/
def pieces (sep : Char) (s : String) : List String :=
  (splitList sep s.toList).map String.ofList

/-! ### Bytes -/

/-- The UTF-8 form of a text. -/
def bytes (s : String) : List Byte := s.toByteArray.data.toList.map UInt8.toBitVec

@[simp] theorem bytes_append (s t : String) : bytes (s ++ t) = bytes s ++ bytes t := by
  simp [bytes]

@[simp] theorem bytes_empty : bytes "" = [] := by
  simp [bytes]

theorem length_bytes (s : String) : (bytes s).length = s.utf8ByteSize := by
  simp [bytes, ← String.size_toByteArray]

/-! ### Sequences -/

/-- How far a sequence has come. -/
inductive Sequence
  /-- There is none. -/
  | absent
  /-- Its kind is not known yet. -/
  | escape
  /-- A short sequence, up to its last character. -/
  | short
  /-- A control sequence, up to its last character. -/
  | control
  /-- A device string whose parameters may begin. -/
  | deviceEntry
  /-- The parameters of a device string. -/
  | deviceParameters
  /-- Between the parameters of a device string and the string itself. -/
  | deviceIntermediate
  /-- A string. -/
  | string
  /-- A title. -/
  | title
  deriving DecidableEq, Repr

namespace Sequence

/-- Whether tabs and line breaks belong to the sequence. -/
def keepsBreaks : Sequence → Bool
  | deviceEntry => true
  | deviceParameters => true
  | deviceIntermediate => true
  | string => true
  | title => true
  | _ => false

/-- What the character behind the escape begins. -/
def ofKind (c : Char) : Sequence :=
  if c < '0' then short
  else match c with
    | '[' => control
    | ']' => title
    | 'P' => deviceEntry
    | 'X' => string
    | '^' => string
    | '_' => string
    | _ => absent

/-- The sequence behind a printing character of ASCII. -/
def after (s : Sequence) (c : Char) : Sequence :=
  match s with
  | absent => absent
  | escape => ofKind c
  | short => if c < '0' then short else absent
  | control => if c < '@' then control else absent
  | deviceEntry =>
    if c < '0' then deviceIntermediate else if c < '@' then deviceParameters else string
  | deviceParameters =>
    if c < '0' then deviceIntermediate else if c < '<' then deviceParameters else string
  | deviceIntermediate => if c < '0' then deviceIntermediate else string
  | string => string
  | title => title

end Sequence

/-! ### Characters -/

/-- Tabs and the characters that break a line or page. -/
def isBreak (c : Char) : Bool := c == '\t' || c == '\n' || c == '\x0c' || c == '\r'

/-- Control characters of ASCII. -/
def isControl (c : Char) : Bool := c < ' ' || c == '\x7f'

/-- Characters that cancel any sequence. -/
def isCancel (c : Char) : Bool := c == '\x18' || c == '\x1a'

/-- Characters of ASCII. -/
def isAscii (c : Char) : Bool := c ≤ '\x7f'

/-- Whether a byte that closes strings is among the bytes of a character. -/
def closesString (c : Char) : Bool := (String.utf8EncodeChar c).contains 0x9c

/-! ### Scanning -/

/-- What has to be remembered between two characters. -/
structure Scanner where
  sequence : Sequence := .absent
  /-- Whether the sequence is suspended. -/
  suspended : Bool := false
  deriving DecidableEq, Repr

namespace Scanner

/-- Whether a printing character is shown. -/
def isShowing (s : Scanner) : Bool := s.suspended || s.sequence == .absent

/-- The scanner behind a character, where that is part of a sequence. -/
def within (s : Scanner) (c : Char) : Scanner :=
  if isControl c then
    if c == '\x07' && s.sequence == .title then {} else s
  else if isAscii c then { sequence := s.sequence.after c }
  else if s.sequence == .string && closesString c then {}
  else s

/-- Whether a character is shown, and the scanner behind it. -/
def step (s : Scanner) (c : Char) : Bool × Scanner :=
  if c == '\x1b' then (false, { sequence := .escape })
  else if isCancel c then (false, {})
  else if isBreak c && !s.sequence.keepsBreaks then (true, { s with suspended := true })
  else if !s.isShowing then (false, s.within c)
  else if isControl c then (false, { s with suspended := false })
  else (true, if isAscii c then s else {})

end Scanner

/-- What is shown of `cs`. -/
def printableFrom (s : Scanner) : List Char → List Char
  | [] => []
  | c :: cs =>
    let next := s.step c
    if next.1 then c :: printableFrom next.2 cs else printableFrom next.2 cs

/-- What is shown of a text. -/
def printable (s : String) : String := String.ofList (printableFrom {} s.toList)

end Chip8.Text
