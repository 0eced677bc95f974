/-!
# Hexadecimal text

Numbers are written in base sixteen throughout, in one of two ways.

* `digits` writes exactly as many digits as it is told, which is what a column of a listing needs.
  It keeps the low digits of a number that is too long; every caller passes a number of a fixed
  width, so none is lost.
* `Layout.text` writes the fewest digits that hold the number and then pads. Padding only ever
  adds characters, so no digit is lost whatever the width.

## Main definitions

* `Hex.Case` — lower-case or upper-case digits
* `Hex.digit`, `Hex.digits`, `Hex.text` — one digit, and a number in a fixed count of digits
* `Hex.size` — how many digits a number needs
* `Hex.Layout` — sign, marker and padding of a free-standing number

## Main results

* `Hex.length_digits` — the count of digits is the one asked for
* `Hex.lt_pow_size` — the digits that `size` counts hold the number
-/

namespace Chip8.Hex

/-- Which letters stand for the digits from ten to fifteen. -/
inductive Case
  | lower
  | upper
  deriving DecidableEq, Repr

/-! ### Digits -/

/-- The digits in the order of their values, with small letters. -/
def lowerDigits : List Char :=
  ['0', '1', '2', '3', '4', '5', '6', '7', '8', '9', 'a', 'b', 'c', 'd', 'e', 'f']

/-- The digits in the order of their values, with capital letters. -/
def upperDigits : List Char :=
  ['0', '1', '2', '3', '4', '5', '6', '7', '8', '9', 'A', 'B', 'C', 'D', 'E', 'F']

/-- The digits in the order of their values. -/
def Case.alphabet : Case → List Char
  | .lower => lowerDigits
  | .upper => upperDigits

/-- The digit of value `d % 16`. -/
def digit (c : Case) (d : Nat) : Char :=
  c.alphabet.getD (d % 16) '0'

/-- The last `k` digits of `v`, with zeros in front where `v` has fewer. -/
def digits (c : Case) : Nat → Nat → List Char
  | 0, _ => []
  | k + 1, v => digits c k (v / 16) ++ [digit c v]

@[simp] theorem length_digits (c : Case) (k v : Nat) : (digits c k v).length = k := by
  induction k generalizing v with
  | zero => rfl
  | succ k ih => simp [digits, ih]

/-- The last `k` digits of `v` as text. -/
def text (c : Case) (k v : Nat) : String :=
  String.ofList (digits c k v)

@[simp] theorem toList_text (c : Case) (k v : Nat) : (text c k v).toList = digits c k v :=
  String.toList_ofList

/-- How many digits `v` needs; zero needs one. -/
def size (v : Nat) : Nat :=
  if v < 16 then 1 else size (v / 16) + 1

theorem lt_pow_size (v : Nat) : v < Nat.pow 16 (size v) := by
  fun_induction size v with
  | case1 v h => exact h
  | case2 v h ih =>
    show v < Nat.pow 16 (size (v / 16)) * 16
    omega

/-! ### Free-standing numbers -/

/-- Where the padding goes. Of an odd amount around the middle, the larger part comes after. -/
inductive Side
  | before
  | around
  | after
  deriving DecidableEq, Repr

/-- How a number is brought to a least width. -/
inductive Padding
  /-- As it is. -/
  | none
  /-- Zeros between the sign or marker and the digits. -/
  | zeros (width : Nat)
  /-- A character next to the whole, on the given side. -/
  | fill (char : Char) (side : Side) (width : Nat)
  deriving DecidableEq, Repr

/-- How a free-standing number is written. -/
structure Layout where
  case : Case := .upper
  /-- Whether a plus sign stands in front. -/
  plus : Bool := false
  /-- Whether `0x` stands before the digits. It is lower-case whatever the digits are. -/
  marker : Bool := false
  padding : Padding := .none
  deriving DecidableEq, Repr

/-- What stands before the digits. -/
def Layout.lead (l : Layout) : List Char :=
  (if l.plus then ['+'] else []) ++ (if l.marker then ['0', 'x'] else [])

/-- Brings `body`, led by `lead`, to the width that the padding asks for. -/
def Padding.apply (p : Padding) (lead body : List Char) : List Char :=
  match p with
  | .none => lead ++ body
  | .zeros width =>
    lead ++ List.replicate (width - (lead.length + body.length)) '0' ++ body
  | .fill char side width =>
    let missing := width - (lead.length + body.length)
    let front := match side with
      | .before => missing
      | .around => missing / 2
      | .after => 0
    List.replicate front char ++ (lead ++ body) ++ List.replicate (missing - front) char

/-- The number `v` in the given layout. -/
def Layout.text (l : Layout) (v : Nat) : String :=
  String.ofList (l.padding.apply l.lead (digits l.case (size v) v))

end Chip8.Hex
