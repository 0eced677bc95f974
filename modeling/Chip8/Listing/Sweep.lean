import Chip8.Listing.Line

/-!
# Sweeping over an image

A sweep is a place in an image: the bytes that are left and the address of the first of them. Each
step takes two bytes and yields the line of their word. A last byte without a partner is never
yielded, and a sweep that has run out stays where it is.

Every way to use a sweep is given twice, as a step that returns the sweep it leaves behind and, in
`toList`, as the list of all lines still to come.

## Main definitions

* `Listing.linesFrom` — all lines of an image placed at an address
* `Listing.Sweep`
* `Listing.Sweep.toList`, `Listing.Sweep.size` — the lines to come, and how many
* `Listing.Sweep.sizeHint` — what is known of their number beforehand
* `Listing.Sweep.next`, `Listing.Sweep.nth`, `Listing.Sweep.nextKnown`, `Listing.Sweep.drain`

## Main results

* `Listing.length_linesFrom`, `Listing.Sweep.length_toList` — one line for every two bytes
-/

namespace Chip8.Listing

/-- The lines of `image`, its first byte being at `address`. -/
def linesFrom (style : UnknownStyle) (address : Address) : Image → List Line
  | high :: low :: rest =>
    Line.ofBytes style address high low :: linesFrom style (address + 2) rest
  | _ => []

@[simp] theorem linesFrom_nil (style : UnknownStyle) (address : Address) :
    linesFrom style address [] = [] := rfl

@[simp] theorem linesFrom_singleton (style : UnknownStyle) (address : Address) (b : Byte) :
    linesFrom style address [b] = [] := rfl

@[simp] theorem linesFrom_cons_cons (style : UnknownStyle) (address : Address) (high low : Byte)
    (rest : Image) :
    linesFrom style address (high :: low :: rest) =
      Line.ofBytes style address high low :: linesFrom style (address + 2) rest := rfl

theorem length_linesFrom (style : UnknownStyle) :
    ∀ (address : Address) (image : Image),
      (linesFrom style address image).length = image.length / 2
  | _, [] => rfl
  | _, [_] => by simp
  | address, _ :: _ :: rest => by
    simp only [linesFrom_cons_cons, List.length_cons, length_linesFrom style (address + 2) rest]
    omega

/-- A place in an image, from which lines are taken one by one. -/
structure Sweep where
  /-- What has not been passed yet. -/
  rest : Image
  /-- The address of the first byte of `rest`. -/
  address : Address
  style : UnknownStyle
  deriving DecidableEq, Repr

namespace Sweep

/-- All lines to come. -/
def toList (s : Sweep) : List Line := linesFrom s.style s.address s.rest

/-- How many lines are to come. -/
def size (s : Sweep) : Nat := s.rest.length / 2

/-- Bounds for the number of lines to come. They are known beforehand, so both are that number. -/
def sizeHint (s : Sweep) : Nat × Option Nat := (s.size, some s.size)

theorem length_toList (s : Sweep) : s.toList.length = s.size :=
  length_linesFrom ..

/-- The next line, and the sweep behind it. -/
def next (s : Sweep) : Option Line × Sweep :=
  match s.rest with
  | high :: low :: rest =>
    (some (Line.ofBytes s.style s.address high low), { s with rest, address := s.address + 2 })
  | _ => (none, s)

/-- The line after `k` others, and the sweep behind it. -/
def nth : Nat → Sweep → Option Line × Sweep
  | 0, s => s.next
  | k + 1, s =>
    match s.next with
    | (some _, s) => nth k s
    | (none, s) => (none, s)

/-- The first line in `rest` that is an instruction, and the sweep behind it. -/
def nextKnownFrom (style : UnknownStyle) (address : Address) : Image → Option Line × Sweep
  | high :: low :: rest =>
    let line := Line.ofBytes style address high low
    if line.isUnknown then nextKnownFrom style (address + 2) rest
    else (some line, { rest, address := address + 2, style })
  | rest => (none, { rest, address, style })

/-- The next line that is an instruction, and the sweep behind it. The lines before it are
passed. -/
def nextKnown (s : Sweep) : Option Line × Sweep :=
  nextKnownFrom s.style s.address s.rest

/-- All lines to come, and the sweep behind the last of them. -/
def drain (s : Sweep) : List Line × Sweep :=
  (s.toList,
    { s with
      rest := s.rest.drop (2 * s.size)
      address := s.address + BitVec.ofNat 16 (2 * s.size) })

end Sweep

end Chip8.Listing
