import Chip8.Word

/-!
# Memory

Memory is `memorySize` bytes, and a program is placed at `programStart`. Addresses have sixteen bits
and memory has only `2 ^ 12` places, so reading answers `none` beyond the end. Nothing below
`programStart` is ever written by loading a program.

## Main definitions

* `memorySize`, `programStart`, `programCapacity`
* `Memory`, `Memory.zero`
* `Memory.get?` — the byte at an address
* `Memory.overlay` — a program laid over what was there

## Main results

* `Memory.get?_zero`, `Memory.get?_overlay` — each byte after each operation
-/

namespace Chip8

/-- The number of places in memory. -/
def memorySize : Nat := 4096

/-- Where programs begin. -/
def programStart : Address := 0x200

/-- The largest program that fits. -/
def programCapacity : Nat := memorySize - programStart.toNat

/-- The bytes of memory, one for each place. -/
abbrev Memory := Vector Byte memorySize

namespace Memory

/-- Memory that holds nothing yet. -/
def zero : Memory := Vector.replicate memorySize 0

/-- The byte at an address, unless the address lies beyond the end. -/
def get? (m : Memory) (a : Address) : Option Byte :=
  m[a.toNat]?

/-- Memory after `program` was laid over it from `programStart` on. What the program does not
reach stays. -/
def overlay (m : Memory) (program : List Byte) : Memory :=
  let bytes := program.toArray
  Vector.ofFn fun i =>
    if i.val < programStart.toNat then m[i]
    else (bytes[i.val - programStart.toNat]?).getD m[i]

theorem get?_zero (a : Address) :
    zero.get? a = if a.toNat < memorySize then some 0 else none := by
  simp only [get?, zero]
  split <;> rename_i h
  · rw [Vector.getElem?_eq_getElem h]
    simp
  · rw [Vector.getElem?_eq_none (Nat.le_of_not_lt h)]

theorem get?_overlay (m : Memory) (program : List Byte) (a : Address)
    (h : a.toNat < memorySize) :
    (m.overlay program).get? a =
      if a.toNat < programStart.toNat then m.get? a
      else (program[a.toNat - programStart.toNat]?).or (m.get? a) := by
  simp only [get?, overlay, Vector.getElem?_eq_getElem h, Vector.getElem_ofFn, Fin.getElem_fin,
    List.getElem?_toArray]
  split
  · rfl
  · cases program[a.toNat - programStart.toNat]? <;> rfl

end Memory

end Chip8
