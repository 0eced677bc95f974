/-!
# Instruction words

A program image is a sequence of bytes, and two consecutive bytes, the first one in the high half,
are one instruction word. This file names the parts of a word.

## Fields

The four nibbles of a word, from the top, are its *group*, `x`, `y` and `n`. The low byte is `kk`
and the low twelve bits are `nnn`. The fields overlap, and which of them mean something depends on
the instruction.

All fields are bit vectors of exactly their width, so a field never has to be masked again: what
an operand can hold is what fits into its type.

## Main definitions

* `Nibble`, `Byte`, `Target`, `Address`, `Word` — the widths that occur
* `Word.ofBytes`, `Word.ofNibbles`, `Word.ofByte`, `Word.ofTarget` — putting a word together
* `Word.high`, `Word.low`, `Word.bytes` — a word as its two bytes
* `Word.group`, `Word.x`, `Word.y`, `Word.n`, `Word.kk`, `Word.nnn` — its fields

## Main results

* `Word.ofBytes_high_low`, `Word.high_ofBytes`, `Word.low_ofBytes` — the inverse pair
* `Word.group_ofNibbles` and its like — each field is read back as it was put in
* `Word.ofNibbles_fields`, `Word.ofByte_fields`, `Word.ofTarget_fields` — the fields determine the
  word
-/

namespace Chip8

/-- A register number, or the last digit of a word. -/
abbrev Nibble := BitVec 4

/-- A byte of a program image. -/
abbrev Byte := BitVec 8

/-- The twelve-bit operand that names a place in memory. -/
abbrev Target := BitVec 12

/-- An address of the sixteen-bit space an image is placed in. -/
abbrev Address := BitVec 16

/-- An instruction word. -/
abbrev Word := BitVec 16

namespace Word

/-! ### Putting a word together -/

/-- The word stored as `high`, then `low`. -/
def ofBytes (high low : Byte) : Word := high ++ low

/-- The word with the given four nibbles, the top one first. -/
def ofNibbles (group x y n : Nibble) : Word := ofBytes (group ++ x) (y ++ n)

/-- The word of a group and a register whose low byte is an operand. -/
def ofByte (group x : Nibble) (kk : Byte) : Word := ofBytes (group ++ x) kk

/-- The word of a group whose other twelve bits are one operand. -/
def ofTarget (group : Nibble) (nnn : Target) : Word := group ++ nnn

/-! ### Taking it apart -/

/-- The byte that is stored first. -/
def high (w : Word) : Byte := w.extractLsb' 8 8

/-- The byte that is stored second. -/
def low (w : Word) : Byte := w.extractLsb' 0 8

/-- The two bytes of a word in the order they are stored. -/
def bytes (w : Word) : List Byte := [w.high, w.low]

/-- The top nibble, which selects the family of instructions. -/
def group (w : Word) : Nibble := w.extractLsb' 12 4

/-- The second nibble, mostly a register. -/
def x (w : Word) : Nibble := w.extractLsb' 8 4

/-- The third nibble, mostly a register. -/
def y (w : Word) : Nibble := w.extractLsb' 4 4

/-- The last nibble. -/
def n (w : Word) : Nibble := w.extractLsb' 0 4

/-- The low byte as an operand. -/
def kk (w : Word) : Byte := w.low

/-- The low twelve bits as an operand. -/
def nnn (w : Word) : Target := w.extractLsb' 0 12

/-- The four nibbles, the top one first. -/
def nibbles (w : Word) : List Nibble := [w.group, w.x, w.y, w.n]

/-! ### The bytes of a word -/

@[simp] theorem ofBytes_high_low (w : Word) : ofBytes w.high w.low = w :=
  BitVec.extractLsb'_append_extractLsb'

@[simp] theorem high_ofBytes (a b : Byte) : (ofBytes a b).high = a :=
  BitVec.extractLsb'_append_eq_left

@[simp] theorem low_ofBytes (a b : Byte) : (ofBytes a b).low = b :=
  BitVec.extractLsb'_append_eq_right

/-- Words are equal if their bytes are. -/
theorem eq_iff_bytes {w w' : Word} : w = w' ↔ w.high = w'.high ∧ w.low = w'.low := by
  constructor
  · rintro rfl
    exact ⟨rfl, rfl⟩
  · rintro ⟨hhigh, hlow⟩
    rw [← ofBytes_high_low w, hhigh, hlow, ofBytes_high_low]

theorem toNat_ofBytes (a b : Byte) : (ofBytes a b).toNat = 256 * a.toNat + b.toNat := by
  have := b.isLt
  simp only [ofBytes, BitVec.toNat_append]
  rw [← Nat.shiftLeft_add_eq_or_of_lt this, Nat.shiftLeft_eq]
  omega

theorem toNat_high (w : Word) : w.high.toNat = w.toNat / 256 := by
  have := w.isLt
  simp only [high, BitVec.extractLsb'_toNat, Nat.shiftRight_eq_div_pow]
  omega

theorem toNat_low (w : Word) : w.low.toNat = w.toNat % 256 := by
  simp [low]

/-! ### The fields as numbers -/

theorem toNat_group (w : Word) : w.group.toNat = w.toNat / 4096 := by
  have := w.isLt
  simp only [group, BitVec.extractLsb'_toNat, Nat.shiftRight_eq_div_pow]
  omega

theorem toNat_x (w : Word) : w.x.toNat = w.toNat / 256 % 16 := by
  simp [x, Nat.shiftRight_eq_div_pow]

theorem toNat_y (w : Word) : w.y.toNat = w.toNat / 16 % 16 := by
  simp [y, Nat.shiftRight_eq_div_pow]

theorem toNat_n (w : Word) : w.n.toNat = w.toNat % 16 := by
  simp [n]

theorem toNat_kk (w : Word) : w.kk.toNat = w.toNat % 256 :=
  toNat_low w

theorem toNat_nnn (w : Word) : w.nnn.toNat = w.toNat % 4096 := by
  simp [nnn]

theorem toNat_pair (p q : Nibble) : (p ++ q).toNat = 16 * p.toNat + q.toNat := by
  have := q.isLt
  rw [BitVec.toNat_append, ← Nat.shiftLeft_add_eq_or_of_lt this, Nat.shiftLeft_eq]
  omega

theorem toNat_ofNibbles (g a b c : Nibble) :
    (ofNibbles g a b c).toNat = 4096 * g.toNat + 256 * a.toNat + 16 * b.toNat + c.toNat := by
  rw [ofNibbles, toNat_ofBytes, toNat_pair, toNat_pair]
  omega

theorem toNat_ofByte (g a : Nibble) (b : Byte) :
    (ofByte g a b).toNat = 4096 * g.toNat + 256 * a.toNat + b.toNat := by
  rw [ofByte, toNat_ofBytes, toNat_pair]
  omega

theorem toNat_ofTarget (g : Nibble) (t : Target) :
    (ofTarget g t).toNat = 4096 * g.toNat + t.toNat := by
  have := t.isLt
  simp only [ofTarget, BitVec.toNat_append]
  rw [← Nat.shiftLeft_add_eq_or_of_lt this, Nat.shiftLeft_eq]
  omega

/-! ### Reading back what was put together -/

@[simp] theorem kk_ofBytes (a b : Byte) : (ofBytes a b).kk = b :=
  low_ofBytes a b

@[simp] theorem group_ofNibbles (g a b c : Nibble) : (ofNibbles g a b c).group = g := by
  refine BitVec.eq_of_toNat_eq ?_
  rw [toNat_group, toNat_ofNibbles]
  omega

@[simp] theorem x_ofNibbles (g a b c : Nibble) : (ofNibbles g a b c).x = a := by
  refine BitVec.eq_of_toNat_eq ?_
  rw [toNat_x, toNat_ofNibbles]
  omega

@[simp] theorem y_ofNibbles (g a b c : Nibble) : (ofNibbles g a b c).y = b := by
  refine BitVec.eq_of_toNat_eq ?_
  rw [toNat_y, toNat_ofNibbles]
  omega

@[simp] theorem n_ofNibbles (g a b c : Nibble) : (ofNibbles g a b c).n = c := by
  refine BitVec.eq_of_toNat_eq ?_
  rw [toNat_n, toNat_ofNibbles]
  omega

@[simp] theorem group_ofByte (g a : Nibble) (b : Byte) : (ofByte g a b).group = g := by
  refine BitVec.eq_of_toNat_eq ?_
  rw [toNat_group, toNat_ofByte]
  omega

@[simp] theorem x_ofByte (g a : Nibble) (b : Byte) : (ofByte g a b).x = a := by
  refine BitVec.eq_of_toNat_eq ?_
  rw [toNat_x, toNat_ofByte]
  omega

@[simp] theorem kk_ofByte (g a : Nibble) (b : Byte) : (ofByte g a b).kk = b :=
  kk_ofBytes ..

@[simp] theorem group_ofTarget (g : Nibble) (t : Target) : (ofTarget g t).group = g :=
  BitVec.extractLsb'_append_eq_left

@[simp] theorem nnn_ofTarget (g : Nibble) (t : Target) : (ofTarget g t).nnn = t :=
  BitVec.extractLsb'_append_eq_right

/-! ### The fields determine the word -/

@[simp] theorem ofNibbles_fields (w : Word) : ofNibbles w.group w.x w.y w.n = w := by
  refine BitVec.eq_of_toNat_eq ?_
  rw [toNat_ofNibbles, toNat_group, toNat_x, toNat_y, toNat_n]
  omega

@[simp] theorem ofByte_fields (w : Word) : ofByte w.group w.x w.kk = w := by
  refine BitVec.eq_of_toNat_eq ?_
  rw [toNat_ofByte, toNat_group, toNat_x, toNat_kk]
  omega

@[simp] theorem ofTarget_fields (w : Word) : ofTarget w.group w.nnn = w :=
  BitVec.extractLsb'_append_extractLsb'

end Word

end Chip8
