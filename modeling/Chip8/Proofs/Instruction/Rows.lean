import Chip8.Instruction.Encoding
import Chip8.Instruction.Pattern

/-!
# Decoding and the table

`Instruction.decode?` asks for the group of a word first and then, in some groups, for a key. The
table `Pattern.all` asks nothing in any order. This file shows that the two say the same of every
word, so each of them may be read in place of the other.

## Covered words

A row fixes the bits of a mask, and the masks that occur are made of whole nibbles. So a row covers
a word if a field or two have the right values, and these are the fields that decoding asks for:
`covers_ofGroup`, `covers_ofNibble` and `covers_ofByte` say so for the three kinds of rows.

## At most one row

No order of the rows is used to tell them apart. If two rows cover one word then each has the bits
of that word wherever both masks are set. `Pattern.all_pairwise_clash` finds for any two rows a bit
at which they differ there, so what a row covers is covered by that row alone.

## Main definitions

* `Pattern.row?` — the row of a word

## Main results

* `Pattern.not_covers_of_clash`, `Pattern.all_pairwise_clash` — at most one row covers a word
* `Pattern.decode?_eq_row?` — decoding reads the row of a word
* `Pattern.decode?_eq_some_iff` — what a word stands for, from the table
-/

namespace Chip8

namespace Word

/-! ### Masked words -/

variable (w mask : Word)

theorem group_and : (w &&& mask).group = w.group &&& mask.group := BitVec.extractLsb'_and

theorem x_and : (w &&& mask).x = w.x &&& mask.x := BitVec.extractLsb'_and

theorem y_and : (w &&& mask).y = w.y &&& mask.y := BitVec.extractLsb'_and

theorem n_and : (w &&& mask).n = w.n &&& mask.n := BitVec.extractLsb'_and

theorem kk_and : (w &&& mask).kk = w.kk &&& mask.kk := BitVec.extractLsb'_and

theorem nnn_and : (w &&& mask).nnn = w.nnn &&& mask.nnn := BitVec.extractLsb'_and

end Word

namespace Pattern

open Instruction (decode?)

variable {value w : Word} {read : Word → Instruction} {p q : Pattern}

/-! ### What a row covers -/

theorem covers_iff : p.covers w ↔ w &&& p.mask = p.value := beq_iff_eq

/-- A row of the first kind asks for the group. -/
theorem covers_ofGroup (hvalue : value.nnn = 0) :
    (ofGroup value read).covers w = decide (w.group = value.group) := by
  have hgroup : (w &&& 0xF000).group = w.group := (w.group_and _).trans BitVec.and_allOnes
  have hnnn : (w &&& 0xF000).nnn = 0 := (w.nnn_and _).trans BitVec.and_zero
  rw [Bool.eq_iff_iff, covers_iff, decide_eq_true_eq]
  show w &&& 0xF000 = value ↔ _
  constructor
  · rintro rfl
    exact hgroup.symm
  · intro h
    rw [← (w &&& 0xF000).ofTarget_fields, ← value.ofTarget_fields, hgroup, hnnn, h, hvalue]

/-- A row of the second kind asks for the group and the last nibble. -/
theorem covers_ofNibble {op : Arith} (hx : value.x = 0) (hy : value.y = 0) :
    (ofNibble value op).covers w = (decide (w.group = value.group) && decide (w.n = value.n)) := by
  have hgroup : (w &&& 0xF00F).group = w.group := (w.group_and _).trans BitVec.and_allOnes
  have hx' : (w &&& 0xF00F).x = 0 := (w.x_and _).trans BitVec.and_zero
  have hy' : (w &&& 0xF00F).y = 0 := (w.y_and _).trans BitVec.and_zero
  have hn : (w &&& 0xF00F).n = w.n := (w.n_and _).trans BitVec.and_allOnes
  rw [Bool.eq_iff_iff, covers_iff, Bool.and_eq_true, decide_eq_true_eq, decide_eq_true_eq]
  show w &&& 0xF00F = value ↔ _
  constructor
  · rintro rfl
    exact ⟨hgroup.symm, hn.symm⟩
  · rintro ⟨hg, hkey⟩
    rw [← (w &&& 0xF00F).ofNibbles_fields, ← value.ofNibbles_fields, hgroup, hx', hy', hn, hg, hx,
      hy, hkey]

/-- A row of the third kind asks for the group and the low byte. -/
theorem covers_ofByte (hx : value.x = 0) :
    (ofByte value read).covers w =
      (decide (w.group = value.group) && decide (w.kk = value.kk)) := by
  have hgroup : (w &&& 0xF0FF).group = w.group := (w.group_and _).trans BitVec.and_allOnes
  have hx' : (w &&& 0xF0FF).x = 0 := (w.x_and _).trans BitVec.and_zero
  have hkk : (w &&& 0xF0FF).kk = w.kk := (w.kk_and _).trans BitVec.and_allOnes
  rw [Bool.eq_iff_iff, covers_iff, Bool.and_eq_true, decide_eq_true_eq, decide_eq_true_eq]
  show w &&& 0xF0FF = value ↔ _
  constructor
  · rintro rfl
    exact ⟨hgroup.symm, hkk.symm⟩
  · rintro ⟨hg, hkey⟩
    rw [← (w &&& 0xF0FF).ofByte_fields, ← value.ofByte_fields, hgroup, hx', hkk, hg, hx, hkey]

/-! ### At most one row -/

/-- Two rows clash if they differ in a bit that both of them fix. -/
def Clash (p q : Pattern) : Prop := p.value &&& q.mask ≠ q.value &&& p.mask

instance (p q : Pattern) : Decidable (p.Clash q) := inferInstanceAs (Decidable (_ ≠ _))

/-- The words of clashing rows are different ones. -/
theorem not_covers_of_clash (h : p.Clash q) (hp : p.covers w) : ¬ q.covers w := by
  intro hq
  refine h ?_
  rw [← covers_iff.mp hp, ← covers_iff.mp hq, BitVec.and_assoc, BitVec.and_assoc,
    BitVec.and_comm p.mask]

theorem all_pairwise_clash : all.Pairwise Clash := by decide +kernel

/-- The row of a word, if there is one. -/
def row? (w : Word) : Option Pattern := all.find? (·.covers w)

/-- **The row of a word is the one that covers it**, wherever it stands in the table. -/
theorem row?_eq_some_iff : row? w = some p ↔ p ∈ all ∧ p.covers w := by
  constructor
  · intro h
    have hfind : all.find? (fun q => q.covers w) = some p := h
    have hcovers := List.find?_some hfind
    exact ⟨List.mem_of_find?_eq_some hfind, hcovers⟩
  · rintro ⟨hmem, hcovers⟩
    obtain ⟨before, after, hsplit⟩ := List.append_of_mem hmem
    have hclash := all_pairwise_clash
    rw [hsplit, List.pairwise_append] at hclash
    refine List.find?_eq_some_iff_append.mpr ⟨hcovers, before, after, hsplit, ?_⟩
    intro q hq
    have hqp : q.Clash p := hclash.2.2 q hq p List.mem_cons_self
    simpa using fun h => not_covers_of_clash hqp h hcovers

theorem row?_eq_none_iff : row? w = none ↔ ∀ p ∈ all, ¬ p.covers w :=
  List.find?_eq_none

/-! ### Decoding -/

/-- **Decoding a word is reading the row that covers it.** -/
theorem decode?_eq_row? (w : Word) : decode? w = (row? w).map (·.instruction w) := by
  -- Each row now asks for fields of `w`. Once these are known the search through the rows computes.
  simp (disch := decide) only [row?, all, List.find?_cons, covers_ofGroup, covers_ofNibble,
    covers_ofByte]
  unfold decode?
  split
  case h_1 hg =>
    rw [hg]
    split
    case h_3 =>
      -- The byte is no key. It is given a name, so that only the keys of the rows are computed.
      generalize w.kk = kk at *
      simp_all [Word.group, Word.kk, Word.low]
    all_goals
      rename_i hkk
      rw [hkk]
      rfl
  -- the groups of one instruction each
  case h_2 hg | h_3 hg | h_4 hg | h_5 hg | h_6 hg | h_7 hg | h_8 hg | h_10 hg | h_11 hg | h_12 hg
      | h_13 hg | h_14 hg =>
    rw [hg]
    rfl
  case h_9 hg =>
    rw [hg]
    unfold Arith.ofCode?
    split
    case h_10 =>
      generalize w.n = n at *
      simp_all [Word.group, Word.n]
    all_goals
      rename_i hn
      rw [hn]
      rfl
  case h_15 hg =>
    rw [hg]
    split
    case h_3 =>
      generalize w.kk = kk at *
      simp_all [Word.group, Word.kk, Word.low]
    all_goals
      rename_i hkk
      rw [hkk]
      rfl
  case h_16 hg =>
    rw [hg]
    split
    case h_10 =>
      generalize w.kk = kk at *
      simp_all [Word.group, Word.kk, Word.low]
    all_goals
      rename_i hkk
      rw [hkk]
      rfl
  -- there is no further group
  case h_17 =>
    generalize w.group = g at *
    simp_all [Word.group]

/-- **What a word stands for, from the table.** -/
theorem decode?_eq_some_iff (w : Word) (i : Instruction) :
    decode? w = some i ↔ ∃ p ∈ all, p.covers w ∧ p.instruction w = i := by
  rw [decode?_eq_row?, Option.map_eq_some_iff]
  refine exists_congr fun p => ?_
  rw [row?_eq_some_iff, and_assoc]

theorem decode?_eq_none_iff (w : Word) : decode? w = none ↔ ∀ p ∈ all, ¬ p.covers w := by
  rw [decode?_eq_row?, Option.map_eq_none_iff, row?_eq_none_iff]

end Pattern

end Chip8
