import Chip8.Proofs.Listing.Columns
import Chip8.Proofs.Listing.Refusal

/-!
# Every word in its place

A sweep keeps a place in the image and an address, each of them moved on by two for every line, and
neither is ever compared with the other. This file says that they belong together at every line: the
entry of a listing at index `k` shows the bytes at `2 * k` and `2 * k + 1` of the image, and stands
`2 * k` places behind the load address.

## The address that wraps around

Behind the last line of an image that fills the address space the address of the sweep is zero
again. No line is ever shown at it, since a line needs two bytes, and an image that fits has none
there. So all addresses of a listing are numbers in order, although they are computed in sixteen
bits.

## One line at a time

That an entry is computed from its own two bytes alone is said by comparing two images that agree in
them. Nothing else about the other image matters: it may be shorter or longer, and it may hold no
instruction at all where the first one does.

## Main definitions

* `Listing.Options.ListsInPlace` — what is promised of the lines of an image

## Main results

* `Listing.getElem?_words_eq_some_iff` — the bytes of word `k`
* `Listing.exists_bytes_of_getElem?_linesFrom` — what line `k` shows
* `Listing.getElem?_linesFrom_congr` — it depends on nothing else
* `Listing.toNat_address_of_getElem?_linesFrom`, `Listing.pairwise_address_linesFrom` — the
  addresses
* `Listing.flatMap_bytes_linesFrom_eq` — the bytes of all lines
* `Listing.exists_listsInPlace` — the headline: the promise is kept for every image that fits
-/

namespace Chip8.Listing

open Instruction (decode?)

/-! ### The bytes of a line -/

/-- **Word `k` is made of the bytes at `2 * k` and `2 * k + 1`**, and there is one if there are
these two bytes. -/
theorem getElem?_words_eq_some_iff : ∀ (image : Image) (k : Nat) (w : Word),
    (words image)[k]? = some w ↔
      image[2 * k]? = some w.high ∧ image[2 * k + 1]? = some w.low
  | [], k, w => by simp
  | [b], k, w => by simp
  | high :: low :: rest, 0, w => by
    constructor
    · intro h
      obtain rfl : Word.ofBytes high low = w := by simpa using h
      simp
    · rintro ⟨hhigh, hlow⟩
      obtain rfl : high = w.high := by simpa using hhigh
      obtain rfl : low = w.low := by simpa using hlow
      simp
  | _ :: _ :: rest, k + 1, w => by
    have hfirst : 2 * (k + 1) = 2 * k + 1 + 1 := by omega
    rw [words_cons_cons, List.getElem?_cons_succ, getElem?_words_eq_some_iff rest k w, hfirst]
    simp only [List.getElem?_cons_succ]

section

variable {style : UnknownStyle} {start : Address} {image : Image} {k : Nat} {l : Line}

theorem lt_of_getElem?_linesFrom (h : (linesFrom style start image)[k]? = some l) :
    2 * k + 1 < image.length := by
  have hk := (List.getElem?_eq_some_iff.mp h).1
  rw [length_linesFrom] at hk
  omega

/-- **What line `k` shows** are the bytes at its place in the image, and what their word stands
for. -/
theorem exists_bytes_of_getElem?_linesFrom (h : (linesFrom style start image)[k]? = some l) :
    image[2 * k]? = some l.high ∧ image[2 * k + 1]? = some l.low ∧
      l.body = decode? (Word.ofBytes l.high l.low) ∧ l.style = style := by
  rw [getElem?_linesFrom] at h
  obtain ⟨w, hw, rfl⟩ := Option.map_eq_some_iff.mp h
  obtain ⟨hhigh, hlow⟩ := (getElem?_words_eq_some_iff image k w).mp hw
  exact ⟨hhigh, hlow, rfl, rfl⟩

/-- **A line depends on its own two bytes and on nothing else** in the image. -/
theorem getElem?_linesFrom_congr {image' : Image} (hhigh : image'[2 * k]? = image[2 * k]?)
    (hlow : image'[2 * k + 1]? = image[2 * k + 1]?) :
    (linesFrom style start image')[k]? = (linesFrom style start image)[k]? := by
  have hword : (words image')[k]? = (words image)[k]? := by
    refine Option.ext fun w => ?_
    rw [getElem?_words_eq_some_iff, getElem?_words_eq_some_iff, hhigh, hlow]
  rw [getElem?_linesFrom, getElem?_linesFrom, hword]

/-! ### Addresses -/

/-- The address of line `k` has not wrapped around, because a byte of the image lies behind it. -/
theorem toNat_address_of_getElem?_linesFrom (hsize : start.toNat + image.length ≤ 0x10000)
    (h : (linesFrom style start image)[k]? = some l) :
    l.address.toNat = start.toNat + 2 * k ∧ l.address.toNat ≤ 0xFFFE := by
  have hplace := lt_of_getElem?_linesFrom h
  rw [getElem?_linesFrom] at h
  obtain ⟨w, -, rfl⟩ := Option.map_eq_some_iff.mp h
  have haddress : (start + BitVec.ofNat 16 (2 * k)).toNat = start.toNat + 2 * k :=
    toNat_add_ofNat (by omega)
  rw [Line.address_ofWord, haddress]
  exact ⟨rfl, by omega⟩

theorem pairwise_address_linesFrom (hsize : start.toNat + image.length ≤ 0x10000) :
    (linesFrom style start image).Pairwise fun l l' => l.address.toNat < l'.address.toNat := by
  rw [List.pairwise_iff_getElem]
  intro i j hi hj hij
  have hfirst := toNat_address_of_getElem?_linesFrom hsize (List.getElem?_eq_getElem hi)
  have hsecond := toNat_address_of_getElem?_linesFrom hsize (List.getElem?_eq_getElem hj)
  omega

/-! ### All bytes -/

theorem take_eq_dropLast_of_odd (hodd : image.length % 2 ≠ 0) :
    image.take (2 * (image.length / 2)) = image.dropLast := by
  rw [List.dropLast_eq_take]
  congr 1
  omega

/-- **The bytes of all lines** are those of the image without an odd last one. -/
theorem flatMap_bytes_linesFrom_eq (style : UnknownStyle) (start : Address) (image : Image) :
    (linesFrom style start image).flatMap (fun l => [l.high, l.low]) =
      if image.length % 2 = 0 then image else image.dropLast := by
  have hrows := flatMap_bytes_linesFrom style start image
  rw [List.flatMap_map] at hrows
  refine hrows.trans ?_
  split
  · exact List.take_of_length_le (by omega)
  · rename_i hodd
    exact take_eq_dropLast_of_odd hodd

end

/-- What is promised of the lines of an image. -/
structure Options.ListsInPlace (o : Options) (image : Image) (ls : List Line) : Prop where
  /-- The lines are those that a sweep comes to. -/
  swept : (sweep o image).map Sweep.toList = .ok ls
  length : ls.length = image.length / 2
  /-- Each entry stands where its bytes are, and shows them and what their word stands for. -/
  entry {k : Nat} {l : Line} : ls[k]? = some l →
    l.address.toNat = o.loadAddress.toNat + 2 * k ∧
      image[2 * k]? = some l.high ∧ image[2 * k + 1]? = some l.low ∧
      l.body = decode? (Word.ofBytes l.high l.low) ∧ l.style = o.unknownStyle
  increasing : ls.Pairwise fun l l' => l.address.toNat < l'.address.toNat
  address_le {l : Line} : l ∈ ls → l.address.toNat ≤ 0xFFFE
  /-- Two images that are listed alike have the same entry wherever they agree in its bytes,
  whether or not words elsewhere are instructions. -/
  independent {o' : Options} {image' : Image} {ls' : List Line} {k : Nat} :
    (lines o' image').value = .ok ls' → o'.loadAddress = o.loadAddress →
      o'.unknownStyle = o.unknownStyle → image'[2 * k]? = image[2 * k]? →
      image'[2 * k + 1]? = image[2 * k + 1]? → ls'[k]? = ls[k]?
  /-- The bytes of all entries are the image, but for an odd last byte. -/
  bytes : ls.flatMap (fun l => [l.high, l.low]) =
    if image.length % 2 = 0 then image else image.dropLast

/-- **A listing loses, repeats and misplaces nothing**, wherever the image lies in the address
space. -/
theorem exists_listsInPlace {o : Options} {image : Image}
    (hsize : o.loadAddress.toNat + image.length ≤ 0x10000)
    (hparity : image.length % 2 = 0 ∨ o.trailingByte = .truncate) :
    ∃ ls, (lines o image).value = .ok ls ∧ o.ListsInPlace image ls := by
  have haccepts : o.Accepts image := ⟨Nat.le_sub_of_add_le' hsize, hparity⟩
  refine ⟨_, value_lines_of_accepts haccepts, ?_⟩
  exact
    { swept := by
        rw [map_toList_sweep, checkSize_of_le hsize]
        rfl
      length := length_linesFrom ..
      entry := fun h =>
        ⟨(toNat_address_of_getElem?_linesFrom hsize h).1, exists_bytes_of_getElem?_linesFrom h⟩
      increasing := pairwise_address_linesFrom hsize
      address_le := by
        intro l hl
        obtain ⟨k, hk⟩ := List.mem_iff_getElem?.mp hl
        exact (toNat_address_of_getElem?_linesFrom hsize hk).2
      independent := by
        intro o' image' ls' k hls' hload hstyle hhigh hlow
        obtain ⟨-, rfl⟩ := value_lines_eq_ok_iff.mp hls'
        rw [hload, hstyle]
        exact getElem?_linesFrom_congr hhigh hlow
      bytes := flatMap_bytes_linesFrom_eq .. }

/-- An odd image that fills the address space from an odd place on. -/
theorem exists_listsInPlace_at_end :
    (0xFFFB#16).toNat + [0x00#8, 0xE0#8, 0xF0#8, 0x00#8, 0x12#8].length ≤ 0x10000 ∧
      ∃ ls, (lines { loadAddress := 0xFFFB } [0x00, 0xE0, 0xF0, 0x00, 0x12]).value = .ok ls ∧
        ls.map (fun l => l.address) = [0xFFFB, 0xFFFD] ∧
        Options.ListsInPlace { loadAddress := 0xFFFB } [0x00, 0xE0, 0xF0, 0x00, 0x12] ls := by
  have hsize : (0xFFFB#16).toNat + [0x00#8, 0xE0#8, 0xF0#8, 0x00#8, 0x12#8].length ≤ 0x10000 := by
    decide
  obtain ⟨ls, hls, hplace⟩ :
      ∃ ls, (lines { loadAddress := 0xFFFB } [0x00, 0xE0, 0xF0, 0x00, 0x12]).value = .ok ls ∧
        Options.ListsInPlace { loadAddress := 0xFFFB } [0x00, 0xE0, 0xF0, 0x00, 0x12] ls :=
    exists_listsInPlace hsize (.inr rfl)
  refine ⟨hsize, ls, hls, ?_, hplace⟩
  obtain ⟨-, rfl⟩ := value_lines_eq_ok_iff.mp hls
  rfl

end Chip8.Listing
