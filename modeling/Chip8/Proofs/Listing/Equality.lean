import Chip8.Proofs.Listing.Placement
import Chip8.Proofs.Listing.Sizes

/-!
# When two lines are equal

A line holds more than it needs: what its word stands for follows from its bytes. And it holds
something that its text need not show: the style of the listing. So equality of lines is neither
equality of their texts nor, at first sight, equality of what they were made from. This file says
that it is the latter. A line is made from a word, a place and a style, and it determines all three.

Of the options two are in a line, and the third one is not. What becomes of an odd last byte is
decided before there are lines. It can decide whether there are any, but no line looks different for
it.

## Main definitions

* `Listing.Options.TellsApart` — what is promised of the lines of two images

## Main results

* `Listing.Line.ofWord_inj` — a line determines what it is made from
* `Listing.text_ofWord_eq_iff_of_isSome` — the text of an instruction determines all but the style
* `Listing.linesFrom_eq_iff` — when two images have the same lines
* `Listing.linesTellApart` — the headline: the promise is kept for every two accepted images
-/

namespace Chip8.Listing

open Instruction (decode?)

/-! ### One line -/

section

variable {style style' : UnknownStyle} {a a' : Address} {w w' : Word}

/-- **A line determines its word, its place and its style.** -/
theorem Line.ofWord_inj :
    Line.ofWord style a w = Line.ofWord style' a' w' ↔ w = w' ∧ a = a' ∧ style = style' := by
  constructor
  · intro h
    refine ⟨?_, congrArg Line.address h, congrArg Line.style h⟩
    rw [← Line.word_ofWord style a w, h, Line.word_ofWord]
  · rintro ⟨rfl, rfl, rfl⟩
    rfl

/-- The text of a line that is an instruction determines its word and its place, whatever the
style. -/
theorem text_ofWord_eq_iff_of_isSome (h : (decode? w).isSome) (h' : (decode? w').isSome) :
    (Line.ofWord style a w).text = (Line.ofWord style' a' w').text ↔ a = a' ∧ w = w' := by
  have hmarker := not_isMarker_ofWord_of_isSome style a h
  have hmarker' := not_isMarker_ofWord_of_isSome style' a' h'
  rw [text_ofWord_eq_iff, Line.row, Line.row, Row.mk.injEq, Word.eq_iff_bytes (w := w)]
  simp only [hmarker, hmarker', not_false_eq_true, true_and, false_and, false_or]
  rfl

end

/-! ### All lines -/

theorem linesFrom_eq_nil_iff (style : UnknownStyle) (a : Address) (image : Image) :
    linesFrom style a image = [] ↔ words image = [] := by
  rw [← map_word_linesFrom style a, List.map_eq_nil_iff]

/-- **Two images have the same lines** if they have the same words, at the same place and in the
same style unless there are none. -/
theorem linesFrom_eq_iff (style style' : UnknownStyle) (a a' : Address) (image image' : Image) :
    linesFrom style a image = linesFrom style' a' image' ↔
      words image = words image' ∧ (words image = [] ∨ a = a' ∧ style = style') := by
  constructor
  · intro h
    have hwords : words image = words image' := by
      rw [← map_word_linesFrom style a, h, map_word_linesFrom]
    refine ⟨hwords, ?_⟩
    cases himage : words image with
    | nil => exact .inl rfl
    | cons w ws =>
      -- The first line stands at the load address itself.
      have hfirst := congrArg (·[0]?) h
      simp only [getElem?_linesFrom, ← hwords, himage] at hfirst
      have hline := Line.ofWord_inj.mp (Option.some.inj hfirst)
      simpa using hline.2
  · rintro ⟨hwords, hrest⟩
    refine List.ext_getElem? ?_
    intro k
    rw [getElem?_linesFrom, getElem?_linesFrom, ← hwords]
    rcases hrest with hnil | ⟨rfl, rfl⟩
    · rw [hnil]
      rfl
    · rfl

/-- What is promised of the lines `ls` of an image and the lines `ls'` of `image'`, which may be
listed with other options. -/
structure Options.TellsApart (o o' : Options) (image image' : Image) (ls ls' : List Line) :
    Prop where
  length : ls.length = image.length / 2 ∧ ls'.length = image'.length / 2
  /-- Two lines are equal if their bytes, their places and the styles are. -/
  line {i j : Nat} {l l' : Line} : ls[i]? = some l → ls'[j]? = some l' →
    (l = l' ↔ l.high = l'.high ∧ l.low = l'.low ∧
      o.loadAddress.toNat + 2 * i = o'.loadAddress.toNat + 2 * j ∧
      o.unknownStyle = o'.unknownStyle)
  /-- The bytes are those of the image. -/
  bytes {i : Nat} {l : Line} : ls[i]? = some l →
    image[2 * i]? = some l.high ∧ image[2 * i + 1]? = some l.low
  /-- All lines are equal if the images are, up to an odd last byte, and the options say the same of
  place and style unless there are no lines. -/
  lines : ls = ls' ↔
    image.take (2 * (image.length / 2)) = image'.take (2 * (image'.length / 2)) ∧
      (ls = [] ∧ ls' = [] ∨
        o.loadAddress = o'.loadAddress ∧ o.unknownStyle = o'.unknownStyle)
  /-- What becomes of an odd last byte makes no difference to lines. -/
  policy {policy : TrailingByte} {ls'' : List Line} :
    (Listing.lines { o with trailingByte := policy } image).value = .ok ls'' → ls'' = ls
  /-- The text of an instruction tells its bytes and its place. It does not tell the style, and
  lines of different styles are different all the same. -/
  decoded {l l' : Line} : l ∈ ls → l' ∈ ls' → ¬ l.isUnknown → ¬ l'.isUnknown →
    (l.text = l'.text ↔ l.address = l'.address ∧ l.high = l'.high ∧ l.low = l'.low) ∧
      (l.text = l'.text → o.unknownStyle ≠ o'.unknownStyle → l ≠ l')

section

variable {o o' : Options} {image image' : Image}

/-- Places within the address space are told apart by their numbers. -/
theorem place_eq_iff {start start' : Address} {n n' : Nat} (h : start.toNat + n < 0x10000)
    (h' : start'.toNat + n' < 0x10000) :
    start + BitVec.ofNat 16 n = start' + BitVec.ofNat 16 n' ↔
      start.toNat + n = start'.toNat + n' := by
  rw [← BitVec.toNat_inj, toNat_add_ofNat h, toNat_add_ofNat h']

theorem line_eq_iff (h : o.Accepts image) (h' : o'.Accepts image') {i j : Nat} {l l' : Line}
    (hl : (linesFrom o.unknownStyle o.loadAddress image)[i]? = some l)
    (hl' : (linesFrom o'.unknownStyle o'.loadAddress image')[j]? = some l') :
    l = l' ↔ l.high = l'.high ∧ l.low = l'.low ∧
      o.loadAddress.toNat + 2 * i = o'.loadAddress.toNat + 2 * j ∧
      o.unknownStyle = o'.unknownStyle := by
  have hsize : o.loadAddress.toNat + image.length ≤ 0x10000 := h.length_le
  have hsize' : o'.loadAddress.toNat + image'.length ≤ 0x10000 := h'.length_le
  have hplace := lt_of_getElem?_linesFrom hl
  have hplace' := lt_of_getElem?_linesFrom hl'
  rw [getElem?_linesFrom] at hl hl'
  obtain ⟨w, -, rfl⟩ := Option.map_eq_some_iff.mp hl
  obtain ⟨w', -, rfl⟩ := Option.map_eq_some_iff.mp hl'
  rw [Line.ofWord_inj, place_eq_iff (by omega) (by omega), Word.eq_iff_bytes (w := w), and_assoc]
  rfl

theorem decoded_of_mem {l l' : Line} (hl : l ∈ linesFrom o.unknownStyle o.loadAddress image)
    (hl' : l' ∈ linesFrom o'.unknownStyle o'.loadAddress image') (hknown : ¬ l.isUnknown)
    (hknown' : ¬ l'.isUnknown) :
    (l.text = l'.text ↔ l.address = l'.address ∧ l.high = l'.high ∧ l.low = l'.low) ∧
      (l.text = l'.text → o.unknownStyle ≠ o'.unknownStyle → l ≠ l') := by
  obtain ⟨i, hi⟩ := List.mem_iff_getElem?.mp hl
  obtain ⟨j, hj⟩ := List.mem_iff_getElem?.mp hl'
  obtain ⟨a, w, rfl⟩ := exists_ofWord_of_getElem? hi
  obtain ⟨a', w', rfl⟩ := exists_ofWord_of_getElem? hj
  have hsome : (decode? w).isSome := by
    simpa [Line.isUnknown, Option.isSome_iff_ne_none] using hknown
  have hsome' : (decode? w').isSome := by
    simpa [Line.isUnknown, Option.isSome_iff_ne_none] using hknown'
  rw [text_ofWord_eq_iff_of_isSome hsome hsome', Word.eq_iff_bytes (w := w)]
  refine ⟨Iff.rfl, ?_⟩
  intro _ hstyle heq
  exact hstyle (Line.ofWord_inj.mp heq).2.2

end

/-- **Lines are equal exactly if what they are made from is equal**: their bytes, their place and
the style. -/
theorem linesTellApart {o o' : Options} {image image' : Image} {ls ls' : List Line}
    (hls : (lines o image).value = .ok ls) (hls' : (lines o' image').value = .ok ls') :
    o.TellsApart o' image image' ls ls' := by
  obtain ⟨haccepts, rfl⟩ := value_lines_eq_ok_iff.mp hls
  obtain ⟨haccepts', rfl⟩ := value_lines_eq_ok_iff.mp hls'
  exact
    { length := ⟨length_linesFrom .., length_linesFrom ..⟩
      line := line_eq_iff haccepts haccepts'
      bytes := by
        intro i l hl
        obtain ⟨hhigh, hlow, -⟩ := exists_bytes_of_getElem?_linesFrom hl
        exact ⟨hhigh, hlow⟩
      lines := by
        rw [linesFrom_eq_iff, ← words_eq_iff, linesFrom_eq_nil_iff, linesFrom_eq_nil_iff]
        refine and_congr_right ?_
        intro hwords
        rw [← hwords, and_self]
      policy := by
        intro policy ls'' hls''
        exact (value_lines_eq_ok_iff.mp hls'').2
      decoded := decoded_of_mem }

/-- A call is listed in both styles, once before an odd byte. Its texts are equal and its lines are
not. -/
theorem linesTellApart_call :
    (lines {} [0x21, 0x23]).value = .ok [Line.ofBytes .addressed programStart 0x21 0x23] ∧
      (lines { unknownStyle := .bare } [0x21, 0x23, 0x77]).value =
        .ok [Line.ofBytes .bare programStart 0x21 0x23] ∧
      (Line.ofBytes .addressed programStart 0x21 0x23).text =
        (Line.ofBytes .bare programStart 0x21 0x23).text ∧
      Line.ofBytes .addressed programStart 0x21 0x23 ≠
        Line.ofBytes .bare programStart 0x21 0x23 := by
  have hls : (lines {} [0x21, 0x23]).value =
      .ok [Line.ofBytes .addressed programStart 0x21 0x23] := rfl
  have hls' : (lines { unknownStyle := .bare } [0x21, 0x23, 0x77]).value =
      .ok [Line.ofBytes .bare programStart 0x21 0x23] := rfl
  obtain ⟨htext, hne⟩ := (linesTellApart hls hls').decoded (List.mem_singleton.mpr rfl)
    (List.mem_singleton.mpr rfl) (by decide) (by decide)
  have hsame := htext.mpr ⟨rfl, rfl, rfl⟩
  exact ⟨hls, hls', hsame, hne hsame (by decide)⟩

end Chip8.Listing
