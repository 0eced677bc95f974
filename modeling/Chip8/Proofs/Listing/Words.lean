import Chip8.Listing.Sweep

/-!
# An image as words

A listing and a machine go over the same bytes in different ways: a sweep takes two bytes off a
list, and a machine reads two places of memory. What they have in common is the sequence of words
in the image, and it is named here. Both are measured against it, and so never against each other.

## Odd images

`words` passes over an odd last byte, as a sweep does. So `bytesOf` undoes it on images of even
length only, while `words` undoes `bytesOf` always.

## Main definitions

* `Listing.words`, `Listing.bytesOf` — the words of an image, and the image of some words
* `Listing.Line.ofWord`, `Listing.Line.operation` — a line from its word, and what it stands for

## Main results

* `Listing.words_bytesOf`, `Listing.bytesOf_words` — the inverse pair
* `Listing.words_eq_iff` — when two images have the same words
* `Listing.getElem?_linesFrom` — line `k` shows word `k`, `2 * k` places behind the first one
* `Listing.map_linesFrom` — what a line says apart from its address, it says of its word
* `Listing.map_address_linesFrom` — the addresses of a listing
-/

namespace Chip8.Listing

/-! ### Words and bytes -/

/-- The words of an image, without an odd last byte. -/
def words : Image → List Word
  | high :: low :: rest => Word.ofBytes high low :: words rest
  | _ => []

/-- The image that holds the given words. -/
def bytesOf (ws : List Word) : Image := ws.flatMap Word.bytes

@[simp] theorem words_nil : words [] = [] := rfl

@[simp] theorem words_singleton (b : Byte) : words [b] = [] := rfl

@[simp] theorem words_cons_cons (high low : Byte) (rest : Image) :
    words (high :: low :: rest) = Word.ofBytes high low :: words rest := rfl

theorem length_words : ∀ image : Image, (words image).length = image.length / 2
  | [] => rfl
  | [_] => by simp
  | _ :: _ :: rest => by
    simp only [words_cons_cons, List.length_cons, length_words rest]
    omega

theorem length_bytesOf (ws : List Word) : (bytesOf ws).length = 2 * ws.length := by
  induction ws with
  | nil => rfl
  | cons w ws ih =>
    rw [bytesOf, List.flatMap_cons, List.length_append, List.length_cons]
    show 2 + (bytesOf ws).length = _
    omega

@[simp] theorem words_bytesOf (ws : List Word) : words (bytesOf ws) = ws := by
  induction ws with
  | nil => rfl
  | cons w ws ih =>
    show Word.ofBytes w.high w.low :: words (bytesOf ws) = w :: ws
    rw [Word.ofBytes_high_low, ih]

/-- The bytes of the words are those of the image, without an odd last one. -/
theorem bytesOf_words_eq_take : ∀ image : Image,
    bytesOf (words image) = image.take (2 * (image.length / 2))
  | [] => rfl
  | [_] => by simp [bytesOf]
  | high :: low :: rest => by
    have hlength : 2 * ((high :: low :: rest).length / 2) = 2 * (rest.length / 2) + 2 := by
      rw [List.length_cons, List.length_cons]
      omega
    have hcons : bytesOf (words (high :: low :: rest)) = high :: low :: bytesOf (words rest) := by
      rw [words_cons_cons, bytesOf, List.flatMap_cons, Word.bytes, Word.high_ofBytes,
        Word.low_ofBytes]
      rfl
    rw [hcons, bytesOf_words_eq_take rest, hlength, List.take_succ_cons, List.take_succ_cons]

theorem bytesOf_words {image : Image} (h : image.length % 2 = 0) :
    bytesOf (words image) = image := by
  rw [bytesOf_words_eq_take]
  exact List.take_of_length_le (by omega)

/-- **Images have the same words if they agree up to an odd last byte.** -/
theorem words_eq_iff (image image' : Image) :
    words image = words image' ↔
      image.take (2 * (image.length / 2)) = image'.take (2 * (image'.length / 2)) := by
  rw [← bytesOf_words_eq_take, ← bytesOf_words_eq_take]
  constructor
  · intro h
    rw [h]
  · intro h
    rw [← words_bytesOf (words image), h, words_bytesOf]

/-- Word `k` is the two bytes behind the first `2 * k`. -/
theorem drop_of_getElem?_words : ∀ (image : Image) (k : Nat) {w : Word},
    (words image)[k]? = some w → ∃ rest, image.drop (2 * k) = w.high :: w.low :: rest
  | high :: low :: rest, 0, w, h => by
    obtain rfl : Word.ofBytes high low = w := by simpa using h
    exact ⟨rest, by simp⟩
  | _ :: _ :: rest, k + 1, w, h => by
    have hrest : (words rest)[k]? = some w := by simpa using h
    obtain ⟨rest', hdrop⟩ := drop_of_getElem?_words rest k hrest
    exact ⟨rest', hdrop⟩

/-! ### Lines and words -/

/-- The line of a word stored at `address`. -/
def Line.ofWord (style : UnknownStyle) (address : Address) (w : Word) : Line :=
  Line.ofBytes style address w.high w.low

/-- What the word of a line stands for. -/
def Line.operation (l : Line) : Operation :=
  match l.body with
  | some i => .instruction i
  | none => .unknown l.word

section

variable (style : UnknownStyle) (a : Address) (w : Word)

@[simp] theorem Line.address_ofWord : (Line.ofWord style a w).address = a := rfl

@[simp] theorem Line.word_ofWord : (Line.ofWord style a w).word = w :=
  Word.ofBytes_high_low w

@[simp] theorem Line.body_ofWord : (Line.ofWord style a w).body = Instruction.decode? w := by
  simp [ofWord, ofBytes]

@[simp] theorem Line.operation_ofWord : (Line.ofWord style a w).operation = Operation.ofWord w := by
  rw [operation, body_ofWord, word_ofWord]
  rfl

end

theorem Line.ofBytes_eq_ofWord (style : UnknownStyle) (a : Address) (high low : Byte) :
    Line.ofBytes style a high low = Line.ofWord style a (Word.ofBytes high low) := by
  rw [ofWord, Word.high_ofBytes, Word.low_ofBytes]

/-- Within the address space, places are reached without wrapping around. -/
theorem toNat_add_ofNat {a : Address} {n : Nat} (h : a.toNat + n < 0x10000) :
    (a + BitVec.ofNat 16 n).toNat = a.toNat + n := by
  rw [BitVec.toNat_add, BitVec.toNat_ofNat]
  omega

/-- Two places further on, and then `n`, is `n + 2` places further on. -/
theorem add_two_add_ofNat (a : Address) (n : Nat) :
    a + 2 + BitVec.ofNat 16 n = a + BitVec.ofNat 16 (n + 2) := by
  rw [BitVec.ofNat_add, BitVec.add_assoc, BitVec.add_comm 2]
  rfl

/-- **Line `k` of a listing.** The address is the one of the first byte moved on by `2 * k`, and
that is all in which a line depends on its place. -/
theorem getElem?_linesFrom (style : UnknownStyle) : ∀ (a : Address) (image : Image) (k : Nat),
    (linesFrom style a image)[k]? =
      (words image)[k]?.map (Line.ofWord style (a + BitVec.ofNat 16 (2 * k)))
  | _, [], _ => rfl
  | _, [_], _ => rfl
  | a, high :: low :: rest, 0 => by simp [Line.ofBytes_eq_ofWord]
  | a, high :: low :: rest, k + 1 => by
    rw [linesFrom_cons_cons, List.getElem?_cons_succ, getElem?_linesFrom style (a + 2) rest k,
      words_cons_cons, List.getElem?_cons_succ, add_two_add_ofNat, ← Nat.mul_succ]

/-- Line `k` shows one word, however the image is listed. -/
theorem exists_word_of_getElem?_linesFrom {style style' : UnknownStyle} {a a' : Address}
    {image : Image} {k : Nat} {l l' : Line} (h : (linesFrom style a image)[k]? = some l)
    (h' : (linesFrom style' a' image)[k]? = some l') :
    ∃ w, l = Line.ofWord style (a + BitVec.ofNat 16 (2 * k)) w ∧
      l' = Line.ofWord style' (a' + BitVec.ofNat 16 (2 * k)) w := by
  rw [getElem?_linesFrom] at h h'
  obtain ⟨w, hw, rfl⟩ := Option.map_eq_some_iff.mp h
  obtain ⟨w', hw', rfl⟩ := Option.map_eq_some_iff.mp h'
  obtain rfl : w = w' := Option.some.inj (hw.symm.trans hw')
  exact ⟨w, rfl, rfl⟩

theorem map_linesFrom {β : Type} {style : UnknownStyle} {f : Line → β} {g : Word → β}
    (h : ∀ a w, f (Line.ofWord style a w) = g w) (a : Address) (image : Image) :
    (linesFrom style a image).map f = (words image).map g := by
  refine List.ext_getElem? fun k => ?_
  rw [List.getElem?_map, List.getElem?_map, getElem?_linesFrom, Option.map_map]
  exact congrArg (Option.map · _) (funext fun w => h _ w)

theorem map_word_linesFrom (style : UnknownStyle) (a : Address) (image : Image) :
    (linesFrom style a image).map Line.word = words image := by
  rw [map_linesFrom (g := id) (Line.word_ofWord style), List.map_id]

theorem map_body_linesFrom (style : UnknownStyle) (a : Address) (image : Image) :
    (linesFrom style a image).map Line.body = (words image).map Instruction.decode? :=
  map_linesFrom (Line.body_ofWord style) a image

theorem map_operation_linesFrom (style : UnknownStyle) (a : Address) (image : Image) :
    (linesFrom style a image).map Line.operation = (words image).map Operation.ofWord :=
  map_linesFrom (Line.operation_ofWord style) a image

/-- The addresses depend on the size of an image alone. -/
theorem map_address_linesFrom (style : UnknownStyle) (a : Address) (image : Image) :
    (linesFrom style a image).map Line.address =
      (List.range (image.length / 2)).map fun k => a + BitVec.ofNat 16 (2 * k) := by
  refine List.ext_getElem? fun k => ?_
  rw [List.getElem?_map, getElem?_linesFrom, List.getElem?_map]
  by_cases hk : k < image.length / 2
  · rw [List.getElem?_eq_getElem (by rwa [length_words]), List.getElem?_range hk]
    rfl
  · rw [List.getElem?_eq_none (by rw [length_words]; omega),
      List.getElem?_eq_none (by rw [List.length_range]; omega)]
    rfl

end Chip8.Listing
