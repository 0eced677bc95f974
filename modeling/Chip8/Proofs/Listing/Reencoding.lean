import Chip8.Proofs.Instruction.Canonical
import Chip8.Proofs.Listing.Acceptance
import Chip8.Proofs.Listing.Words

/-!
# Writing an image again from its listing

Each line of a listing can be written back: as the word of its instruction, or as its own two bytes
if it shows none. The image that comes out is the canonical form of the one that was listed.

It has to be an image of even length. An odd last byte is not in the listing, so there is no line to
write it back from.

## Main definitions

* `Listing.Line.encoded`, `Listing.reencode` — a line, and a whole listing, written back

## Main results

* `Listing.reencode_linesFrom` — the words of the new image are the rewritten words of the old one
* `Listing.reencode_changes_only_aliases` — the headline: the new image is listed at the same
  addresses with the same bodies, a second round changes nothing, and the words that differ are
  exactly the aliases
-/

namespace Chip8.Listing

/-- The bytes a line is written back as: those of its instruction, or its own if it has none. -/
def Line.encoded (l : Line) : List Byte :=
  match l.body with
  | some i => i.encode.bytes
  | none => [l.high, l.low]

/-- The image that a listing is written back as. -/
def reencode (ls : List Line) : Image := ls.flatMap Line.encoded

theorem Line.encoded_ofWord (style : UnknownStyle) (a : Address) (w : Word) :
    (Line.ofWord style a w).encoded = w.rewritten.bytes := by
  rw [encoded, body_ofWord]
  cases h : Instruction.decode? w with
  | some i => rw [Word.rewritten_of_decode? h]
  | none => rw [Word.rewritten_of_decode?_none h]; rfl

theorem reencode_linesFrom (style : UnknownStyle) (a : Address) (image : Image) :
    reencode (linesFrom style a image) = bytesOf ((words image).map Word.rewritten) := by
  rw [reencode, List.flatMap_def, map_linesFrom (Line.encoded_ofWord style), bytesOf,
    List.flatMap_map, List.flatMap_def]

theorem length_reencode_linesFrom {image : Image} (heven : image.length % 2 = 0)
    (style : UnknownStyle) (a : Address) :
    (reencode (linesFrom style a image)).length = image.length := by
  rw [reencode_linesFrom, length_bytesOf, List.length_map, length_words]
  omega

/-- An image of even length is its own new image if and only if writing keeps each of its words. -/
theorem reencode_linesFrom_eq_iff {image : Image} (heven : image.length % 2 = 0)
    (style : UnknownStyle) (a : Address) :
    reencode (linesFrom style a image) = image ↔ ∀ w ∈ words image, ¬ w.IsAlias := by
  have hwords : reencode (linesFrom style a image) = image ↔
      (words image).map Word.rewritten = (words image).map id := by
    rw [reencode_linesFrom, List.map_id]
    refine ⟨fun h => ?_, fun h => ?_⟩
    · rw [← words_bytesOf ((words image).map Word.rewritten), h]
    · rw [h, bytesOf_words heven]
  rw [hwords, List.map_inj_left]
  refine forall₂_congr fun w _ => ?_
  rw [← Word.rewritten_ne_iff]
  exact Decidable.not_not.symm

/-- **Writing an image again is bringing it to its canonical form.** Of an accepted image of even
length, nothing that can be seen in the listing changes but the bytes of the aliases, and those
lose their second nibble. -/
theorem reencode_changes_only_aliases {o : Options} {image : Image} {ls : List Line}
    (hls : (lines o image).value = .ok ls) (heven : image.length % 2 = 0) :
    (reencode ls).length = image.length ∧
      (∃ ls', (lines o (reencode ls)).value = .ok ls' ∧
        ls'.map Line.address = ls.map Line.address ∧
        ls'.map Line.body = ls.map Line.body ∧
        reencode ls' = reencode ls ∧
        ∀ (k : Nat) (l l' : Line), ls[k]? = some l → ls'[k]? = some l' →
          l'.word.bytes = l.encoded ∧
          (l'.word ≠ l.word ↔ l.word.IsAlias) ∧
          (l.word.IsAlias ↔ ∃ x : Nibble, x ≠ 0 ∧
            (l.word = Word.ofByte 0 x 0xE0 ∨ l.word = Word.ofByte 0 x 0xEE)) ∧
          (l.word.IsAlias → l'.word = l.word &&& 0x00FF)) ∧
      (reencode ls = image ↔ ∀ l ∈ ls, ¬ l.word.IsAlias) := by
  obtain ⟨haccepts, rfl⟩ := value_lines_eq_ok_iff.mp hls
  have hlength := length_reencode_linesFrom heven o.unknownStyle o.loadAddress
  have hwords : words (reencode (linesFrom o.unknownStyle o.loadAddress image)) =
      (words image).map Word.rewritten := by
    rw [reencode_linesFrom, words_bytesOf]
  have haccepts' : o.Accepts (reencode (linesFrom o.unknownStyle o.loadAddress image)) :=
    Options.accepts_of_even (hlength ▸ haccepts.length_le) (hlength ▸ heven)
  refine ⟨hlength, ⟨_, value_lines_of_accepts haccepts', ?_, ?_, ?_, ?_⟩, ?_⟩
  · rw [map_address_linesFrom, map_address_linesFrom, hlength]
  · rw [map_body_linesFrom, map_body_linesFrom, hwords, List.map_map]
    exact congrArg (List.map · _) (funext Word.decode?_rewritten)
  · rw [reencode_linesFrom, hwords, List.map_map, reencode_linesFrom]
    exact congrArg (fun f => bytesOf (List.map f _)) (funext Word.rewritten_rewritten)
  · intro k l l' hl hl'
    rw [getElem?_linesFrom] at hl hl'
    rw [hwords, List.getElem?_map, Option.map_map] at hl'
    obtain ⟨w, hw, rfl⟩ := Option.map_eq_some_iff.mp hl
    obtain ⟨w', hw', rfl⟩ := Option.map_eq_some_iff.mp hl'
    obtain rfl := Option.some.inj (hw.symm.trans hw')
    rw [Function.comp_apply, Line.word_ofWord, Line.word_ofWord, Line.encoded_ofWord]
    exact ⟨rfl, w.rewritten_ne_iff, w.isAlias_iff, Word.rewritten_of_isAlias⟩
  · rw [reencode_linesFrom_eq_iff heven, ← map_word_linesFrom o.unknownStyle o.loadAddress]
    exact List.forall_mem_map

/-- An alias of the instruction that clears the screen, and a word that is no instruction. -/
theorem reencode_alias_then_unknown :
    (lines {} [0x01, 0xE0, 0xF0, 0x00]).value =
        .ok (linesFrom .addressed programStart [0x01, 0xE0, 0xF0, 0x00]) ∧
      reencode (linesFrom .addressed programStart [0x01, 0xE0, 0xF0, 0x00]) ≠
        [0x01, 0xE0, 0xF0, 0x00] := by
  have hls : (lines {} [0x01, 0xE0, 0xF0, 0x00]).value =
      .ok (linesFrom .addressed programStart [0x01, 0xE0, 0xF0, 0x00]) := rfl
  refine ⟨hls, fun h => ?_⟩
  have hnone := (reencode_changes_only_aliases hls rfl).2.2.mp h
  exact hnone _ List.mem_cons_self ⟨rfl, rfl, by decide⟩

end Chip8.Listing
