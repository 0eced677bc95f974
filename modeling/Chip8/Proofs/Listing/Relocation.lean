import Chip8.Proofs.Listing.Placement
import Chip8.Proofs.Listing.Sizes

/-!
# One image at two addresses

Where an image lies decides whether it fits, and it is shown in the first column of every line.
This file says that it does nothing else. Two listings of one image at two load addresses have the
same words at the same indices, and every address of the one is as far from its address in the other
as the two load addresses are apart. Since an address is written in four digits wherever it lies,
the two texts have one size as well.

## In both directions

An image that fits somewhere fits everywhere in front of that place, but not always behind it. So
what is said of acceptance and refusal goes from higher load addresses to lower ones. What is said
of two listings presupposes that there are two, and then neither direction is preferred.
Distances are told without a difference: one address plus the other start is the other address plus
the first start.

## Main definitions

* `Listing.Options.placedAt` — the same options with another load address
* `Listing.Options.Relocates` — what is promised of an image at two load addresses

## Main results

* `Listing.accepts_placedAt`, `Listing.Options.Refuses.placedAt` — acceptance and refusal
* `Listing.drop_text_ofWord_eq`, `Listing.text_ofWord_eq_of_isMarker` — one line at two addresses
* `Listing.relocates` — the headline: the promise is kept for every image and every two addresses
-/

namespace Chip8.Listing

/-- The same options for an image that is placed elsewhere. -/
def Options.placedAt (o : Options) (start : Address) : Options := { o with loadAddress := start }

/-! ### Acceptance -/

section

variable {o : Options} {start : Address} {image : Image}

theorem accepts_placedAt (hstart : start.toNat ≤ o.loadAddress.toNat) (h : o.Accepts image) :
    (o.placedAt start).Accepts image := by
  have hsize := h.length_le
  refine ⟨Nat.le_sub_of_add_le' ?_, h.2⟩
  show start.toNat + image.length ≤ addressSpace
  omega

/-- **An odd last byte is refused further in front as well**, at its new place. -/
theorem Options.Refuses.placedAt {address : Address} {byte : Byte}
    (hstart : start.toNat ≤ o.loadAddress.toNat) (h : o.Refuses image (.oddLength address byte)) :
    ∃ address', address.toNat + start.toNat = address'.toNat + o.loadAddress.toNat ∧
      (o.placedAt start).Refuses image (.oddLength address' byte) := by
  cases h with
  | oddLength hsize hodd hpolicy hbyte haddress =>
    have hfits : start.toNat + image.length ≤ 0x10000 := by omega
    have hplace : (BitVec.ofNat 16 (start.toNat + image.length - 1)).toNat =
        start.toNat + image.length - 1 := by
      rw [BitVec.toNat_ofNat]
      omega
    refine ⟨_, ?_, .oddLength hfits hodd hpolicy hbyte hplace⟩
    rw [haddress, hplace]
    omega

end

/-! ### Lines -/

section

variable (style : UnknownStyle) (a a' : Address) (w : Word)

theorem isMarker_ofWord_congr :
    (Line.ofWord style a w).IsMarker ↔ (Line.ofWord style a' w).IsMarker := by
  rw [isMarker_ofWord_iff, isMarker_ofWord_iff]

theorem text_ofWord_eq_of_isMarker (h : (Line.ofWord style a w).IsMarker) :
    (Line.ofWord style a w).text = (Line.ofWord style a' w).text := by
  rw [Line.text_of_isMarker h, Line.text_of_isMarker ((isMarker_ofWord_congr ..).mp h)]

theorem length_text_ofWord_eq :
    (Line.ofWord style a w).text.length = (Line.ofWord style a' w).text.length := by
  by_cases h : (Line.ofWord style a w).IsMarker
  · rw [text_ofWord_eq_of_isMarker style a a' w h]
  · have h' : ¬ (Line.ofWord style a' w).IsMarker := mt (isMarker_ofWord_congr ..).mpr h
    rw [text_ofWord_of_not_isMarker h, text_ofWord_of_not_isMarker h']
    simp only [← String.length_toList, String.toList_append, List.length_append,
      Line.length_columns]

/-- **The address is all in which the two lines of a word differ.** -/
theorem drop_text_ofWord_eq :
    (Line.ofWord style a w).text.toList.drop 4 = (Line.ofWord style a' w).text.toList.drop 4 := by
  by_cases h : (Line.ofWord style a w).IsMarker
  · rw [text_ofWord_eq_of_isMarker style a a' w h]
  · have h' : ¬ (Line.ofWord style a' w).IsMarker := mt (isMarker_ofWord_congr ..).mpr h
    have hwidth : ∀ l : Line, 4 ≤ l.columns.toList.length := by
      intro l
      rw [Line.length_columns]
      decide
    rw [text_ofWord_of_not_isMarker h, text_ofWord_of_not_isMarker h', String.toList_append,
      String.toList_append, List.drop_append_of_le_length (hwidth _),
      List.drop_append_of_le_length (hwidth _), Line.drop_columns, Line.drop_columns]
    rfl

end

/-! ### Listings -/

/-- What is promised of an image that is listed with the options and also at `start`. -/
structure Options.Relocates (o : Options) (start : Address) (image : Image) : Prop where
  /-- An image that is listed is listed everywhere in front of its place. -/
  accepted {ls : List Line} : start.toNat ≤ o.loadAddress.toNat → (lines o image).value = .ok ls →
    ∃ ls', (lines (o.placedAt start) image).value = .ok ls'
  swept {s : Sweep} : start.toNat ≤ o.loadAddress.toNat → sweep o image = .ok s →
    ∃ s', sweep (o.placedAt start) image = .ok s'
  /-- One that is refused for its odd last byte is refused there too, in whatever way it is to be
  listed, and the place of the byte moves along. -/
  refused {address : Address} {byte : Byte} : start.toNat ≤ o.loadAddress.toNat →
    (lines o image).value = .error (.oddLength address byte) →
      ∃ address', address.toNat + start.toNat = address'.toNat + o.loadAddress.toNat ∧
        (lines (o.placedAt start) image).value = .error (.oddLength address' byte) ∧
        (disassemble (o.placedAt start) image).value = .error (.oddLength address' byte) ∧
        ∀ sink, (writeTo (o.placedAt start) image sink).result = .error (.oddLength address' byte)
  length {ls ls' : List Line} : (lines o image).value = .ok ls →
    (lines (o.placedAt start) image).value = .ok ls' → ls.length = ls'.length
  /-- Entries differ in their address alone, and by the distance of the two places. -/
  entry {ls ls' : List Line} {k : Nat} {l l' : Line} : (lines o image).value = .ok ls →
    (lines (o.placedAt start) image).value = .ok ls' → ls[k]? = some l → ls'[k]? = some l' →
      l.high = l'.high ∧ l.low = l'.low ∧ l.body = l'.body ∧
        l.address.toNat + start.toNat = l'.address.toNat + o.loadAddress.toNat
  /-- Their texts differ in the first four characters at most, and bare markers in none. -/
  text {ls ls' : List Line} {k : Nat} {l l' : Line} : (lines o image).value = .ok ls →
    (lines (o.placedAt start) image).value = .ok ls' → ls[k]? = some l → ls'[k]? = some l' →
      l.text.length = l'.text.length ∧ l.text.toList.drop 4 = l'.text.toList.drop 4 ∧
        (l.isUnknown → o.unknownStyle = .bare → l.text = l'.text)
  /-- The two listings are made of these lines and have one size. -/
  listed {ls ls' : List Line} : (lines o image).value = .ok ls →
    (lines (o.placedAt start) image).value = .ok ls' →
      ∃ s s', (disassemble o image).value = .ok s ∧
        (disassemble (o.placedAt start) image).value = .ok s' ∧
        Text.pieces '\n' s = ls.map Line.text ++ [""] ∧
        Text.pieces '\n' s' = ls'.map Line.text ++ [""] ∧ s.utf8ByteSize = s'.utf8ByteSize
  /-- Sinks that take everything count the same number of bytes. -/
  delivered {ls ls' : List Line} : (lines o image).value = .ok ls →
    (lines (o.placedAt start) image).value = .ok ls' →
      ∃ size, ∀ sink : Sink, sink.TakesEverything → (writeTo o image sink).result = .ok size ∧
        (writeTo (o.placedAt start) image sink).result = .ok size

/-- **Relocation only changes the address column.** -/
theorem relocates (o : Options) (start : Address) (image : Image) : o.Relocates start image where
  accepted := by
    intro ls hstart hls
    obtain ⟨haccepts, -⟩ := value_lines_eq_ok_iff.mp hls
    exact ⟨_, value_lines_of_accepts (accepts_placedAt hstart haccepts)⟩
  swept := by
    intro s hstart hs
    obtain ⟨hsize, -⟩ := sweep_eq_ok_iff.mp hs
    exact ⟨_, sweep_eq_ok_iff.mpr ⟨Nat.le_trans (Nat.add_le_add_right hstart _) hsize, rfl⟩⟩
  refused := by
    intro address byte hstart hrefused
    obtain ⟨address', hmoved, hrefuses⟩ :=
      ((value_lines_eq_error_iff o image _).mp hrefused).placedAt hstart
    refine ⟨address', hmoved, (value_lines_eq_error_iff _ _ _).mpr hrefuses,
      (value_disassemble_eq_error_iff _ _ _).mpr hrefuses, fun sink => ?_⟩
    rw [writeTo_of_check (check_of_refuses hrefuses)]
  length := by
    intro ls ls' hls hls'
    obtain ⟨-, rfl⟩ := value_lines_eq_ok_iff.mp hls
    obtain ⟨-, rfl⟩ := value_lines_eq_ok_iff.mp hls'
    rw [length_linesFrom, length_linesFrom]
  entry := by
    intro ls ls' k l l' hls hls' hl hl'
    obtain ⟨haccepts, rfl⟩ := value_lines_eq_ok_iff.mp hls
    obtain ⟨haccepts', rfl⟩ := value_lines_eq_ok_iff.mp hls'
    have hplace := (toNat_address_of_getElem?_linesFrom haccepts.length_le hl).1
    have hplace' : l'.address.toNat = start.toNat + 2 * k :=
      (toNat_address_of_getElem?_linesFrom haccepts'.length_le hl').1
    obtain ⟨w, rfl, rfl⟩ := exists_word_of_getElem?_linesFrom hl hl'
    refine ⟨rfl, rfl, rfl, ?_⟩
    rw [hplace, hplace']
    omega
  text := by
    intro ls ls' k l l' hls hls' hl hl'
    obtain ⟨-, rfl⟩ := value_lines_eq_ok_iff.mp hls
    obtain ⟨-, rfl⟩ := value_lines_eq_ok_iff.mp hls'
    obtain ⟨w, rfl, rfl⟩ := exists_word_of_getElem?_linesFrom hl hl'
    refine ⟨length_text_ofWord_eq .., drop_text_ofWord_eq .., fun hunknown hbare => ?_⟩
    exact text_ofWord_eq_of_isMarker _ _ _ w ⟨hunknown, hbare⟩
  listed := by
    intro ls ls' hls hls'
    refine ⟨_, _, value_disassemble hls, value_disassemble hls', pieces_textOf ls,
      pieces_textOf ls', ?_⟩
    obtain ⟨-, rfl⟩ := value_lines_eq_ok_iff.mp hls
    obtain ⟨-, rfl⟩ := value_lines_eq_ok_iff.mp hls'
    rw [utf8ByteSize_textOf_linesFrom, utf8ByteSize_textOf_linesFrom]
    rfl
  delivered := by
    intro ls ls' hls hls'
    obtain ⟨haccepts, -⟩ := value_lines_eq_ok_iff.mp hls
    obtain ⟨haccepts', -⟩ := value_lines_eq_ok_iff.mp hls'
    refine ⟨_, fun sink hsink => ⟨result_writeTo_eq_textSize haccepts hsink, ?_⟩⟩
    exact result_writeTo_eq_textSize haccepts' hsink

/-- An image that ends with the address space is listed far in front of that place as well. If its
odd last byte is refused, that is so at both places. -/
theorem relocates_from_end :
    (∃ s s', (disassemble { loadAddress := 0xFFFB, unknownStyle := .bare }
          [0x6A, 0x01, 0xF0, 0x00, 0x77]).value = .ok s ∧
        (disassemble { loadAddress := 0xA, unknownStyle := .bare }
          [0x6A, 0x01, 0xF0, 0x00, 0x77]).value = .ok s' ∧
        Text.pieces '\n' s = ["fffb 6a 01 MVI        VA,#$01", "unknown opcode", ""] ∧
        Text.pieces '\n' s' = ["000a 6a 01 MVI        VA,#$01", "unknown opcode", ""] ∧
        s.utf8ByteSize = s'.utf8ByteSize) ∧
      ∃ address', (0xFFFF#16).toNat + (0xA#16).toNat = address'.toNat + (0xFFFB#16).toNat ∧
        (lines { loadAddress := 0xA, trailingByte := .reject } [0x6A, 0x01, 0xF0, 0x00, 0x77]).value =
          .error (.oddLength address' 0x77) := by
  have hls : (lines { loadAddress := 0xFFFB, unknownStyle := .bare }
      [0x6A, 0x01, 0xF0, 0x00, 0x77]).value =
      .ok (linesFrom .bare 0xFFFB [0x6A, 0x01, 0xF0, 0x00, 0x77]) := rfl
  have hls' : (lines { loadAddress := 0xA, unknownStyle := .bare }
      [0x6A, 0x01, 0xF0, 0x00, 0x77]).value =
      .ok (linesFrom .bare 0xA [0x6A, 0x01, 0xF0, 0x00, 0x77]) := rfl
  have hrefused : (lines { loadAddress := 0xFFFB, trailingByte := .reject }
      [0x6A, 0x01, 0xF0, 0x00, 0x77]).value = .error (.oddLength 0xFFFF 0x77) := rfl
  constructor
  · obtain ⟨s, s', hs, hs', hpieces, hpieces', hsize⟩ := (relocates _ 0xA _).listed hls hls'
    exact ⟨s, s', hs, hs', hpieces.trans (by decide), hpieces'.trans (by decide), hsize⟩
  · obtain ⟨address', hmoved, hrefused', -⟩ := (relocates _ 0xA _).refused (by decide) hrefused
    exact ⟨address', hmoved, hrefused'⟩

end Chip8.Listing
