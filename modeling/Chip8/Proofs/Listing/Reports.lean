import Chip8.Proofs.Instruction.Pictures
import Chip8.Proofs.Listing.Styles

/-!
# What is reported of a listing

A listing comes with at most two messages. The first is a warning about an odd last byte. It is
given by the checks, so it accompanies every listing whose parity is looked at, and whatever becomes
of the listing afterwards cannot take it back. The second is a summary, and only a listing that is
given as a whole has one. A sweep has neither: its parity is not looked at, and it is given as it
is, not as a `Logged` answer.

## Three counts of unknown words

The summary counts the lines that have no body. Whoever reads the text counts the lines that end in
the marker, and a machine that comes across the same words counts those that are handed over as
unknown. It is one number. A line that is an instruction cannot be mistaken for an unknown one in
either style, because the marker ends in a small letter, and instructions are written without any.

## Main definitions

* `Text.EndsIn` — a text ends in another one
* `Listing.Options.Warns` — the warnings that an image deserves
* `Listing.Options.Reports` — what is promised of the messages of an image

## Main results

* `Listing.Line.endsIn_unknownMarker_iff` — the lines that end in the marker
* `Listing.countP_endsIn_pieces` — how many there are in a text
* `Listing.log_lines`, `Listing.log_writeTo` — the messages, in terms of those of the checks
* `Listing.exists_reports` — the headline: the promise is kept for every accepted image
-/

namespace Chip8

namespace Text

/-- A text ends in another one. -/
def EndsIn (s ending : String) : Prop := ending.toList <:+ s.toList

instance (s ending : String) : Decidable (EndsIn s ending) :=
  inferInstanceAs (Decidable (_ <:+ _))

end Text

namespace Listing

open Instruction (decode?)
open Text (EndsIn)

/-! ### Lines that end in the marker -/

namespace Line

variable {l : Line} {i : Instruction}

/-- The last character of a line that is an instruction belongs to the instruction. -/
theorem getLast?_text_of_body (h : l.body = some i) :
    ∃ c ∈ i.text.toList, l.text.toList.getLast? = some c := by
  have hne : i.text.toList ≠ [] := by
    intro hnil
    have htake := i.length_mnemonicColumn
    rw [← i.take_text, hnil] at htake
    exact absurd htake (by decide)
  refine ⟨_, List.getLast_mem hne, ?_⟩
  rw [text_of_body h, String.toList_append, List.getLast?_append, List.getLast?_eq_some_getLast hne]
  rfl

theorem not_endsIn_unknownMarker (h : l.body = some i) : ¬ EndsIn l.text unknownMarker := by
  intro hends
  have hmarker : unknownMarker.toList.getLast? = some 'e' := by decide
  obtain ⟨front, hfront⟩ := hends
  obtain ⟨c, hc, hlast⟩ := getLast?_text_of_body h
  rw [← hfront, List.getLast?_append, hmarker] at hlast
  obtain rfl : 'e' = c := Option.some.inj hlast
  exact i.not_mem_text (by decide) hc

/-- **The lines that end in the marker are the unknown ones**, in either style. -/
theorem endsIn_unknownMarker_iff (l : Line) : EndsIn l.text unknownMarker ↔ l.isUnknown := by
  rw [isUnknown]
  cases hbody : l.body with
  | some i => simpa using not_endsIn_unknownMarker hbody
  | none =>
    simp only [Option.isNone_none, iff_true]
    rw [text, hbody]
    cases l.style with
    | addressed =>
      show unknownMarker.toList <:+ (l.columns ++ unknownMarker).toList
      rw [String.toList_append]
      exact List.suffix_append ..
    | bare => exact List.suffix_refl _

end Line

/-! ### Counts -/

/-- Behind the last line break there is nothing, so no line is counted there. -/
theorem countP_endsIn_pieces (ls : List Line) :
    (Text.pieces '\n' (textOf ls)).countP (fun piece => EndsIn piece unknownMarker) =
      ls.countP Line.isUnknown := by
  have hlast : [""].countP (fun piece => EndsIn piece unknownMarker) = 0 := by decide
  rw [pieces_textOf, List.countP_append, hlast, List.countP_map, Nat.add_zero]
  refine List.countP_congr ?_
  intro l _
  simpa using l.endsIn_unknownMarker_iff

theorem countP_ofWord (ws : List Word) :
    ws.countP (fun w => Operation.ofWord w = .unknown w) =
      ws.countP fun w => (decode? w).isNone := by
  refine List.countP_congr ?_
  intro w _
  simp [Operation.ofWord_eq_unknown_iff]

/-! ### Messages -/

section

variable {o : Options} {image : Image}

/-- The warnings that an image deserves: one about its odd last byte, if it has one. -/
inductive Options.Warns (o : Options) (image : Image) : List Log.Message → Prop
  | even (heven : image.length % 2 = 0) : o.Warns image []
  | odd {byte : Byte} {address : Address} (hodd : image.length % 2 = 1)
      (hbyte : image.getLast? = some byte)
      (haddress : address.toNat = o.loadAddress.toNat + image.length - 1) :
      o.Warns image [.droppedByte byte address]

/-- The checks give these warnings and nothing else. -/
theorem warns_log_check (h : o.Accepts image) : o.Warns image (check o image).log := by
  have hsize : o.loadAddress.toNat + image.length ≤ 0x10000 := h.length_le
  rw [check, checkSize_of_le hsize]
  rcases Nat.mod_two_eq_zero_or_one image.length with heven | hodd
  · show o.Warns image (checkTrailing o image).log
    rw [checkTrailing_of_even heven]
    exact .even heven
  · have hne := ne_nil_of_odd hodd
    have hbyte := List.getLast?_eq_some_getLast hne
    have htruncate : o.trailingByte = .truncate := h.2.resolve_left (by omega)
    show o.Warns image (checkTrailing o image).log
    rw [checkTrailing_of_truncate hodd hbyte htruncate]
    exact .odd hodd hbyte (toNat_lastPlace hsize hne)

/-- A warning is worded with the byte and with its place, which is not wrapped around. -/
theorem Options.Warns.worded {warnings : List Log.Message} (h : o.Warns image warnings)
    {m : Log.Message} (hm : m ∈ warnings) :
    m.level = .warn ∧ ∃ byte, image.getLast? = some byte ∧
      m.text = "dropping trailing byte 0x" ++ Hex.text .lower 2 byte.toNat ++ " at 0x" ++
        Hex.text .lower 4 (o.loadAddress.toNat + image.length - 1) := by
  cases h with
  | even heven => exact absurd hm List.not_mem_nil
  | odd hodd hbyte haddress =>
    obtain rfl := List.mem_singleton.mp hm
    refine ⟨rfl, _, hbyte, ?_⟩
    rw [← haddress]
    rfl

theorem log_lines (h : o.Accepts image) :
    (lines o image).log = (check o image).log ++
      [.listed (image.length / 2) ((words image).countP fun w => (decode? w).isNone)] := by
  rw [← length_linesFrom o.unknownStyle o.loadAddress,
    ← countP_isUnknown_linesFrom o.unknownStyle o.loadAddress, lines,
    (value_check_eq_ok_iff o image).mpr h]
  rfl

/-- Whatever a sink answers, nothing more is said. -/
theorem log_writeTo (o : Options) (image : Image) (sink : Sink) :
    (writeTo o image sink).log = (check o image).log := by
  rw [writeTo]
  cases (check o image).value with
  | error e => rfl
  | ok u => rfl

end

/-- What is promised of the messages of an image: `warnings` are the warnings, and `unknown` is the
number of unknown words in the summary. -/
structure Options.Reports (o : Options) (image : Image) (warnings : List Log.Message)
    (unknown : Nat) : Prop where
  /-- A sweep is all that is given to whoever asks for one. -/
  sweep : sweep o image = .ok (o.start image)
  warns : o.Warns image warnings
  worded {m : Log.Message} : m ∈ warnings → m.level = .warn ∧
    ∃ byte, image.getLast? = some byte ∧
      m.text = "dropping trailing byte 0x" ++ Hex.text .lower 2 byte.toNat ++ " at 0x" ++
        Hex.text .lower 4 (o.loadAddress.toNat + image.length - 1)
  lines : (lines o image).log = warnings ++ [.listed (image.length / 2) unknown]
  disassemble : (disassemble o image).log = warnings ++ [.listed (image.length / 2) unknown]
  /-- A delivery says no more than the warnings, whether or not it comes to its end. -/
  writeTo (sink : Sink) : (writeTo o image sink).log = warnings
  /-- In either style that many lines of the text end in the marker. -/
  marked (style : UnknownStyle) : ∃ text,
    (Listing.disassemble (o.styled style) image).value = .ok text ∧
      (Text.pieces '\n' text).countP (fun piece => EndsIn piece unknownMarker) = unknown
  /-- That many words are handed over as unknown. -/
  operations : (words image).countP (fun w => Operation.ofWord w = .unknown w) = unknown

/-- **What is reported of a listing is true of it**, however the image is listed. -/
theorem exists_reports {o : Options} {image : Image} {ls : List Line}
    (hls : (lines o image).value = .ok ls) :
    ∃ warnings, o.Reports image warnings (ls.countP Line.isUnknown) := by
  obtain ⟨haccepts, rfl⟩ := value_lines_eq_ok_iff.mp hls
  rw [countP_isUnknown_linesFrom]
  have hwarns := warns_log_check haccepts
  refine ⟨(check o image).log, ?_⟩
  exact
    { sweep := sweep_eq_ok_iff.mpr ⟨haccepts.length_le, rfl⟩
      warns := hwarns
      worded := hwarns.worded
      lines := log_lines haccepts
      disassemble := log_lines haccepts
      writeTo := log_writeTo o image
      marked := by
        intro style
        have hstyled := value_lines_of_accepts (o := o.styled style) haccepts
        refine ⟨_, value_disassemble hstyled, ?_⟩
        rw [countP_endsIn_pieces, countP_isUnknown_linesFrom]
      operations := countP_ofWord _ }

/-- An odd image with an unknown word, for a sink that refuses the first line. -/
theorem exists_reports_undelivered :
    (lines {} [0xF0, 0x00, 0x00, 0xE0, 0x12]).value =
        .ok (linesFrom .addressed programStart [0xF0, 0x00, 0x00, 0xE0, 0x12]) ∧
      Options.Reports {} [0xF0, 0x00, 0x00, 0xE0, 0x12] [.droppedByte 0x12 0x204] 1 ∧
      (writeTo {} [0xF0, 0x00, 0x00, 0xE0, 0x12] { answers := [.refuse .noSpace] }).result =
        .error (.undelivered .noSpace) ∧
      (writeTo {} [0xF0, 0x00, 0x00, 0xE0, 0x12] { answers := [.refuse .noSpace] }).log =
        [.droppedByte 0x12 0x204] := by
  have hls : (lines {} [0xF0, 0x00, 0x00, 0xE0, 0x12]).value =
      .ok (linesFrom .addressed programStart [0xF0, 0x00, 0x00, 0xE0, 0x12]) := rfl
  have hcount : (linesFrom .addressed programStart [0xF0, 0x00, 0x00, 0xE0, 0x12]).countP
      Line.isUnknown = 1 := rfl
  obtain ⟨warnings, hreports⟩ := exists_reports hls
  rw [hcount] at hreports
  have hwarnings : warnings = [.droppedByte 0x12 0x204] :=
    (hreports.writeTo { answers := [.refuse .noSpace] }).symm.trans rfl
  subst hwarnings
  exact ⟨hls, hreports, rfl, hreports.writeTo _⟩

end Listing

end Chip8
