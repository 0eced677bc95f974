import Chip8.Proofs.Listing.Refusal
import Chip8.Proofs.Listing.Sizes

/-!
# One image in both styles

The style of a listing concerns words that are no instructions, and of these only the columns. This
file compares the two listings of one image. Nothing that is checked beforehand looks at the style,
so there are two listings or none. Then their lines show the same words at the same addresses, and
the bare listing is the addressed one with the columns cut off at every line that is unknown.

The columns are eleven characters wide at every line, and so are they in bytes. Each unknown line
makes the bare listing shorter by eleven, whether the bytes are counted in the text or by a sink.

## Main definitions

* `Listing.Options.styled` — the same options with another style
* `Listing.Line.stripped` — the text of a line, without its columns if the line is unknown
* `Listing.Options.StripsColumns` — what is promised of an image in both styles

## Main results

* `Listing.text_ofWord_bare` — one line in both styles
* `Listing.lineSize_addressed`, `Listing.textSize_addressed` — the sizes of both lines and listings
* `Listing.stripsColumns` — the headline: the promise is kept for every image and all options
-/

namespace Chip8.Listing

open Instruction (decode?)

/-- The same options with another style. -/
def Options.styled (o : Options) (style : UnknownStyle) : Options := { o with unknownStyle := style }

/-! ### Lines -/

/-- The text of a line, without its first eleven characters if the line is unknown. -/
def Line.stripped (l : Line) : String :=
  if l.isUnknown then String.ofList (l.text.toList.drop 11) else l.text

section

variable (a : Address) (w : Word)

theorem isUnknown_ofWord (style : UnknownStyle) :
    (Line.ofWord style a w).isUnknown = (decode? w).isNone := by
  rw [Line.isUnknown, Line.body_ofWord]

theorem not_isMarker_ofWord_addressed : ¬ (Line.ofWord .addressed a w).IsMarker := by
  simp [isMarker_ofWord_iff]

/-- A word that is an instruction has one line in both styles. -/
theorem text_ofWord_bare_of_isSome (h : (decode? w).isSome) :
    (Line.ofWord .bare a w).text = (Line.ofWord .addressed a w).text := by
  rw [text_ofWord_of_not_isMarker (not_isMarker_ofWord_of_isSome .bare a h),
    text_ofWord_of_not_isMarker (not_isMarker_ofWord_addressed a w)]
  rfl

/-- The line of any other word is the bare marker, with columns in front of it or without. -/
theorem text_ofWord_addressed_of_isNone (h : (decode? w).isNone) :
    (Line.ofWord .addressed a w).text =
      (Line.ofWord .addressed a w).columns ++ (Line.ofWord .bare a w).text := by
  have hnone : decode? w = none := Option.isNone_iff_eq_none.mp h
  have hmarker : (Line.ofWord .bare a w).IsMarker :=
    (isMarker_ofWord_iff .bare a w).mpr ⟨hnone, rfl⟩
  rw [text_ofWord_of_not_isMarker (not_isMarker_ofWord_addressed a w),
    Line.text_of_isMarker hmarker, Operation.ofWord_of_decode?_none hnone]
  rfl

/-- **The bare line of a word is its addressed line, stripped.** -/
theorem text_ofWord_bare :
    (Line.ofWord .bare a w).text = (Line.ofWord .addressed a w).stripped := by
  rw [Line.stripped, isUnknown_ofWord]
  cases h : (decode? w).isNone with
  | true =>
    have hdrop : ((Line.ofWord .addressed a w).columns ++ (Line.ofWord .bare a w).text).toList.drop
        11 = (Line.ofWord .bare a w).text.toList := by
      rw [String.toList_append]
      exact List.drop_left' (Line.length_columns _)
    rw [if_pos rfl, text_ofWord_addressed_of_isNone a w h, hdrop, String.ofList_toList]
  | false =>
    have hsome : (decode? w).isSome := by simpa [Option.isNone_eq_false_iff] using h
    rw [text_ofWord_bare_of_isSome a w hsome]
    rfl

end

/-! ### Listings -/

theorem map_text_linesFrom_bare (a : Address) (image : Image) :
    (linesFrom .bare a image).map Line.text = (linesFrom .addressed a image).map Line.stripped := by
  refine List.ext_getElem? ?_
  intro k
  rw [List.getElem?_map, List.getElem?_map, getElem?_linesFrom, getElem?_linesFrom, Option.map_map,
    Option.map_map]
  congr 1
  funext w
  exact text_ofWord_bare _ w

theorem textOf_linesFrom_bare (a : Address) (image : Image) :
    textOf (linesFrom .bare a image) =
      String.join ((linesFrom .addressed a image).map fun l => l.stripped ++ "\n") := by
  have hended : Line.ended = (· ++ "\n") ∘ Line.text := rfl
  have hstripped : (fun l : Line => l.stripped ++ "\n") = (· ++ "\n") ∘ Line.stripped := rfl
  rw [textOf, hended, hstripped, ← List.map_map, ← List.map_map, map_text_linesFrom_bare]

theorem lineSize_addressed (w : Word) :
    lineSize .addressed w = lineSize .bare w + if (decode? w).isNone then 11 else 0 := by
  rw [lineSize, lineSize]
  cases decode? w with
  | none =>
    simp
    omega
  | some i => simp

/-- **Each unknown line is longer by its columns in addressed style.** -/
theorem textSize_addressed (ws : List Word) :
    textSize .addressed ws =
      textSize .bare ws + 11 * ws.countP fun w => (decode? w).isNone := by
  induction ws with
  | nil => rfl
  | cons w ws ih =>
    rw [textSize, textSize, lineSize_addressed, ih, List.countP_cons]
    split <;> omega

theorem countP_isUnknown_linesFrom (style : UnknownStyle) (a : Address) (image : Image) :
    (linesFrom style a image).countP Line.isUnknown =
      (words image).countP fun w => (decode? w).isNone := by
  have hunknown := map_linesFrom (f := Line.isUnknown) (g := fun w => (decode? w).isNone)
    (fun a w => isUnknown_ofWord a w style) a image
  have hcount := congrArg (List.countP id) hunknown
  simpa [List.countP_map] using hcount

/-- What is promised of an image that is listed in both styles. -/
structure Options.StripsColumns (o : Options) (image : Image) : Prop where
  /-- Both listings fail together and with the same error, in whatever way they are asked for. -/
  sweep_fails (e : Error) :
    sweep (o.styled .bare) image = .error e ↔ sweep (o.styled .addressed) image = .error e
  lines_fails (e : Error) : (lines (o.styled .bare) image).value = .error e ↔
    (lines (o.styled .addressed) image).value = .error e
  disassemble_fails (e : Error) : (disassemble (o.styled .bare) image).value = .error e ↔
    (disassemble (o.styled .addressed) image).value = .error e
  writeTo_fails {sink sink' : Sink} (e : Error) : sink.TakesEverything → sink'.TakesEverything →
    ((writeTo (o.styled .bare) image sink).result = .error e ↔
      (writeTo (o.styled .addressed) image sink').result = .error e)
  /-- If there is one listing there is the other, of as many lines. -/
  listed {ls : List Line} : (lines (o.styled .addressed) image).value = .ok ls →
    ∃ ls', (lines (o.styled .bare) image).value = .ok ls' ∧ ls'.length = ls.length
  /-- Lines show the same words at the same addresses, and a bare line is the addressed one without
  its columns, if it is unknown, and else the same. -/
  entry {ls ls' : List Line} {k : Nat} {l l' : Line} :
    (lines (o.styled .addressed) image).value = .ok ls →
    (lines (o.styled .bare) image).value = .ok ls' → ls[k]? = some l → ls'[k]? = some l' →
      l'.address = l.address ∧ l'.high = l.high ∧ l'.low = l.low ∧ l'.body = l.body ∧
        (l.isUnknown → ∃ front, front.length = 11 ∧ l.text = front ++ l'.text) ∧
        (¬ l.isUnknown → l'.text = l.text)
  /-- The bare text is the addressed one with these columns cut off and nothing else. -/
  text {ls : List Line} : (lines (o.styled .addressed) image).value = .ok ls →
    (disassemble (o.styled .addressed) image).value =
        .ok (String.join (ls.map fun l => l.text ++ "\n")) ∧
      (disassemble (o.styled .bare) image).value =
        .ok (String.join (ls.map fun l => l.stripped ++ "\n"))
  /-- Sinks that take everything count eleven bytes less for each unknown line. -/
  delivered {ls : List Line} {sink sink' : Sink} :
    (lines (o.styled .addressed) image).value = .ok ls →
    sink.TakesEverything → sink'.TakesEverything →
      ∃ size, (writeTo (o.styled .bare) image sink).result = .ok size ∧
        (writeTo (o.styled .addressed) image sink').result =
          .ok (size + 11 * ls.countP Line.isUnknown)

theorem refuses_styled_iff (o : Options) (style style' : UnknownStyle) (image : Image) (e : Error) :
    (o.styled style).Refuses image e ↔ (o.styled style').Refuses image e := by
  rw [← value_check_eq_error_iff, ← value_check_eq_error_iff]
  rfl

/-- **The style only strips the columns of unknown lines.** -/
theorem stripsColumns (o : Options) (image : Image) : o.StripsColumns image where
  sweep_fails e := by
    rw [sweep_eq_error_iff, sweep_eq_error_iff]
    rfl
  lines_fails e := by
    rw [value_lines_eq_error_iff, value_lines_eq_error_iff, refuses_styled_iff o .bare .addressed]
  disassemble_fails e := by
    rw [value_disassemble_eq_error_iff, value_disassemble_eq_error_iff,
      refuses_styled_iff o .bare .addressed]
  writeTo_fails := by
    intro sink sink' e hsink hsink'
    rw [result_writeTo_of_takesEverything hsink, result_writeTo_of_takesEverything hsink',
      map_eq_error_iff, map_eq_error_iff, value_disassemble_eq_error_iff,
      value_disassemble_eq_error_iff, refuses_styled_iff o .bare .addressed]
  listed := by
    intro ls hls
    obtain ⟨haccepts, rfl⟩ := value_lines_eq_ok_iff.mp hls
    refine ⟨_, value_lines_of_accepts haccepts, ?_⟩
    rw [length_linesFrom, length_linesFrom]
  entry := by
    intro ls ls' k l l' hls hls' hl hl'
    obtain ⟨-, rfl⟩ := value_lines_eq_ok_iff.mp hls
    obtain ⟨-, rfl⟩ := value_lines_eq_ok_iff.mp hls'
    obtain ⟨w, rfl, rfl⟩ := exists_word_of_getElem?_linesFrom hl hl'
    refine ⟨rfl, rfl, rfl, rfl, fun hunknown => ?_, fun hknown => ?_⟩
    · exact ⟨_, (String.length_toList).symm.trans (Line.length_columns _),
        text_ofWord_addressed_of_isNone _ w (isUnknown_ofWord _ w _ ▸ hunknown)⟩
    · refine text_ofWord_bare_of_isSome _ w ?_
      simpa [isUnknown_ofWord, Option.isSome_iff_ne_none] using hknown
  text := by
    intro ls hls
    obtain ⟨haccepts, rfl⟩ := value_lines_eq_ok_iff.mp hls
    refine ⟨value_disassemble hls, ?_⟩
    rw [value_disassemble (value_lines_of_accepts (o := o.styled .bare) haccepts)]
    exact congrArg Except.ok (textOf_linesFrom_bare o.loadAddress image)
  delivered := by
    intro ls sink sink' hls hsink hsink'
    obtain ⟨haccepts, rfl⟩ := value_lines_eq_ok_iff.mp hls
    refine ⟨_, result_writeTo_eq_textSize (o := o.styled .bare) haccepts hsink, ?_⟩
    rw [result_writeTo_eq_textSize haccepts hsink', countP_isUnknown_linesFrom]
    exact congrArg Except.ok (textSize_addressed _)

/-- A call between two unknown words. Sinks that take everything count twice eleven bytes less. -/
theorem stripsColumns_twice :
    ∃ ls ls' size, (lines {} [0xFF, 0xFF, 0x21, 0x23, 0x00, 0x00]).value = .ok ls ∧
      (lines { unknownStyle := .bare } [0xFF, 0xFF, 0x21, 0x23, 0x00, 0x00]).value = .ok ls' ∧
      ls'.length = ls.length ∧
      ls.map Line.stripped =
        ["unknown opcode", "0202 21 23 CALL       $123", "unknown opcode"] ∧
      (writeTo { unknownStyle := .bare } [0xFF, 0xFF, 0x21, 0x23, 0x00, 0x00] {}).result =
        .ok size ∧
      (writeTo {} [0xFF, 0xFF, 0x21, 0x23, 0x00, 0x00] {}).result = .ok (size + 22) := by
  have hls : (lines {} [0xFF, 0xFF, 0x21, 0x23, 0x00, 0x00]).value =
      .ok (linesFrom .addressed programStart [0xFF, 0xFF, 0x21, 0x23, 0x00, 0x00]) := rfl
  have hpromise := stripsColumns {} [0xFF, 0xFF, 0x21, 0x23, 0x00, 0x00]
  obtain ⟨ls', hls', hlength⟩ := hpromise.listed hls
  obtain ⟨size, hbare, haddressed⟩ :=
    hpromise.delivered hls takesEverything_empty takesEverything_empty
  exact ⟨_, ls', size, hls, hls', hlength, by decide, hbare, haddressed⟩

end Chip8.Listing
