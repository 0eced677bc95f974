import Chip8.Proofs.Instruction.Text
import Chip8.Proofs.Listing.Acceptance
import Chip8.Proofs.Listing.Words
import Chip8.Text

/-!
# What a listing tells

A line shows its address and its bytes in columns of fixed width, unless it is a bare marker, and
then it shows nothing. Behind the columns stands what follows from the bytes. So two lines have one
text exactly if they are both bare markers or neither is and they show the same columns.

For whole listings it matters that no line holds a line break. Then the text can be taken apart at
its line breaks, and two listings have one text exactly if they have one text line by line.

## Reading columns

`readRow` reads the columns of any text, and answers `none` if one of them is no number. No marker
can be taken for a line: its first four characters are no number.

## Main definitions

* `Listing.Row`, `Listing.Line.row` — what the columns of a line show
* `Listing.Line.IsMarker` — a line of which only the marker is shown
* `Listing.readRow`, `Listing.rowsOf` — the columns of a text, and those of all its lines

## Main results

* `Listing.pieces_textOf` — a listing taken apart at its line breaks
* `Listing.readRow_text` — the columns are read back
* `Listing.text_ofWord_eq_iff` — when two lines have one text
* `Listing.textOf_eq_iff` — when two listings have one text
* `Listing.disassemble_determines` — the headline: what the text of an image determines, and how to
  read it
-/

namespace Chip8

/-! ### Lines -/

namespace Listing

/-- The columns in front of what a word stands for. -/
structure Row where
  address : Address
  high : Byte
  low : Byte
  deriving DecidableEq, Repr

/-- The two bytes of a row in the order they are stored. -/
def Row.bytes (r : Row) : List Byte := [r.high, r.low]

namespace Line

/-- The columns of a line. -/
def row (l : Line) : Row where
  address := l.address
  high := l.high
  low := l.low

/-- Only the marker of the line is shown. -/
def IsMarker (l : Line) : Prop := l.isUnknown ∧ l.style = .bare

instance (l : Line) : Decidable l.IsMarker := inferInstanceAs (Decidable (_ ∧ _))

theorem text_of_isMarker {l : Line} (h : l.IsMarker) : l.text = unknownMarker := by
  obtain ⟨hunknown, hstyle⟩ := h
  have hbody : l.body = none := Option.isNone_iff_eq_none.mp hunknown
  rw [text, hbody, hstyle]

/-- Any other line shows its columns, and behind them what its word stands for. -/
theorem text_of_not_isMarker {l : Line} (h : ¬ l.IsMarker) :
    l.text = l.columns ++ l.operation.text := by
  rw [text, operation]
  cases hbody : l.body with
  | some i => rfl
  | none =>
    cases hstyle : l.style with
    | addressed => rfl
    | bare =>
      have hunknown : l.isUnknown = true := by rw [isUnknown, hbody]; rfl
      exact absurd ⟨hunknown, hstyle⟩ h

theorem unbroken_text (l : Line) : Text.Unbroken l.text := by
  have hmarker : Text.Unbroken unknownMarker := by decide
  by_cases h : l.IsMarker
  · rw [text_of_isMarker h]
    exact hmarker
  · have hblank : Text.Unbroken " " := by decide
    have hoperation : Text.Unbroken l.operation.text := by
      cases l.operation with
      | instruction i => exact i.unbroken_text
      | unknown w => exact hmarker
    rw [text_of_not_isMarker h]
    simp [columns, hblank, hoperation]

end Line

/-! ### Reading columns -/

/-- The columns of a text, if there are numbers in them. -/
def readRow (text : String) : Option Row :=
  match Command.readNumber 16 (text.toList.take 4),
      Command.readNumber 16 ((text.toList.drop 5).take 2),
      Command.readNumber 16 ((text.toList.drop 8).take 2) with
  | .ok address, .ok high, .ok low =>
    some {
      address := BitVec.ofNat 16 address
      high := BitVec.ofNat 8 high
      low := BitVec.ofNat 8 low }
  | _, _, _ => none

/-- Where the columns are, in characters. -/
theorem cut_columns {address high low : List Char} (rest : List Char)
    (haddress : address.length = 4) (hhigh : high.length = 2) (hlow : low.length = 2) :
    (address ++ ' ' :: (high ++ ' ' :: (low ++ rest))).take 4 = address ∧
      ((address ++ ' ' :: (high ++ ' ' :: (low ++ rest))).drop 5).take 2 = high ∧
      ((address ++ ' ' :: (high ++ ' ' :: (low ++ rest))).drop 8).take 2 = low := by
  have hsecond : (address ++ ' ' :: (high ++ ' ' :: (low ++ rest))).drop 5 =
      high ++ ' ' :: (low ++ rest) := by
    rw [List.append_cons]
    exact List.drop_left' (by simp [haddress])
  have hthird : (address ++ ' ' :: (high ++ ' ' :: (low ++ rest))).drop 8 = low ++ rest := by
    have hskip : (high ++ ' ' :: (low ++ rest)).drop 3 = low ++ rest := by
      rw [List.append_cons]
      exact List.drop_left' (by simp [hhigh])
    rw [show 8 = 5 + 3 from rfl, ← List.drop_drop, hsecond]
    exact hskip
  refine ⟨List.take_left' haddress, ?_, ?_⟩
  · rw [hsecond]
    exact List.take_left' hhigh
  · rw [hthird]
    exact List.take_left' hlow

/-- **The columns are read back**, whatever stands behind them. -/
theorem readRow_columns_append (l : Line) (rest : String) :
    readRow (l.columns ++ rest) = some l.row := by
  have hchars : (l.columns ++ rest).toList =
      Hex.digits .lower 4 l.address.toNat ++ ' ' :: (Hex.digits .lower 2 l.high.toNat ++
        ' ' :: (Hex.digits .lower 2 l.low.toNat ++ ' ' :: rest.toList)) := by
    have hblank : " ".toList = [' '] := rfl
    simp [Line.columns, hblank]
  obtain ⟨hfirst, hsecond, hthird⟩ := cut_columns (' ' :: rest.toList)
    (Hex.length_digits .lower 4 l.address.toNat) (Hex.length_digits .lower 2 l.high.toNat)
    (Hex.length_digits .lower 2 l.low.toNat)
  have haddress : Command.readNumber 16 (Hex.digits .lower 4 l.address.toNat) =
      .ok l.address.toNat :=
    Command.readNumber_digits .lower (by decide) l.address.isLt l.address.isLt
  have hbyte : ∀ b : Byte, Command.readNumber 16 (Hex.digits .lower 2 b.toNat) = .ok b.toNat :=
    fun b => Command.readNumber_digits .lower (by decide) b.isLt (Nat.lt_trans b.isLt (by decide))
  rw [readRow, hchars, hfirst, hsecond, hthird, haddress, hbyte, hbyte]
  simp [Line.row]

theorem readRow_text (l : Line) : readRow l.text = if l.IsMarker then none else some l.row := by
  split
  · rename_i h
    have hmarker : readRow unknownMarker = none := by decide
    rw [Line.text_of_isMarker h]
    exact hmarker
  · rename_i h
    rw [Line.text_of_not_isMarker h]
    exact readRow_columns_append l _

/-! ### Lines of an image -/

/-- What is not in the columns follows from the word in them. -/
theorem text_ofWord_of_not_isMarker {style : UnknownStyle} {a : Address} {w : Word}
    (h : ¬ (Line.ofWord style a w).IsMarker) :
    (Line.ofWord style a w).text =
      (Line.ofWord style a w).columns ++ (Operation.ofWord w).text := by
  rw [Line.text_of_not_isMarker h, Line.operation_ofWord]

/-- **When two lines have one text**: both are bare markers, or neither is and the columns agree. -/
theorem text_ofWord_eq_iff (style style' : UnknownStyle) (a a' : Address) (w w' : Word) :
    (Line.ofWord style a w).text = (Line.ofWord style' a' w').text ↔
      (Line.ofWord style a w).IsMarker ∧ (Line.ofWord style' a' w').IsMarker ∨
      ¬ (Line.ofWord style a w).IsMarker ∧ ¬ (Line.ofWord style' a' w').IsMarker ∧
        (Line.ofWord style a w).row = (Line.ofWord style' a' w').row := by
  constructor
  · intro h
    have hrow := congrArg readRow h
    rw [readRow_text, readRow_text] at hrow
    -- A marker has no row, so it is not the text of any other line.
    split at hrow <;> split at hrow
    case isTrue.isTrue hl hl' => exact .inl ⟨hl, hl'⟩
    case isTrue.isFalse => exact nomatch hrow
    case isFalse.isTrue => exact nomatch hrow
    case isFalse.isFalse hl hl' => exact .inr ⟨hl, hl', Option.some.inj hrow⟩
  · rintro (⟨hl, hl'⟩ | ⟨hl, hl', hrow⟩)
    · rw [Line.text_of_isMarker hl, Line.text_of_isMarker hl']
    · obtain ⟨haddress, hhigh, hlow⟩ := Row.mk.inj hrow
      -- The word is in the columns, and what stands behind them follows from it.
      obtain rfl : w = w' := Word.eq_iff_bytes.mpr ⟨hhigh, hlow⟩
      obtain rfl : a = a' := haddress
      rw [text_ofWord_of_not_isMarker hl, text_ofWord_of_not_isMarker hl']
      rfl

/-! ### Listings -/

/-- **A listing is taken apart at its line breaks**, and behind the last one there is nothing. -/
theorem pieces_textOf (ls : List Line) :
    Text.pieces '\n' (textOf ls) = ls.map Line.text ++ [""] := by
  have hsplit : (textOf ls).toList.splitOn '\n' =
      ls.map (fun l => l.text.toList) ++ [[]] := by
    induction ls with
    | nil => rfl
    | cons l ls ih =>
      have hbreak : "\n".toList = ['\n'] := rfl
      have hchars : (textOf (l :: ls)).toList = l.text.toList ++ '\n' :: (textOf ls).toList := by
        have hjoin : textOf (l :: ls) = l.ended ++ textOf ls := String.join_cons
        rw [hjoin, Line.ended, String.toList_append, String.toList_append, hbreak,
          List.append_assoc, List.singleton_append]
      rw [hchars, List.splitOn_append_cons_self_of_not_mem l.unbroken_text, ih]
      rfl
  rw [Text.pieces, Text.splitList_eq_splitOn, hsplit, List.map_append, List.map_map]
  have hofList : (String.ofList ∘ fun l : Line => l.text.toList) = Line.text :=
    funext fun l => String.ofList_toList
  rw [hofList]
  rfl

/-- **When two listings have one text**: their lines do, one by one. -/
theorem textOf_eq_iff (ls ls' : List Line) :
    textOf ls = textOf ls' ↔ ls.map Line.text = ls'.map Line.text := by
  constructor
  · intro h
    have hpieces := congrArg (Text.pieces '\n') h
    rw [pieces_textOf, pieces_textOf] at hpieces
    exact List.append_cancel_right hpieces
  · intro h
    have hended : ∀ ls : List Line, ls.map Line.ended = (ls.map Line.text).map (· ++ "\n") :=
      fun ls => by
        rw [List.map_map]
        rfl
    rw [textOf, textOf, hended, hended, h]

theorem map_eq_map_iff_getElem? {α β : Type} (f : α → β) (xs ys : List α) :
    xs.map f = ys.map f ↔ xs.length = ys.length ∧
      ∀ (k : Nat) (x y : α), xs[k]? = some x → ys[k]? = some y → f x = f y := by
  constructor
  · intro h
    refine ⟨by simpa using congrArg List.length h, fun k x y hx hy => ?_⟩
    have hk := congrArg (·[k]?) h
    simp only [List.getElem?_map, hx, hy] at hk
    exact Option.some.inj hk
  · rintro ⟨hlength, h⟩
    refine List.ext_getElem (by simpa using hlength) fun k hk hk' => ?_
    rw [List.getElem_map, List.getElem_map]
    exact h k _ _ (List.getElem?_eq_getElem _) (List.getElem?_eq_getElem _)

theorem exists_ofWord_of_getElem? {style : UnknownStyle} {a : Address} {image : Image} {k : Nat}
    {l : Line} (h : (linesFrom style a image)[k]? = some l) :
    ∃ a' w, l = Line.ofWord style a' w := by
  rw [getElem?_linesFrom] at h
  obtain ⟨w, -, rfl⟩ := Option.map_eq_some_iff.mp h
  exact ⟨_, w, rfl⟩

/-- A listing in addressed style has no bare markers. -/
theorem not_isMarker_of_mem {a : Address} {image : Image} {l : Line}
    (h : l ∈ linesFrom .addressed a image) : ¬ l.IsMarker := by
  obtain ⟨k, hk⟩ := List.mem_iff_getElem?.mp h
  obtain ⟨a', w, rfl⟩ := exists_ofWord_of_getElem? hk
  exact fun hmarker => nomatch hmarker.2

/-- The rows of all pieces of a text that have columns. -/
def rowsOf (text : String) : List Row := ((Text.pieces '\n' text).map readRow).filterMap id

theorem map_readRow_pieces_textOf {ls : List Line} (h : ∀ l ∈ ls, ¬ l.IsMarker) :
    (Text.pieces '\n' (textOf ls)).map readRow = ls.map (fun l => some l.row) ++ [none] := by
  have hnone : readRow "" = none := by decide
  rw [pieces_textOf, List.map_append, List.map_map, List.map_singleton, hnone]
  congr 1
  refine List.map_congr_left fun l hl => ?_
  rw [Function.comp_apply, readRow_text, if_neg (h l hl)]

theorem rowsOf_textOf {ls : List Line} (h : ∀ l ∈ ls, ¬ l.IsMarker) :
    rowsOf (textOf ls) = ls.map Line.row := by
  rw [rowsOf, map_readRow_pieces_textOf h, List.filterMap_append, List.filterMap_map]
  have hsome : ls.filterMap (id ∘ fun l => some l.row) = ls.map Line.row :=
    congrFun List.filterMap_eq_map' ls
  rw [hsome]
  exact List.append_nil _

theorem flatMap_bytes_linesFrom (style : UnknownStyle) (a : Address) (image : Image) :
    ((linesFrom style a image).map Line.row).flatMap Row.bytes =
      image.take (2 * (image.length / 2)) := by
  have hbytes : ∀ a w, (Line.ofWord style a w).row.bytes = w.bytes := fun _ _ => rfl
  rw [List.flatMap_def, List.map_map, map_linesFrom (g := Word.bytes) hbytes, ← List.flatMap_def]
  exact bytesOf_words_eq_take image

theorem head?_linesFrom (style : UnknownStyle) (a : Address) (image : Image) :
    ((linesFrom style a image).map Line.row).head?.map Row.address =
      if linesFrom style a image = [] then none else some a := by
  match image with
  | [] => rfl
  | [_] => rfl
  | _ :: _ :: _ => rfl

/-- **What the text of a listing determines.** Two accepted images have one text exactly if their
lines agree one by one, where two bare markers always agree and other lines agree in their columns.
In addressed style every line break closes one row, and from the rows the image is read back without
an odd last byte, and the load address if there is a row. -/
theorem disassemble_determines {o o' : Options} {image image' : Image} {ls ls' : List Line}
    (hls : (lines o image).value = .ok ls) (hls' : (lines o' image').value = .ok ls') :
    (disassemble o image).value = .ok (textOf ls) ∧
    (disassemble o' image').value = .ok (textOf ls') ∧
    (textOf ls = textOf ls' ↔
      ls.length = ls'.length ∧ ∀ (k : Nat) (l l' : Line), ls[k]? = some l → ls'[k]? = some l' →
        (l.isUnknown ∧ o.unknownStyle = .bare) ∧ (l'.isUnknown ∧ o'.unknownStyle = .bare) ∨
        ¬ (l.isUnknown ∧ o.unknownStyle = .bare) ∧ ¬ (l'.isUnknown ∧ o'.unknownStyle = .bare) ∧
          l.address = l'.address ∧ l.high = l'.high ∧ l.low = l'.low) ∧
    (o.unknownStyle = .addressed →
      (Text.pieces '\n' (textOf ls)).map readRow = ls.map (fun l => some l.row) ++ [none] ∧
      (rowsOf (textOf ls)).flatMap Row.bytes = image.take (2 * (image.length / 2)) ∧
      (rowsOf (textOf ls)).head?.map Row.address =
        if ls = [] then none else some o.loadAddress) := by
  obtain ⟨-, rfl⟩ := value_lines_eq_ok_iff.mp hls
  obtain ⟨-, rfl⟩ := value_lines_eq_ok_iff.mp hls'
  refine ⟨value_disassemble hls, value_disassemble hls', ?_, fun hstyle => ?_⟩
  · rw [textOf_eq_iff, map_eq_map_iff_getElem?]
    refine and_congr_right fun _ => forall_congr' fun k => forall_congr' fun l =>
      forall_congr' fun l' => forall_congr' fun hl => forall_congr' fun hl' => ?_
    obtain ⟨a, w, rfl⟩ := exists_ofWord_of_getElem? hl
    obtain ⟨a', w', rfl⟩ := exists_ofWord_of_getElem? hl'
    rw [text_ofWord_eq_iff, Line.row, Line.row, Row.mk.injEq]
    rfl
  · have hmarker : ∀ l ∈ linesFrom o.unknownStyle o.loadAddress image, ¬ l.IsMarker := by
      rw [hstyle]
      exact fun l hl => not_isMarker_of_mem hl
    rw [rowsOf_textOf hmarker]
    exact ⟨map_readRow_pieces_textOf hmarker, flatMap_bytes_linesFrom .., head?_linesFrom ..⟩

/-- The same odd image in both styles, with a word that is no instruction between two that are. -/
theorem disassemble_determines_across_styles :
    ∃ ls ls', (lines {} [0x00, 0xE0, 0xF0, 0x00, 0x12, 0x00, 0x77]).value = .ok ls ∧
      (lines { unknownStyle := .bare } [0x00, 0xE0, 0xF0, 0x00, 0x12, 0x00, 0x77]).value =
        .ok ls' ∧
      textOf ls ≠ textOf ls' ∧
      (rowsOf (textOf ls)).flatMap Row.bytes = [0x00, 0xE0, 0xF0, 0x00, 0x12, 0x00] ∧
      (rowsOf (textOf ls)).head?.map Row.address = some 0x200 := by
  have hls : (lines {} [0x00, 0xE0, 0xF0, 0x00, 0x12, 0x00, 0x77]).value =
      .ok (linesFrom .addressed programStart [0x00, 0xE0, 0xF0, 0x00, 0x12, 0x00, 0x77]) := rfl
  have hls' : (lines { unknownStyle := .bare } [0x00, 0xE0, 0xF0, 0x00, 0x12, 0x00, 0x77]).value =
      .ok (linesFrom .bare programStart [0x00, 0xE0, 0xF0, 0x00, 0x12, 0x00, 0x77]) := rfl
  obtain ⟨-, -, hiff, hread⟩ := disassemble_determines hls hls'
  obtain ⟨-, hbytes, haddress⟩ := hread rfl
  refine ⟨_, _, hls, hls', fun h => ?_, hbytes, haddress⟩
  have hsecond := (hiff.mp h).2 1 _ _ rfl rfl
  rcases hsecond with ⟨⟨-, hstyle⟩, -⟩ | ⟨-, hnot, -⟩
  · exact nomatch hstyle
  · exact hnot ⟨rfl, rfl⟩

end Listing

end Chip8
