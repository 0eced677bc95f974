import Chip8.Proofs.Listing.Columns
import Chip8.Proofs.Listing.Delivery

/-!
# How long a listing is

The columns of a line are as wide at one address as at another. So the size of a listing follows
from the style and the words of its image, and it can be told without putting the text together. All
that is shown in columns is plain ASCII, and so sizes in bytes are sizes in characters there.

## Main definitions

* `Listing.lineSize`, `Listing.textSize` — the size of a line and of a listing, from words

## Main results

* `Listing.Line.length_columns`, `Listing.Line.utf8ByteSize_columns` — the width of the columns
* `Listing.utf8ByteSize_textOf_linesFrom` — the size of a listing
* `Listing.result_writeTo_eq_textSize` — which is what a sink that takes everything counts
-/

namespace Chip8

namespace Hex

theorem utf8Size_digit (c : Case) (d : Nat) : (digit c d).utf8Size = 1 := by
  have hall : ∀ (c : Case) (r : Fin 16), (c.alphabet.getD r.val '0').utf8Size = 1 := by
    intro c
    cases c <;> decide
  exact hall c ⟨d % 16, Nat.mod_lt d (by decide)⟩

/-- A digit takes one byte. -/
theorem utf8ByteSize_text (c : Case) (k v : Nat) : (text c k v).utf8ByteSize = k := by
  induction k generalizing v with
  | zero => rfl
  | succ k ih =>
    have hlast : (String.ofList [digit c v]).utf8ByteSize = 1 := by
      rw [← String.singleton_eq_ofList, String.utf8ByteSize_singleton, utf8Size_digit]
    have hfront : (String.ofList (digits c k (v / 16))).utf8ByteSize = k := ih (v / 16)
    rw [text, digits, String.ofList_append, String.utf8ByteSize_append, hfront, hlast]

end Hex

namespace Listing

/-! ### Columns -/

namespace Line

theorem toList_columns (l : Line) :
    l.columns.toList = Hex.digits .lower 4 l.address.toNat ++
      (' ' :: Hex.digits .lower 2 l.high.toNat ++
        ' ' :: Hex.digits .lower 2 l.low.toNat ++ [' ']) := by
  have hblank : " ".toList = [' '] := rfl
  simp [columns, hblank]

theorem length_columns (l : Line) : l.columns.toList.length = 11 := by
  simp [toList_columns]

/-- The address is in the first four characters and nowhere else. -/
theorem drop_columns (l : Line) :
    l.columns.toList.drop 4 =
      ' ' :: Hex.digits .lower 2 l.high.toNat ++
        ' ' :: Hex.digits .lower 2 l.low.toNat ++ [' '] := by
  rw [toList_columns]
  exact List.drop_left' (Hex.length_digits ..)

theorem utf8ByteSize_columns (l : Line) : l.columns.utf8ByteSize = 11 := by
  have hblank : " ".utf8ByteSize = 1 := rfl
  simp only [columns, String.utf8ByteSize_append, Hex.utf8ByteSize_text, hblank]

/-- A line that is an instruction shows its columns, and behind them the instruction. -/
theorem text_of_body {l : Line} {i : Instruction} (h : l.body = some i) :
    l.text = l.columns ++ i.text := by
  rw [text, h]

end Line

/-! ### Listings -/

/-- The size of the line of a word, with its line break. -/
def lineSize (style : UnknownStyle) (w : Word) : Nat :=
  (if Instruction.decode? w = none ∧ style = .bare then 0 else 11) +
    (Operation.ofWord w).text.utf8ByteSize + 1

/-- The size of the listing of some words. -/
def textSize (style : UnknownStyle) : List Word → Nat
  | [] => 0
  | w :: ws => lineSize style w + textSize style ws

theorem isMarker_ofWord_iff (style : UnknownStyle) (a : Address) (w : Word) :
    (Line.ofWord style a w).IsMarker ↔ Instruction.decode? w = none ∧ style = .bare := by
  rw [Line.IsMarker, Line.isUnknown, Line.body_ofWord, Option.isNone_iff_eq_none]
  rfl

/-- The line of an instruction is no bare marker. -/
theorem not_isMarker_ofWord_of_isSome (style : UnknownStyle) (a : Address) {w : Word}
    (h : (Instruction.decode? w).isSome) : ¬ (Line.ofWord style a w).IsMarker := by
  rw [isMarker_ofWord_iff]
  rintro ⟨hnone, -⟩
  simp [hnone] at h

theorem utf8ByteSize_ended_ofWord (style : UnknownStyle) (a : Address) (w : Word) :
    (Line.ofWord style a w).ended.utf8ByteSize = lineSize style w := by
  have hbreak : "\n".utf8ByteSize = 1 := rfl
  rw [Line.ended, String.utf8ByteSize_append, hbreak, lineSize]
  by_cases h : (Line.ofWord style a w).IsMarker
  · have hmarker := (isMarker_ofWord_iff style a w).mp h
    rw [Line.text_of_isMarker h, if_pos hmarker, Operation.ofWord_of_decode?_none hmarker.1]
    simp [Operation.text]
  · rw [text_ofWord_of_not_isMarker h, if_neg (mt (isMarker_ofWord_iff style a w).mpr h),
      String.utf8ByteSize_append, Line.utf8ByteSize_columns]

/-- **The size of a listing follows from its words.** It is the same at every load address. -/
theorem utf8ByteSize_textOf_linesFrom (style : UnknownStyle) : ∀ (a : Address) (image : Image),
    (textOf (linesFrom style a image)).utf8ByteSize = textSize style (words image)
  | _, [] => rfl
  | _, [_] => rfl
  | a, high :: low :: rest => by
    have hjoin : textOf (linesFrom style a (high :: low :: rest)) =
        (Line.ofBytes style a high low).ended ++ textOf (linesFrom style (a + 2) rest) :=
      String.join_cons
    rw [hjoin, String.utf8ByteSize_append, Line.ofBytes_eq_ofWord, utf8ByteSize_ended_ofWord,
      utf8ByteSize_textOf_linesFrom style (a + 2) rest]
    rfl

/-- **What a sink that takes everything counts** is the size of the listing. -/
theorem result_writeTo_eq_textSize {o : Options} {image : Image} (haccepts : o.Accepts image)
    {sink : Sink} (hsink : sink.TakesEverything) :
    (writeTo o image sink).result = .ok (textSize o.unknownStyle (words image)) := by
  obtain ⟨hresult, -, -⟩ := writeTo_of_takesEverything (value_lines_of_accepts haccepts) hsink
  rw [hresult, utf8ByteSize_textOf_linesFrom]

end Listing

end Chip8
