import Chip8.Proofs.Listing.Refusal
import Chip8.Proofs.Listing.Words

/-!
# One image behind another

An image that is cut between two words is listed as its two parts are, the second one from the
place where it begins. If the whole is refused, that is because of the second part. The error is the
same one too, except that a size that is told is the size of the whole, and a limit is the room
there was for it.

## The room that is needed

The second part has to begin at an address, even if it is empty. A first part that reaches the end
of the address space leaves no place to list another one from, although it is listed itself. So
there is to be an address behind the first part. Only then does the sixteen-bit address from which
the second part is listed lie where that part lies in the whole.

## Main definitions

* `Listing.Options.movedBy` — the options for the second part
* `Listing.Error.widened`, `Listing.widen` — the error and the result for the whole, from those for
  the second part
* `Listing.Options.Concatenates` — what is promised of two images

## Main results

* `Listing.linesFrom_append` — the sweep goes on where the first part ends
* `Listing.Options.Refuses.append`, `Listing.accepts_append_iff` — the second part decides
* `Listing.concatenates` — the headline: every image of whole words can be put in front of every
  image
-/

namespace Chip8.Listing

/-! ### Lines -/

/-- **The lines of an image behind whole words** are those of the words, and then its own. -/
theorem linesFrom_append (style : UnknownStyle) : ∀ (start : Address) {a : Image} (b : Image),
    a.length % 2 = 0 →
      linesFrom style start (a ++ b) =
        linesFrom style start a ++ linesFrom style (start + BitVec.ofNat 16 a.length) b
  | start, [], b, _ => by
    show _ = linesFrom style (start + 0#16) b
    rw [BitVec.add_zero]
    rfl
  | _, [_], _, heven => nomatch heven
  | start, high :: low :: rest, b, heven => by
    have hrest : rest.length % 2 = 0 := by
      rw [List.length_cons, List.length_cons] at heven
      omega
    rw [List.cons_append, List.cons_append, linesFrom_cons_cons, linesFrom_cons_cons,
      linesFrom_append style (start + 2) b hrest, add_two_add_ofNat, List.cons_append]
    rfl

/-! ### Moving on -/

/-- The same options for an image that begins `n` places further on. -/
def Options.movedBy (o : Options) (n : Nat) : Options :=
  { o with loadAddress := o.loadAddress + BitVec.ofNat 16 n }

/-- The error if there are `n` more bytes in front of an image. What has a place keeps it. -/
def Error.widened (n : Nat) : Error → Error
  | tooLarge size limit => tooLarge (size + n) (limit + n)
  | e => e

/-- The result if there are `n` more bytes in front of an image: `join` adds what they give, and an
error is that of the image. -/
def widen {α : Type} (n : Nat) (join : α → α) : Except Error α → Except Error α
  | .ok x => .ok (join x)
  | .error e => .error (e.widened n)

theorem map_widen {α β : Type} {n : Nat} {join : α → α} {join' : β → β} {f g : α → β}
    (h : ∀ x, f (join x) = join' (g x)) (r : Except Error α) :
    (widen n join r).map f = widen n join' (r.map g) := by
  cases r with
  | error e => rfl
  | ok x => exact congrArg Except.ok (h x)

section Moved

variable {o : Options} {a b : Image}

theorem toNat_loadAddress_movedBy {n : Nat} (hroom : o.loadAddress.toNat + n ≤ 0xFFFF) :
    (o.movedBy n).loadAddress.toNat = o.loadAddress.toNat + n :=
  toNat_add_ofNat (Nat.lt_succ_of_le hroom)

/-! ### The decision -/

/-- The room behind the load address grows by what is put there. -/
theorem widened_tooLarge (hroom : o.loadAddress.toNat + a.length ≤ 0xFFFF) :
    (Error.tooLarge b.length (0x10000 - (o.movedBy a.length).loadAddress.toNat)).widened a.length =
      .tooLarge (a ++ b).length (0x10000 - o.loadAddress.toNat) := by
  have hlimit : 0x10000 - (o.loadAddress.toNat + a.length) + a.length =
      0x10000 - o.loadAddress.toNat := by
    omega
  rw [Error.widened, toNat_loadAddress_movedBy hroom, hlimit, List.length_append, Nat.add_comm]

/-- **What refuses an image refuses it behind whole words too.** -/
theorem Options.Refuses.append {e : Error} (heven : a.length % 2 = 0)
    (hroom : o.loadAddress.toNat + a.length ≤ 0xFFFF) (h : (o.movedBy a.length).Refuses b e) :
    o.Refuses (a ++ b) (e.widened a.length) := by
  have hplace := toNat_loadAddress_movedBy hroom
  cases h with
  | tooLarge hsize =>
    rw [widened_tooLarge hroom]
    refine .tooLarge ?_
    rw [List.length_append]
    omega
  | @oddLength address byte hsize hodd hpolicy hbyte haddress =>
    -- The last byte is that of `b`, and so is its place, counted from either load address.
    have hlast : (a ++ b).getLast? = some byte := by
      rw [List.getLast?_append, hbyte, Option.some_or]
    refine .oddLength ?_ ?_ hpolicy hlast ?_
    all_goals
      rw [List.length_append]
      omega

/-- The second part decides whether the whole is listed. -/
theorem accepts_append_iff (heven : a.length % 2 = 0)
    (hroom : o.loadAddress.toNat + a.length ≤ 0xFFFF) :
    o.Accepts (a ++ b) ↔ (o.movedBy a.length).Accepts b := by
  constructor
  · intro haccepts
    by_cases hb : (o.movedBy a.length).Accepts b
    · exact hb
    · obtain ⟨e, he⟩ := exists_refuses_of_not_accepts hb
      exact absurd haccepts (not_accepts_of_refuses (he.append heven hroom))
  · intro haccepts
    have hsize := haccepts.length_le
    rw [toNat_loadAddress_movedBy hroom, addressSpace] at hsize
    refine ⟨?_, haccepts.2.imp_left fun hb => ?_⟩
    · show (a ++ b).length ≤ 0x10000 - o.loadAddress.toNat
      rw [List.length_append]
      omega
    · rw [List.length_append]
      omega

theorem checkSize_append (hroom : o.loadAddress.toNat + a.length ≤ 0xFFFF) :
    checkSize o (a ++ b) = widen a.length id (checkSize (o.movedBy a.length) b) := by
  have hplace := toNat_loadAddress_movedBy hroom
  have hlength : (a ++ b).length = a.length + b.length := List.length_append
  by_cases h : 0x10000 < (o.movedBy a.length).loadAddress.toNat + b.length
  · have hwhole : 0x10000 < o.loadAddress.toNat + (a ++ b).length := by omega
    rw [checkSize_of_lt h, checkSize_of_lt hwhole, ← widened_tooLarge hroom]
    rfl
  · have hwhole : o.loadAddress.toNat + (a ++ b).length ≤ 0x10000 := by omega
    rw [checkSize_of_le (Nat.not_lt.mp h), checkSize_of_le hwhole]
    rfl

theorem value_check_append (heven : a.length % 2 = 0)
    (hroom : o.loadAddress.toNat + a.length ≤ 0xFFFF) :
    (check o (a ++ b)).value = widen a.length id (check (o.movedBy a.length) b).value := by
  by_cases h : (o.movedBy a.length).Accepts b
  · have hwhole : o.Accepts (a ++ b) := (accepts_append_iff heven hroom).mpr h
    rw [(value_check_eq_ok_iff _ _).mpr h, (value_check_eq_ok_iff _ _).mpr hwhole]
    rfl
  · obtain ⟨e, he⟩ := exists_refuses_of_not_accepts h
    rw [check_of_refuses he, check_of_refuses (he.append heven hroom)]
    rfl

/-! ### The results -/

/-- Whatever checks come first, the lines are put together. -/
theorem map_linesFrom_append (heven : a.length % 2 = 0) (checked : Except Error Unit) :
    (widen a.length id checked).map (fun () => linesFrom o.unknownStyle o.loadAddress (a ++ b)) =
      widen a.length (linesFrom o.unknownStyle o.loadAddress a ++ ·)
        (checked.map fun () =>
          linesFrom (o.movedBy a.length).unknownStyle (o.movedBy a.length).loadAddress b) := by
  refine map_widen ?_ checked
  intro
  exact linesFrom_append o.unknownStyle o.loadAddress b heven

theorem map_toList_sweep_append (heven : a.length % 2 = 0)
    (hroom : o.loadAddress.toNat + a.length ≤ 0xFFFF) :
    (sweep o (a ++ b)).map Sweep.toList =
      widen a.length (linesFrom o.unknownStyle o.loadAddress a ++ ·)
        ((sweep (o.movedBy a.length) b).map Sweep.toList) := by
  rw [map_toList_sweep, map_toList_sweep, checkSize_append hroom, map_linesFrom_append heven]

theorem value_lines_append (heven : a.length % 2 = 0)
    (hroom : o.loadAddress.toNat + a.length ≤ 0xFFFF) :
    (lines o (a ++ b)).value =
      widen a.length (linesFrom o.unknownStyle o.loadAddress a ++ ·)
        (lines (o.movedBy a.length) b).value := by
  rw [value_lines, value_lines, value_check_append heven hroom, map_linesFrom_append heven]

theorem value_disassemble_append (heven : a.length % 2 = 0)
    (hroom : o.loadAddress.toNat + a.length ≤ 0xFFFF) :
    (disassemble o (a ++ b)).value =
      widen a.length (textOf (linesFrom o.unknownStyle o.loadAddress a) ++ ·)
        (disassemble (o.movedBy a.length) b).value := by
  rw [disassemble, value_lines_append heven hroom]
  exact map_widen (textOf_append _) _

theorem result_writeTo_append (heven : a.length % 2 = 0)
    (hroom : o.loadAddress.toNat + a.length ≤ 0xFFFF) {whole second : Sink}
    (hwhole : whole.TakesEverything) (hsecond : second.TakesEverything) :
    (writeTo o (a ++ b) whole).result =
      widen a.length ((textOf (linesFrom o.unknownStyle o.loadAddress a)).utf8ByteSize + ·)
        (writeTo (o.movedBy a.length) b second).result := by
  rw [result_writeTo_of_takesEverything hwhole, result_writeTo_of_takesEverything hsecond,
    value_disassemble_append heven hroom]
  exact map_widen (fun _ => String.utf8ByteSize_append) _

/-- What is promised of an image `b` when `a` is put in front of it. -/
structure Options.Concatenates (o : Options) (a b : Image) : Prop where
  /-- `b` begins where `a` ends. -/
  place : (o.movedBy a.length).loadAddress.toNat = o.loadAddress.toNat + a.length
  swept : ∃ ls, (sweep o a).map Sweep.toList = .ok ls ∧
    (sweep o (a ++ b)).map Sweep.toList =
      widen a.length (ls ++ ·) ((sweep (o.movedBy a.length) b).map Sweep.toList)
  listed : ∃ ls, (lines o a).value = .ok ls ∧
    (lines o (a ++ b)).value = widen a.length (ls ++ ·) (lines (o.movedBy a.length) b).value
  text : ∃ s, (disassemble o a).value = .ok s ∧
    (disassemble o (a ++ b)).value =
      widen a.length (s ++ ·) (disassemble (o.movedBy a.length) b).value
  /-- Three sinks that take everything, in whatever pieces, take as many bytes for the whole as for
  its parts. -/
  delivered : ∃ size, (∀ first : Sink, first.TakesEverything →
      (writeTo o a first).result = .ok size) ∧
    ∀ whole second : Sink, whole.TakesEverything → second.TakesEverything →
      (writeTo o (a ++ b) whole).result =
        widen a.length (size + ·) (writeTo (o.movedBy a.length) b second).result

/-- **Whole words can be put in front of every image**, which begins at an address then. -/
theorem concatenates (heven : a.length % 2 = 0)
    (hroom : o.loadAddress.toNat + a.length ≤ 0xFFFF) : o.Concatenates a b := by
  have haccepts : o.Accepts a := Options.accepts_of_even (Nat.le_succ_of_le hroom) heven
  have hlines := value_lines_of_accepts haccepts
  refine ⟨toNat_loadAddress_movedBy hroom, ⟨_, ?_, map_toList_sweep_append heven hroom⟩,
    ⟨_, hlines, value_lines_append heven hroom⟩,
    ⟨_, value_disassemble hlines, value_disassemble_append heven hroom⟩,
    ⟨_, fun first hfirst => (writeTo_of_takesEverything hlines hfirst).1, ?_⟩⟩
  · rw [map_toList_sweep, checkSize_of_le haccepts.length_le]
    rfl
  · intro whole second hwhole hsecond
    exact result_writeTo_append heven hroom hwhole hsecond

/-- One instruction, and behind it an odd byte that is the last but one in the address space. -/
theorem concatenates_at_end :
    [0x00#8, 0xE0#8].length % 2 = 0 ∧ (0xFFFC#16).toNat + [0x00#8, 0xE0#8].length ≤ 0xFFFF ∧
      Options.Concatenates { loadAddress := 0xFFFC, trailingByte := .reject }
        [0x00, 0xE0] [0x12] ∧
      (lines { loadAddress := 0xFFFC, trailingByte := .reject } [0x00, 0xE0, 0x12]).value =
        .error (.oddLength 0xFFFE 0x12) :=
  ⟨rfl, by decide, concatenates rfl (by decide), rfl⟩

end Moved

end Chip8.Listing
