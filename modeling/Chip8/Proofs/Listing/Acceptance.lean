import Chip8.Listing.Disassembly

/-!
# Which images are listed

The checks made before a listing come down to one condition on the image and the options. Whoever
lists an image needs only that condition, and what there is to see afterwards is the sweep over the
whole image. An image that does not meet the condition is refused with one error, which is told here
without following the checks.

## Numbers, not addresses

The place of an odd last byte is told as an address of sixteen bits, and it is computed from the
size of the image, which is no such number. `Options.Refuses` asks for an address whose number is
the place itself. It exists because the size has been checked before: a place that is told is never
a wrapped one.

## Main definitions

* `Listing.Options.Accepts` — the condition
* `Listing.Options.Refuses` — an image is refused with an error

## Main results

* `Listing.value_check_eq_ok_iff` — the checks decide exactly this condition
* `Listing.value_lines_eq_ok_iff` — lines are given for the accepted images, and which ones
* `Listing.exists_refuses_of_not_accepts` — any other image is refused
* `Listing.value_check_eq_error_iff` — with the error the checks fail with
* `Listing.check_of_refuses` — and nothing is said about it
* `Listing.value_disassemble` — the text is that of the lines
-/

namespace Chip8.Listing

/-- The image fits behind the load address, and if it has an odd last byte, that may be left
out. -/
def Options.Accepts (o : Options) (image : Image) : Prop :=
  image.length ≤ o.limit ∧ (image.length % 2 = 0 ∨ o.trailingByte = .truncate)

theorem value_checkTrailing_eq_ok_iff (o : Options) (image : Image) :
    (checkTrailing o image).value = .ok () ↔
      image.length % 2 = 0 ∨ o.trailingByte = .truncate := by
  rw [← trailing?_eq_none_iff, checkTrailing]
  cases trailing? image with
  | none => simp
  | some byte => cases o.trailingByte <;> simp

/-- **The checks accept the images that fit and are not refused for their parity.** -/
theorem value_check_eq_ok_iff (o : Options) (image : Image) :
    (check o image).value = .ok () ↔ o.Accepts image := by
  rw [check, checkSize, Options.Accepts]
  by_cases h : image.length > o.limit
  · rw [if_pos h]
    exact ⟨nofun, fun hok => absurd hok.1 (Nat.not_le.mpr h)⟩
  · rw [if_neg h]
    refine (value_checkTrailing_eq_ok_iff o image).trans ?_
    exact (and_iff_right (Nat.not_lt.mp h)).symm

/-- The load address and the size of an accepted image stay within the address space. -/
theorem Options.Accepts.length_le {o : Options} {image : Image} (h : o.Accepts image) :
    o.loadAddress.toNat + image.length ≤ addressSpace := by
  have hlimit : image.length ≤ addressSpace - o.loadAddress.toNat := h.1
  have hload : o.loadAddress.toNat < addressSpace := o.loadAddress.isLt
  omega

theorem Options.accepts_of_even {o : Options} {image : Image}
    (hsize : o.loadAddress.toNat + image.length ≤ addressSpace) (heven : image.length % 2 = 0) :
    o.Accepts image :=
  ⟨Nat.le_sub_of_add_le' hsize, .inl heven⟩

/-- **Lines are given for the accepted images, and they are those of the sweep.** -/
theorem value_lines_eq_ok_iff {o : Options} {image : Image} {ls : List Line} :
    (lines o image).value = .ok ls ↔
      o.Accepts image ∧ ls = linesFrom o.unknownStyle o.loadAddress image := by
  rw [← value_check_eq_ok_iff, lines]
  cases h : (check o image).value with
  | error e => simp
  | ok u => exact ⟨fun hls => ⟨rfl, (Except.ok.inj hls).symm⟩, fun hls => hls.2 ▸ rfl⟩

theorem value_lines_of_accepts {o : Options} {image : Image} (h : o.Accepts image) :
    (lines o image).value = .ok (linesFrom o.unknownStyle o.loadAddress image) :=
  value_lines_eq_ok_iff.mpr ⟨h, rfl⟩

/-! ### Refusal -/

section Refusal

variable {o : Options} {image : Image} {e : Error}

theorem ne_nil_of_odd (h : image.length % 2 = 1) : image ≠ [] := by
  rintro rfl
  exact absurd h (by decide)

/-- The place of the last byte of an image that fits is not wrapped around. -/
theorem toNat_lastPlace (hsize : o.loadAddress.toNat + image.length ≤ 0x10000)
    (hne : image ≠ []) :
    (BitVec.ofNat 16 (o.loadAddress.toNat + image.length - 1)).toNat =
      o.loadAddress.toNat + image.length - 1 := by
  have hpos : 0 < image.length := List.length_pos_iff.mpr hne
  rw [BitVec.toNat_ofNat]
  omega

theorem trailing?_of_odd : ∀ {image : Image}, image.length % 2 = 1 →
    trailing? image = image.getLast?
  | [], h => nomatch h
  | [_], _ => rfl
  | _ :: _ :: rest, h => by
    have hrest : rest.length % 2 = 1 := by
      rw [List.length_cons, List.length_cons] at h
      omega
    rw [trailing?, trailing?_of_odd hrest, List.getLast?_cons_of_ne_nil (List.cons_ne_nil _ _),
      List.getLast?_cons_of_ne_nil (ne_nil_of_odd hrest)]

theorem checkTrailing_of_even (h : image.length % 2 = 0) :
    checkTrailing o image = { value := .ok () } := by
  rw [checkTrailing, (trailing?_eq_none_iff image).mpr h]

/-- An odd last byte may be left out with a warning. -/
theorem checkTrailing_of_truncate {byte : Byte} (h : image.length % 2 = 1)
    (hbyte : image.getLast? = some byte) (hpolicy : o.trailingByte = .truncate) :
    checkTrailing o image =
      { value := .ok ()
        log := [.droppedByte byte
          (BitVec.ofNat 16 (o.loadAddress.toNat + image.length - 1))] } := by
  rw [checkTrailing, trailing?_of_odd h, hbyte]
  dsimp only
  rw [hpolicy]

/-- Or it is a reason to refuse the image. -/
theorem checkTrailing_of_reject {byte : Byte} (h : image.length % 2 = 1)
    (hbyte : image.getLast? = some byte) (hpolicy : o.trailingByte = .reject) :
    checkTrailing o image =
      { value := .error (.oddLength
          (BitVec.ofNat 16 (o.loadAddress.toNat + image.length - 1)) byte) } := by
  rw [checkTrailing, trailing?_of_odd h, hbyte]
  dsimp only
  rw [hpolicy]

/-- The image is refused with an error. Its size counts first, and its parity only if the options do
not leave out an odd last byte. -/
inductive Options.Refuses (o : Options) (image : Image) : Error → Prop
  | tooLarge (hsize : 0x10000 < o.loadAddress.toNat + image.length) :
    o.Refuses image (.tooLarge image.length (0x10000 - o.loadAddress.toNat))
  | oddLength {address : Address} {byte : Byte}
      (hsize : o.loadAddress.toNat + image.length ≤ 0x10000) (hodd : image.length % 2 = 1)
      (hpolicy : o.trailingByte = .reject) (hbyte : image.getLast? = some byte)
      (haddress : address.toNat = o.loadAddress.toNat + image.length - 1) :
    o.Refuses image (.oddLength address byte)

theorem limit_lt_iff (o : Options) (image : Image) :
    o.limit < image.length ↔ 0x10000 < o.loadAddress.toNat + image.length := by
  have hload : o.loadAddress.toNat < 0x10000 := o.loadAddress.isLt
  show 0x10000 - o.loadAddress.toNat < image.length ↔ _
  omega

theorem checkSize_of_lt (h : 0x10000 < o.loadAddress.toNat + image.length) :
    checkSize o image = .error (.tooLarge image.length (0x10000 - o.loadAddress.toNat)) :=
  if_pos ((limit_lt_iff o image).mpr h)

theorem checkSize_of_le (h : o.loadAddress.toNat + image.length ≤ 0x10000) :
    checkSize o image = .ok () :=
  if_neg fun hlt => Nat.not_lt.mpr h ((limit_lt_iff o image).mp hlt)

/-- **An image is refused by the checks**, and nothing is said about it. -/
theorem check_of_refuses (h : o.Refuses image e) : check o image = { value := .error e } := by
  cases h with
  | tooLarge hsize => rw [check, checkSize_of_lt hsize]
  | @oddLength address byte hsize hodd hpolicy hbyte haddress =>
    have hplace : BitVec.ofNat 16 (o.loadAddress.toNat + image.length - 1) = address := by
      rw [← haddress, BitVec.ofNat_toNat, BitVec.setWidth_eq]
    rw [check, checkSize_of_le hsize]
    dsimp only
    rw [checkTrailing_of_reject hodd hbyte hpolicy, hplace]

theorem not_accepts_of_refuses (h : o.Refuses image e) : ¬ o.Accepts image := by
  rw [← value_check_eq_ok_iff, check_of_refuses h]
  exact nofun

/-- An odd last byte of an image that fits has a place with an address. -/
theorem exists_refuses_oddLength (hsize : o.loadAddress.toNat + image.length ≤ 0x10000)
    (hodd : image.length % 2 = 1) (hpolicy : o.trailingByte = .reject) :
    ∃ address byte, o.Refuses image (.oddLength address byte) := by
  have hne := ne_nil_of_odd hodd
  exact ⟨_, _, .oddLength hsize hodd hpolicy (List.getLast?_eq_some_getLast hne)
    (toNat_lastPlace hsize hne)⟩

/-- An image that is not accepted is refused with some error. -/
theorem exists_refuses_of_not_accepts (h : ¬ o.Accepts image) : ∃ e, o.Refuses image e := by
  by_cases hsize : 0x10000 < o.loadAddress.toNat + image.length
  · exact ⟨_, .tooLarge hsize⟩
  · have hle : o.loadAddress.toNat + image.length ≤ 0x10000 := Nat.not_lt.mp hsize
    have hlimit : image.length ≤ o.limit :=
      Nat.not_lt.mp fun hlt => hsize ((limit_lt_iff o image).mp hlt)
    have hodd : image.length % 2 = 1 := by
      rcases Nat.mod_two_eq_zero_or_one image.length with heven | hodd
      · exact absurd ⟨hlimit, .inl heven⟩ h
      · exact hodd
    have hpolicy : o.trailingByte = .reject := by
      cases htrailing : o.trailingByte with
      | truncate => exact absurd ⟨hlimit, .inr htrailing⟩ h
      | reject => rfl
    obtain ⟨address, byte, hrefuses⟩ := exists_refuses_oddLength hle hodd hpolicy
    exact ⟨_, hrefuses⟩

/-- **The checks refuse the images that are to be refused**, with the error they are to be refused
with, and no others. -/
theorem value_check_eq_error_iff (o : Options) (image : Image) (e : Error) :
    (check o image).value = .error e ↔ o.Refuses image e := by
  constructor
  · intro h
    have hnot : ¬ o.Accepts image := by
      rw [← value_check_eq_ok_iff, h]
      exact nofun
    obtain ⟨e', he'⟩ := exists_refuses_of_not_accepts hnot
    rw [check_of_refuses he'] at h
    obtain rfl : e' = e := Except.error.inj h
    exact he'
  · intro h
    rw [check_of_refuses h]

/-- An image that is refused is refused without a message. -/
theorem check_of_not_accepts (h : ¬ o.Accepts image) :
    ∃ e, check o image = { value := .error e } := by
  obtain ⟨e, he⟩ := exists_refuses_of_not_accepts h
  exact ⟨e, check_of_refuses he⟩

end Refusal

/-! ### Text -/

theorem textOf_append (ls ls' : List Line) : textOf (ls ++ ls') = textOf ls ++ textOf ls' := by
  rw [textOf, List.map_append, String.join_append]
  rfl

/-- The text of an image is that of its lines. -/
theorem value_disassemble {o : Options} {image : Image} {ls : List Line}
    (h : (lines o image).value = .ok ls) : (disassemble o image).value = .ok (textOf ls) := by
  rw [disassemble, h]
  rfl

theorem value_disassemble_of_check {o : Options} {image : Image} {e : Error}
    (h : check o image = { value := .error e }) : (disassemble o image).value = .error e := by
  rw [disassemble, lines, h]
  rfl

end Chip8.Listing
