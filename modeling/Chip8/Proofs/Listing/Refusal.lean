import Chip8.Proofs.Listing.Delivery

/-!
# Refusals

An image can be asked for as a sweep, as lines, as text, or to be delivered to a sink. All four are
preceded by the check of its size, and all but the sweep by that of its parity. `Options.Refuses`
says which images do not pass, and with which error; what is left is that none of the four decides
otherwise, and that nothing has been done or said by then.

## Main definitions

* `Listing.Options.DecidesAlike` — what is promised of the four ways to list an image

## Main results

* `Listing.sweep_eq_error_iff`, `Listing.value_lines_eq_error_iff`,
  `Listing.value_disassemble_eq_error_iff` — the images each of them refuses
* `Listing.exists_fault_of_writeTo` — an accepted image is lost only at its sink
* `Listing.decidesAlike` — the headline: the promise is kept for every image and all options
-/

namespace Chip8.Listing

variable {o : Options} {image : Image} {e : Error}

/-! ### The four ways to list an image -/

theorem sweep_eq_error_iff (o : Options) (image : Image) (e : Error) :
    sweep o image = .error e ↔ 0x10000 < o.loadAddress.toNat + image.length ∧
      e = .tooLarge image.length (0x10000 - o.loadAddress.toNat) := by
  by_cases h : 0x10000 < o.loadAddress.toNat + image.length
  · rw [sweep, checkSize_of_lt h]
    exact ⟨fun he => ⟨h, (Except.error.inj he).symm⟩, fun he => congrArg Except.error he.2.symm⟩
  · rw [sweep, checkSize_of_le (Nat.not_lt.mp h)]
    exact ⟨nofun, fun he => absurd he.1 h⟩

theorem sweep_eq_ok_iff {s : Sweep} :
    sweep o image = .ok s ↔
      o.loadAddress.toNat + image.length ≤ 0x10000 ∧ s = o.start image := by
  constructor
  · intro hs
    have hsize : o.loadAddress.toNat + image.length ≤ 0x10000 := by
      refine Nat.le_of_not_lt fun hlt => ?_
      rw [sweep, checkSize_of_lt hlt] at hs
      cases hs
    rw [sweep, checkSize_of_le hsize] at hs
    exact ⟨hsize, (Except.ok.inj hs).symm⟩
  · rintro ⟨hsize, rfl⟩
    rw [sweep, checkSize_of_le hsize]
    rfl

theorem lines_of_refuses (h : o.Refuses image e) : lines o image = { value := .error e } := by
  rw [lines, check_of_refuses h]

theorem disassemble_of_refuses (h : o.Refuses image e) :
    disassemble o image = { value := .error e } := by
  rw [disassemble, lines_of_refuses h]
  rfl

theorem map_eq_error_iff {α β : Type} {f : α → β} {x : Except Error α} :
    x.map f = .error e ↔ x = .error e := by
  cases x with
  | error e' => exact ⟨fun h => congrArg _ (Except.error.inj h), fun h => h ▸ rfl⟩
  | ok a => exact ⟨nofun, nofun⟩

theorem value_lines (o : Options) (image : Image) :
    (lines o image).value =
      (check o image).value.map fun () => linesFrom o.unknownStyle o.loadAddress image := by
  rw [lines]
  cases (check o image).value <;> rfl

theorem map_toList_sweep (o : Options) (image : Image) :
    (sweep o image).map Sweep.toList =
      (checkSize o image).map fun () => linesFrom o.unknownStyle o.loadAddress image := by
  rw [sweep]
  cases checkSize o image <;> rfl

theorem value_lines_eq_error_iff (o : Options) (image : Image) (e : Error) :
    (lines o image).value = .error e ↔ o.Refuses image e := by
  rw [value_lines, map_eq_error_iff, value_check_eq_error_iff]

theorem value_disassemble_eq_error_iff (o : Options) (image : Image) (e : Error) :
    (disassemble o image).value = .error e ↔ o.Refuses image e := by
  rw [disassemble, map_eq_error_iff, value_lines_eq_error_iff]

/-- A delivery fails at its sink or not at all. -/
theorem exists_fault_of_deliver {sink : Sink} {chunks : List (List Byte)}
    (h : (sink.deliver chunks).result = .error e) : ∃ fault, e = .undelivered fault := by
  cases hfault : (offerChunks sink.answers chunks).fault with
  | some fault =>
    rw [deliver_of_some hfault] at h
    exact ⟨fault, (Except.error.inj h).symm⟩
  | none =>
    rw [deliver_of_none hfault] at h
    cases hflush : sink.flushFault with
    | some fault =>
      rw [hflush] at h
      exact ⟨fault, (Except.error.inj h).symm⟩
    | none =>
      rw [hflush] at h
      exact nomatch h

theorem exists_fault_of_writeTo (haccepts : o.Accepts image) {sink : Sink}
    (h : (writeTo o image sink).result = .error e) : ∃ fault, e = .undelivered fault := by
  rw [writeTo_of_lines (value_lines_of_accepts haccepts)] at h
  exact exists_fault_of_deliver h

/-- A sink that takes everything is given the text, and the result is its size. -/
theorem result_writeTo_of_takesEverything {sink : Sink} (hsink : sink.TakesEverything) :
    (writeTo o image sink).result = (disassemble o image).value.map String.utf8ByteSize := by
  by_cases h : o.Accepts image
  · have hlines := value_lines_of_accepts h
    rw [(writeTo_of_takesEverything hlines hsink).1, value_disassemble hlines]
    rfl
  · obtain ⟨e, he⟩ := exists_refuses_of_not_accepts h
    rw [writeTo_of_check (check_of_refuses he), disassemble_of_refuses he]
    rfl

/-- What is promised of the four ways to list an image. -/
structure Options.DecidesAlike (o : Options) (image : Image) : Prop where
  /-- A sweep is refused for the size of the image and for nothing else. -/
  sweep_fails (e : Error) : sweep o image = .error e ↔
    0x10000 < o.loadAddress.toNat + image.length ∧
      e = .tooLarge image.length (0x10000 - o.loadAddress.toNat)
  /-- The place of an odd last byte can be told whenever the image fits. -/
  oddLength : o.loadAddress.toNat + image.length ≤ 0x10000 → image.length % 2 = 1 →
    o.trailingByte = .reject → ∃ address byte, o.Refuses image (.oddLength address byte)
  lines_fails (e : Error) : (lines o image).value = .error e ↔ o.Refuses image e
  disassemble_fails (e : Error) : (disassemble o image).value = .error e ↔ o.Refuses image e
  /-- A delivery fails in the same cases, and else only at its sink. -/
  writeTo_fails (sink : Sink) (e : Error) : (writeTo o image sink).result = .error e →
    o.Refuses image e ∨ (∀ e', ¬ o.Refuses image e') ∧ ∃ fault, e = .undelivered fault
  /-- Of an image that is refused nothing is said, and nothing is asked of a sink. -/
  refused {e : Error} : o.Refuses image e →
    (lines o image).log = [] ∧ (disassemble o image).log = [] ∧
      ∀ sink, writeTo o image sink = { result := .error e, events := [], log := [] }
  /-- Any other image is listed. -/
  listed : (∀ e, ¬ o.Refuses image e) →
    (∃ s, sweep o image = .ok s) ∧
      ∃ ls, (lines o image).value = .ok ls ∧ (disassemble o image).value = .ok (textOf ls)

/-- **All ways to list an image decide alike**, before anything else happens. -/
theorem decidesAlike (o : Options) (image : Image) : o.DecidesAlike image := by
  have haccepts : (∀ e, ¬ o.Refuses image e) → o.Accepts image := by
    intro hno
    by_cases hacc : o.Accepts image
    · exact hacc
    · obtain ⟨e, he⟩ := exists_refuses_of_not_accepts hacc
      exact absurd he (hno e)
  refine ⟨sweep_eq_error_iff o image, exists_refuses_oddLength, value_lines_eq_error_iff o image,
    value_disassemble_eq_error_iff o image, ?_, ?_, ?_⟩
  · intro sink e h
    by_cases hacc : o.Accepts image
    · exact .inr ⟨fun e' he' => not_accepts_of_refuses he' hacc, exists_fault_of_writeTo hacc h⟩
    · obtain ⟨e', he'⟩ := exists_refuses_of_not_accepts hacc
      rw [writeTo_of_check (check_of_refuses he')] at h
      obtain rfl : e' = e := Except.error.inj h
      exact .inl he'
  · intro e h
    rw [lines_of_refuses h, disassemble_of_refuses h]
    exact ⟨rfl, rfl, fun sink => writeTo_of_check (check_of_refuses h) sink⟩
  · intro hno
    have hacc := haccepts hno
    have hlines := value_lines_of_accepts hacc
    refine ⟨?_, _, hlines, value_disassemble hlines⟩
    rw [sweep, checkSize_of_le hacc.length_le]
    exact ⟨_, rfl⟩

end Chip8.Listing
