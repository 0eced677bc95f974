import Chip8.Command.Numeral
import Chip8.Hex

/-!
# Reading digits

Columns are written by `Hex.digits` from the last digit forwards, and numbers are read by
`Command.readDigits` from the first digit onwards. What both have in common is `Denotes`, which says
of some digits what number they stand for and neither writes nor reads anything. It does not count
digits, so zeros in front are as good as any others, and it does not ask for one case throughout.

The two ends meet in `readDigits_append`: what is read is read in two parts, and the last part is
one digit.

## Main definitions

* `Command.Denotes` — the digits of a number in a base

## Main results

* `Command.Denotes.zeros` — zeros in front change nothing
* `Command.denotes_digits` — a column denotes its number, if it is wide enough for it
* `Command.digitValue?_digit` — a digit has the value it was written for, in either case
* `Command.not_mem_digits` — what has no value is not in a column
* `Command.readNumber_of_denotes` — digits are read as the number that they denote
* `Command.readNumber_digits` — so a column is read back
-/

namespace Chip8

namespace Hex

theorem digit_mod (c : Case) (d : Nat) : digit c (d % 16) = digit c d := by
  rw [digit, digit, Nat.mod_mod]

theorem mem_digits {c : Case} {k v : Nat} {x : Char} (h : x ∈ digits c k v) :
    ∃ d, x = digit c d := by
  induction k generalizing v with
  | zero => exact absurd h List.not_mem_nil
  | succ k ih =>
    rcases List.mem_append.mp h with h | h
    · exact ih h
    · exact ⟨v, List.mem_singleton.mp h⟩

theorem digit_mem_upperDigits (d : Nat) : digit .upper d ∈ upperDigits := by
  have hall : ∀ r : Fin 16, upperDigits.getD r.val '0' ∈ upperDigits := by decide
  exact hall ⟨d % 16, Nat.mod_lt d (by decide)⟩

end Hex

namespace Command

open Hex (Case digit digits)

/-! ### What digits stand for -/

/-- Some digits, each in either case, and the number that they stand for in a base. -/
inductive Denotes (base : Nat) : List Char → Nat → Prop
  | digit (c : Case) {d : Nat} (hd : d < base) : Denotes base [Hex.digit c d] d
  | append {ds : List Char} {v : Nat} (h : Denotes base ds v) (c : Case) {d : Nat} (hd : d < base) :
    Denotes base (ds ++ [Hex.digit c d]) (base * v + d)

namespace Denotes

variable {base v : Nat} {ds : List Char}

theorem ne_nil (h : Denotes base ds v) : ds ≠ [] := by
  cases h with
  | digit c hd => exact List.cons_ne_nil _ _
  | append h c hd => exact List.append_ne_nil_of_right_ne_nil _ (List.cons_ne_nil _ _)

theorem base_pos (h : Denotes base ds v) : 0 < base := by
  cases h with
  | digit c hd => omega
  | append h c hd => omega

theorem zero_cons (h : Denotes base ds v) : Denotes base ('0' :: ds) v := by
  have hzero : Denotes base ['0'] 0 := .digit .lower h.base_pos
  induction h with
  | digit c hd => simpa using hzero.append c hd
  | append h c hd ih => exact ih.append c hd

/-- **Zeros in front change nothing.** -/
theorem zeros (h : Denotes base ds v) (n : Nat) : Denotes base (List.replicate n '0' ++ ds) v := by
  induction n with
  | zero => exact h
  | succ n ih => exact ih.zero_cons

end Denotes

/-- **A column denotes its number**, if it is wide enough. -/
theorem denotes_digits (c : Case) {k v : Nat} (hpos : 0 < k) (hk : v < Nat.pow 16 k) :
    Denotes 16 (digits c k v) v := by
  induction k generalizing v with
  | zero => exact absurd hpos (Nat.lt_irrefl 0)
  | succ k ih =>
    have hlt : v < Nat.pow 16 k * 16 := hk
    have hd : v % 16 < 16 := Nat.mod_lt v (by decide)
    rw [digits, ← Hex.digit_mod]
    cases k with
    | zero =>
      have hv : v < 16 := hlt
      simpa [digits, Nat.mod_eq_of_lt hv] using Denotes.digit c hd
    | succ k =>
      -- All digits but the last one are those of a smaller number.
      have hfront := ih (v := v / 16) (by omega) (by omega)
      simpa [Nat.div_add_mod] using hfront.append c hd

/-! ### Reading digits -/

theorem digitValue?_digit (c : Case) (d : Nat) : digitValue? 16 (digit c d) = some (d % 16) := by
  have hall : ∀ (c : Case) (r : Fin 16),
      digitValue? 16 (c.alphabet.getD r.val '0') = some r.val := by
    intro c
    cases c <;> decide
  exact hall c ⟨d % 16, Nat.mod_lt d (by decide)⟩

/-- In a smaller base there are fewer digits, and they have the same values. -/
theorem digitValue?_of_lt {base : Nat} (hbase : base ≤ 16) (c : Case) {d : Nat} (hd : d < base) :
    digitValue? base (digit c d) = some d := by
  have hvalue := digitValue?_digit c d
  rw [Nat.mod_eq_of_lt (by omega), digitValue?, Option.filter_eq_some_iff] at hvalue
  rw [digitValue?, hvalue.1]
  simp [hd]

/-- What is no digit is not in a column. -/
theorem not_mem_digits {x : Char} (hx : digitValue? 16 x = none) (c : Case) (k v : Nat) :
    x ∉ digits c k v := by
  intro h
  obtain ⟨d, rfl⟩ := Hex.mem_digits h
  exact nomatch hx.symm.trans (digitValue?_digit c d)

theorem Denotes.not_mem {base v : Nat} {ds : List Char} {x : Char} (h : Denotes base ds v)
    (hbase : base ≤ 16) (hx : digitValue? base x = none) : x ∉ ds := by
  have hdigit : ∀ (c : Case) {d : Nat}, d < base → x ≠ Hex.digit c d := by
    rintro c d hd rfl
    exact nomatch hx.symm.trans (digitValue?_of_lt hbase c hd)
  induction h with
  | digit c hd => simpa using hdigit c hd
  | append h c hd ih => simp [ih, hdigit c hd]

theorem readDigits_append (base v : Nat) (front back : List Char) :
    readDigits base v (front ++ back) =
      (readDigits base v front).bind fun u => readDigits base u back := by
  induction front generalizing v with
  | nil => rfl
  | cons x front ih =>
    rw [List.cons_append, readDigits, readDigits]
    cases digitValue? base x with
    | none => rfl
    | some d =>
      dsimp only
      split
      · exact ih _
      · rfl

theorem readDigits_digit {base u d : Nat} (hbase : base ≤ 16) (c : Case) (hd : d < base)
    (hv : base * u + d < 0x10000) : readDigits base u [digit c d] = .ok (base * u + d) := by
  rw [readDigits, digitValue?_of_lt hbase c hd]
  exact if_pos hv

/-- A number that is not too large has no digits in front that are. -/
theorem readDigits_of_denotes {base v : Nat} {ds : List Char} (hbase : base ≤ 16)
    (h : Denotes base ds v) (hv : v < 0x10000) : readDigits base 0 ds = .ok v := by
  induction h with
  | @digit c d hd => simpa using readDigits_digit (u := 0) hbase c hd (by omega)
  | @append ds v h c d hd ih =>
    have hpos := h.base_pos
    have hle : v ≤ base * v := Nat.le_mul_of_pos_left v hpos
    rw [readDigits_append, ih (by omega)]
    exact readDigits_digit hbase c hd hv

/-- A text that does not begin with a sign is read as digits. -/
theorem readNumber_of_head (base : Nat) {x : Char} {xs : List Char} (h : x ≠ '+') :
    readNumber base (x :: xs) = readDigits base 0 (x :: xs) := by
  unfold readNumber
  split
  · rename_i heq
    exact nomatch heq
  · rename_i heq
    exact absurd (List.cons.inj heq).1 h
  · rename_i heq
    exact absurd (List.cons.inj heq).1 h
  · rfl

/-- **Digits are read as the number that they denote.** -/
theorem readNumber_of_denotes {base v : Nat} {ds : List Char} (hbase : base ≤ 16)
    (h : Denotes base ds v) (hv : v < 0x10000) : readNumber base ds = .ok v := by
  have hread := readDigits_of_denotes hbase h hv
  have hsign : '+' ∉ ds := h.not_mem hbase rfl
  cases ds with
  | nil => exact absurd rfl h.ne_nil
  | cons x xs =>
    have hhead : x ≠ '+' := by
      rintro rfl
      exact hsign List.mem_cons_self
    rw [readNumber_of_head base hhead]
    exact hread

/-- **A column is read back.** -/
theorem readNumber_digits (c : Case) {k v : Nat} (hpos : 0 < k) (hk : v < Nat.pow 16 k)
    (hv : v < 0x10000) : readNumber 16 (digits c k v) = .ok v :=
  readNumber_of_denotes (Nat.le_refl 16) (denotes_digits c hpos hk) hv

end Command

end Chip8
