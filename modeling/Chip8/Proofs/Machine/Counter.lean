import Chip8.Proofs.Machine.Session

/-!
# The program counter over whole histories

A word is read byte by byte and each byte is checked for itself, while the counter wraps around at
sixteen bits. So nothing in the code of a fetch says that a word is never read by halves. It holds
because of where the counter can be: on an even place, from the start of programs to the end of
memory. `Machine.InBounds` says so, and no call breaks it.

A step moves the counter by one word if and only if it reaches an engine. That makes the counter
count: since the last load that was accepted, as many steps have reached an engine as there are
words behind it. From there to the end of memory there is room for a fixed number of words only, and
so for a fixed number of steps, whatever the engines are.

## Main definitions

* `Machine.InBounds` — where the counter is, and that there are only zeros below programs
* `Machine.Session.IsCounted` — the counter tells how many steps have reached an engine
* `Machine.Session.KeepsCounter` — what is promised of the counter after a history

## Main results

* `Machine.InBounds.fetch_eq_error_iff` — fetching fails at the end of memory and only there
* `Machine.Takes.inBounds`, `Machine.Takes.toNat_pc` — one step
* `Machine.Session.IsCounted.after` — a history
* `Machine.Session.keepsCounter_after` — the headline: the promise is kept after every history
-/

namespace Chip8

theorem memorySize_eq : memorySize = 0x1000 := rfl

theorem toNat_programStart : programStart.toNat = 0x200 := rfl

namespace Memory

theorem get?_eq_none_iff (m : Memory) (a : Address) : m.get? a = none ↔ memorySize ≤ a.toNat :=
  Vector.getElem?_eq_none_iff

theorem exists_get?_of_lt (m : Memory) {a : Address} (h : a.toNat < memorySize) :
    ∃ b, m.get? a = some b :=
  ⟨m[a.toNat], Vector.getElem?_eq_getElem h⟩

end Memory

namespace Machine

/-! ### One machine -/

/-- The counter is on an even place from the start of programs to the end of memory, and below it
there are zeros. -/
structure InBounds (m : Machine) : Prop where
  even : m.pc.toNat % 2 = 0
  start_le : 0x200 ≤ m.pc.toNat
  le_end : m.pc.toNat ≤ 0x1000
  low_zero (a : Address) : a.toNat < 0x200 → m.memory.get? a = some 0

variable {m m' : Machine} {t : StepRecord} {w : Word} {fault : Fault}

theorem inBounds_fresh : fresh.InBounds where
  even := rfl
  start_le := Nat.le_refl _
  le_end := by decide
  low_zero a h := by
    have hmemory : a.toNat < memorySize := Nat.lt_trans h (by decide)
    exact (Memory.get?_zero a).trans (if_pos hmemory)

/-- A load writes nothing below programs. -/
theorem InBounds.loaded (h : m.InBounds) (program : List Byte) : (m.loaded program).InBounds where
  even := by
    show programStart.toNat % 2 = 0
    decide
  start_le := Nat.le_refl _
  le_end := by
    show programStart.toNat ≤ 0x1000
    decide
  low_zero a ha := by
    have hmemory : a.toNat < memorySize := Nat.lt_trans ha (by decide)
    show (m.memory.overlay program).get? a = some 0
    rw [Memory.get?_overlay m.memory program a hmemory, toNat_programStart, if_pos ha]
    exact h.low_zero a ha

theorem InBounds.toNat_pc_add_one (h : m.InBounds) : (m.pc + 1).toNat = m.pc.toNat + 1 := by
  have := h.le_end
  bv_omega

theorem InBounds.toNat_pc_add_two (h : m.InBounds) : (m.pc + 2).toNat = m.pc.toNat + 2 := by
  have := h.le_end
  bv_omega

/-- If the first byte of a word lies in memory then so does the second one, since memory ends on an
even place. -/
theorem InBounds.exists_read_add_one (h : m.InBounds) {b : Byte} (hb : m.read m.pc = .ok b) :
    ∃ b', m.read (m.pc + 1) = .ok b' := by
  have hpc : m.pc.toNat < memorySize := by
    refine Nat.lt_of_not_le fun hge => ?_
    rw [read_of_get?_none ((m.memory.get?_eq_none_iff m.pc).mpr hge)] at hb
    exact nomatch hb
  have hnext : (m.pc + 1).toNat < memorySize := by
    have heven := h.even
    rw [h.toNat_pc_add_one]
    rw [memorySize_eq] at hpc ⊢
    omega
  obtain ⟨b', hb'⟩ := m.memory.exists_get?_of_lt hnext
  exact ⟨b', read_of_get? hb'⟩

theorem fetch_of_pc_eq (h : m.pc = 0x1000) : m.fetch = .error (.outOfBounds 0x1000) := by
  have hnone : m.memory.get? 0x1000 = none :=
    (m.memory.get?_eq_none_iff 0x1000).mpr (by decide)
  rw [fetch, h, read_of_get?_none hnone]

theorem InBounds.toNat_pc_lt (h : m.InBounds) (hne : m.pc ≠ 0x1000) : m.pc.toNat < 0x1000 :=
  Nat.lt_of_le_of_ne h.le_end fun heq => hne (BitVec.eq_of_toNat_eq heq)

theorem InBounds.exists_fetch (h : m.InBounds) (hne : m.pc ≠ 0x1000) : ∃ w, m.fetch = .ok w := by
  obtain ⟨high, hhigh⟩ := m.memory.exists_get?_of_lt (h.toNat_pc_lt hne)
  obtain ⟨low, hlow⟩ := h.exists_read_add_one (read_of_get? hhigh)
  exact ⟨Word.ofBytes high low, by simp only [fetch, read_of_get? hhigh, hlow]⟩

/-- **Fetching fails at the end of memory and nowhere else**, and it fails at the first byte. -/
theorem InBounds.fetch_eq_error_iff (h : m.InBounds) :
    m.fetch = .error fault ↔ m.pc = 0x1000 ∧ fault = .outOfBounds 0x1000 := by
  constructor
  · intro hfetch
    by_cases hpc : m.pc = 0x1000
    · rw [fetch_of_pc_eq hpc] at hfetch
      exact ⟨hpc, (Except.error.inj hfetch).symm⟩
    · obtain ⟨w, hw⟩ := h.exists_fetch hpc
      exact nomatch hw.symm.trans hfetch
  · rintro ⟨hpc, rfl⟩
    exact fetch_of_pc_eq hpc

/-! ### One step -/

theorem InBounds.advance (h : m.InBounds) (hw : m.fetch = .ok w) : m.advance.InBounds := by
  have hne : m.pc ≠ 0x1000 := fun hpc => nomatch hw.symm.trans (fetch_of_pc_eq hpc)
  have hlt := h.toNat_pc_lt hne
  have heven := h.even
  have hstart := h.start_le
  have hpc : m.advance.pc.toNat = m.pc.toNat + 2 := h.toNat_pc_add_two
  exact ⟨by omega, by omega, by omega, h.low_zero⟩

theorem Takes.inBounds (h : m.Takes t m') (hm : m.InBounds) : m'.InBounds := by
  cases h with
  | served hw answer => exact hm.advance hw
  | unserved hfault => exact hm

/-- A step moves the counter if and only if it reaches an engine. -/
theorem Takes.toNat_pc (h : m.Takes t m') (hm : m.InBounds) :
    m'.pc.toNat = m.pc.toNat + 2 * [t].countP StepRecord.reachesEngine := by
  cases h with
  | served hw answer => exact hm.toNat_pc_add_two
  | unserved hfault => rfl

/-- A step that succeeds has reached an engine. -/
theorem Takes.reachesEngine (h : m.Takes t m') (hsucceeds : t.succeeds) : t.reachesEngine := by
  cases h with
  | served hw answer => rfl
  | unserved hfault => exact nomatch hsucceeds

/-! ### Histories -/

namespace Session

variable {s : Session}

/-- The counter is behind as many words as steps have reached an engine. -/
structure IsCounted (s : Session) : Prop where
  inBounds : s.machine.InBounds
  toNat_pc : s.machine.pc.toNat = 0x200 + 2 * s.steps.countP StepRecord.reachesEngine

theorem isCounted_fresh : fresh.IsCounted := ⟨inBounds_fresh, rfl⟩

theorem IsCounted.call (h : s.IsCounted) (c : Call) : (s.call c).IsCounted := by
  rcases s.call_cases c with ⟨hs, -⟩ | ⟨program, -, -, hs⟩ | ⟨t, m, -, htakes, hs⟩
  · rw [hs]
    exact h
  · rw [hs]
    exact ⟨h.inBounds.loaded program, rfl⟩
  · rw [hs]
    refine ⟨htakes.inBounds h.inBounds, ?_⟩
    have hpc := htakes.toNat_pc h.inBounds
    have hcount := h.toNat_pc
    show m.pc.toNat = 0x200 + 2 * (s.steps ++ [t]).countP StepRecord.reachesEngine
    rw [List.countP_append]
    omega

/-- **No history makes the counter miscount.** -/
theorem IsCounted.after (h : s.IsCounted) (calls : List Call) : (s.after calls).IsCounted :=
  after_induction h (fun _ c hs => hs.call c) calls

/-- No more steps reach an engine than there are words from the counter to the end of memory. -/
theorem IsCounted.countP_reachesEngine_le (h : s.IsCounted) {more : List Call}
    {new : List StepRecord} (hnew : (s.after more).steps = s.steps ++ new) :
    new.countP StepRecord.reachesEngine ≤ (0x1000 - s.machine.pc.toNat) / 2 := by
  have hafter := h.after more
  have hend := hafter.inBounds.le_end
  have hcount := h.toNat_pc
  have hcount' := hafter.toNat_pc
  rw [hnew, List.countP_append] at hcount'
  omega

theorem countP_succeeds_le {calls : List Call} {old new : List StepRecord}
    (h : (fresh.after calls).steps = old ++ new) :
    new.countP StepRecord.succeeds ≤ new.countP StepRecord.reachesEngine := by
  refine List.countP_mono_left fun t ht hsucceeds => ?_
  have hmem : t ∈ (fresh.after calls).steps := h ▸ List.mem_append_right old ht
  obtain ⟨m, m', htakes⟩ := takes_of_mem_steps hmem
  exact htakes.reachesEngine hsucceeds

/-- What is promised of the counter of a machine with a past. -/
structure KeepsCounter (s : Session) : Prop where
  even : s.machine.pc.toNat % 2 = 0
  start_le : 0x200 ≤ s.machine.pc.toNat
  le_end : s.machine.pc.toNat ≤ 0x1000
  low_zero (a : Address) : a.toNat < 0x200 → s.machine.memory.get? a = some 0
  /-- Fetching fails at the end of memory and nowhere else. -/
  fetch_fails (fault : Fault) :
    s.machine.fetch = .error fault ↔ s.machine.pc = 0x1000 ∧ fault = .outOfBounds 0x1000
  /-- It never fails at the second byte. -/
  second_byte {b : Byte} :
    s.machine.read s.machine.pc = .ok b → ∃ b', s.machine.read (s.machine.pc + 1) = .ok b'
  no_wrap : (s.machine.pc + 1).toNat = s.machine.pc.toNat + 1 ∧
    (s.machine.pc + 2).toNat = s.machine.pc.toNat + 2
  /-- At the end of memory a step leaves the machine where it is and its engine as it was, and if it
  is watched then nothing is noted. -/
  stuck {σ : Type} (engine : Engine σ) (state : σ) : s.machine.pc = 0x1000 →
    step engine s.machine state =
        { machine := s.machine, state, result := .error (.outOfBounds 0x1000) } ∧
      s.call (.step engine state) =
        { s with steps := s.steps ++ [.unserved (.outOfBounds 0x1000)] }
  /-- The counter tells how many steps have reached an engine since the last accepted load. -/
  reached :
    s.steps.countP StepRecord.reachesEngine = (s.machine.pc.toNat - 0x200) / 2
  reached_le : s.steps.countP StepRecord.reachesEngine ≤ 1792
  /-- Until the next accepted load only so many steps can succeed, and if there are more of them
  then one fails. -/
  exhausts {more : List Call} :
    (∀ program, .load program ∈ more → programCapacity < program.length) →
      ∃ new, (s.after more).steps = s.steps ++ new ∧ new.length = more.countP Call.isStep ∧
        new.countP StepRecord.succeeds ≤ (0x1000 - s.machine.pc.toNat) / 2 ∧
        ((0x1000 - s.machine.pc.toNat) / 2 < more.countP Call.isStep →
          ∃ t ∈ new, ∃ fault, t.result = .error fault)

theorem exists_error_of_countP_lt {new : List StepRecord}
    (h : new.countP StepRecord.succeeds < new.length) :
    ∃ t ∈ new, ∃ fault, t.result = .error fault := by
  have hnot : ¬ ∀ t ∈ new, t.succeeds := fun hall => by
    rw [List.countP_eq_length.mpr hall] at h
    exact Nat.lt_irrefl _ h
  obtain ⟨t, ht, hfails⟩ : ∃ t ∈ new, ¬ t.succeeds := by simpa using hnot
  refine ⟨t, ht, ?_⟩
  cases hresult : t.result with
  | error fault => exact ⟨fault, rfl⟩
  | ok operation => exact absurd (by rw [StepRecord.succeeds, hresult]; rfl) hfails

/-- **The counter of every machine that can come about keeps its promise**, whatever was loaded and
whichever engines were at work. -/
theorem keepsCounter_after (calls : List Call) : (fresh.after calls).KeepsCounter := by
  have hcounted : (fresh.after calls).IsCounted := isCounted_fresh.after calls
  have hbounds := hcounted.inBounds
  have hpc := hcounted.toNat_pc
  have hend := hbounds.le_end
  exact
    { even := hbounds.even
      start_le := hbounds.start_le
      le_end := hend
      low_zero := hbounds.low_zero
      fetch_fails := fun fault => hbounds.fetch_eq_error_iff
      second_byte := hbounds.exists_read_add_one
      no_wrap := ⟨hbounds.toNat_pc_add_one, hbounds.toNat_pc_add_two⟩
      stuck := fun engine state h =>
        ⟨step_of_fetch_error (fetch_of_pc_eq h) engine state,
          call_step_of_fetch_error (fetch_of_pc_eq h) engine state⟩
      reached := by omega
      reached_le := by omega
      exhausts := by
        intro more hload
        obtain ⟨new, hnew, hlength⟩ := (fresh.after calls).exists_steps_after hload
        have hsteps : (fresh.after (calls ++ more)).steps = (fresh.after calls).steps ++ new := by
          rw [after_append]
          exact hnew
        have hle := Nat.le_trans (countP_succeeds_le hsteps) (hcounted.countP_reachesEngine_le hnew)
        refine ⟨new, hnew, hlength, hle, fun hlt => exists_error_of_countP_lt ?_⟩
        rw [hlength]
        exact Nat.lt_of_le_of_lt hle hlt }

end Session

end Machine

end Chip8
