import Chip8.Proofs.Machine.Counter

/-!
# What lies in memory over whole histories

Loading a program lays it over what was there and clears nothing. So the programs of a history lie
in memory in layers. A place shows the byte of the topmost program that reaches it, which need not
be the program that was loaded last: behind the end of a short program the rest of a longer one is
still there, and it is fetched like anything else.

Nothing but a load that is accepted writes to memory. The layers are therefore known from the loads
alone, whatever was fetched or stepped in between and whichever engines were at work.

## The order of the layers

The list of programs has the last one first. A load adds one at the head, and `Memory.layered` looks
for a byte from the head on, so one load is one case of its recursion.

## Main definitions

* `Memory.layered`, `Memory.layeredWord` — what can be seen of programs that lie over each other
* `Machine.Call.accepted?` — the program of a load that is not refused
* `Machine.Session.programsAfter` — the programs that some calls have laid over memory
* `Machine.Session.IsLayered` — memory shows the given programs, from their start to its end
* `Machine.Session.KeepsLayers` — what is promised of memory after a history

## Main results

* `Machine.Session.memory_call` — what one call does to memory
* `Machine.Session.IsLayered.call`, `Machine.Session.IsLayered.after` — one call, and a history
* `Machine.Session.keepsLayers_after` — the headline: the promise is kept after every history
-/

namespace Chip8

namespace Memory

/-! ### Layers -/

/-- The byte at place `i` where programs lie over each other, the topmost one first: that of the
first program that reaches so far. What no program reaches is zero. -/
def layered : List (List Byte) → Nat → Byte
  | [], _ => 0
  | program :: older, i => if h : i < program.length then program[i] else layered older i

/-- The word at place `i`, whichever programs its two bytes belong to. -/
def layeredWord (programs : List (List Byte)) (i : Nat) : Word :=
  Word.ofBytes (layered programs i) (layered programs (i + 1))

theorem some_layered_cons (program : List Byte) (older : List (List Byte)) (i : Nat) :
    some (layered (program :: older) i) = program[i]?.or (some (layered older i)) := by
  rw [layered]
  split
  · rename_i h
    rw [List.getElem?_eq_getElem h]
    rfl
  · rename_i h
    rw [List.getElem?_eq_none (Nat.not_lt.mp h)]
    rfl

end Memory

namespace Machine

/-- The program that a call lays over memory: that of a load which is not refused. -/
def Call.accepted? (m : Machine) : Call → Option (List Byte)
  | load program => (m.load program).toOption.map fun _ => program
  | _ => none

theorem load_eq_error_iff (m : Machine) (program : List Byte) (fault : Fault) :
    m.load program = .error fault ↔
      3584 < program.length ∧ fault = .programTooLarge program.length 3584 := by
  constructor
  · intro h
    by_cases hsize : program.length ≤ programCapacity
    · rw [m.load_of_le hsize] at h
      exact nomatch h
    · have hlt : programCapacity < program.length := Nat.not_le.mp hsize
      rw [m.load_of_lt hlt] at h
      exact ⟨hlt, (Except.error.inj h).symm⟩
  · rintro ⟨hlt, rfl⟩
    exact m.load_of_lt hlt

namespace Session

variable {s : Session} {programs : List (List Byte)}

/-- The programs that lie over each other after some calls, the topmost one first, if `programs`
did before. -/
def programsAfter (s : Session) (programs : List (List Byte)) : List Call → List (List Byte)
  | [] => programs
  | c :: calls => (s.call c).programsAfter ((c.accepted? s.machine).toList ++ programs) calls

/-! ### One call -/

/-- **A load that is accepted writes to memory, and nothing else does.** -/
theorem memory_call (s : Session) (c : Call) :
    (s.call c).machine.memory =
      match c.accepted? s.machine with
      | some program => s.machine.memory.overlay program
      | none => s.machine.memory := by
  cases c with
  | load program =>
    by_cases h : program.length ≤ programCapacity
    · rw [call_load_of_le s h, Call.accepted?, s.machine.load_of_le h]
      rfl
    · rw [call_load_of_lt s (Nat.not_le.mp h), Call.accepted?,
        s.machine.load_of_lt (Nat.not_le.mp h)]
      rfl
  | fetch => rfl
  | step engine state =>
    cases h : s.machine.fetch with
    | ok w =>
      rw [call_step_of_fetch h]
      rfl
    | error fault =>
      rw [call_step_of_fetch_error h]
      rfl

/-- What can be seen in memory from the start of programs on are the given programs. -/
def IsLayered (s : Session) (programs : List (List Byte)) : Prop :=
  ∀ i < programCapacity, s.machine.memory.get? (programStart + BitVec.ofNat 16 i) =
    some (Memory.layered programs i)

theorem isLayered_fresh : fresh.IsLayered [] := by
  intro i hi
  have hmemory : (programStart + BitVec.ofNat 16 i).toNat < memorySize := by
    rw [Memory.toNat_programStart_add hi]
    exact Nat.add_lt_of_lt_sub' hi
  exact (Memory.get?_zero _).trans (if_pos hmemory)

theorem IsLayered.call (h : s.IsLayered programs) (c : Call) :
    (s.call c).IsLayered ((c.accepted? s.machine).toList ++ programs) := by
  intro i hi
  rw [memory_call]
  cases c.accepted? s.machine with
  | none => exact h i hi
  | some program =>
    show _ = some (Memory.layered (program :: programs) i)
    rw [Memory.some_layered_cons, ← h i hi]
    exact Memory.get?_overlay_programStart_add s.machine.memory program hi

/-! ### Histories -/

/-- **No history mixes up the layers.** -/
theorem IsLayered.after (h : s.IsLayered programs) (calls : List Call) :
    (s.after calls).IsLayered (s.programsAfter programs calls) := by
  induction calls generalizing s programs with
  | nil => exact h
  | cons c calls ih => exact ih (h.call c)

theorem IsLayered.read (h : s.IsLayered programs) {a : Address} (hstart : 0x200 ≤ a.toNat)
    (hend : a.toNat < 0x1000) :
    s.machine.read a = .ok (Memory.layered programs (a.toNat - 0x200)) := by
  have hplace : a.toNat - 0x200 < programCapacity := by
    rw [programCapacity_eq]
    omega
  have haddress : programStart + BitVec.ofNat 16 (a.toNat - 0x200) = a := by
    refine BitVec.eq_of_toNat_eq ?_
    rw [Memory.toNat_programStart_add hplace, toNat_programStart]
    omega
  refine read_of_get? ?_
  rw [← h _ hplace, haddress]

theorem IsLayered.fetch (h : s.IsLayered programs) (hbounds : s.machine.InBounds)
    (hpc : s.machine.pc ≠ 0x1000) :
    s.machine.fetch = .ok (Memory.layeredWord programs (s.machine.pc.toNat - 0x200)) := by
  have heven := hbounds.even
  have hstart := hbounds.start_le
  have hlt := hbounds.toNat_pc_lt hpc
  have hnext := hbounds.toNat_pc_add_one
  have hhigh := h.read hstart hlt
  -- The counter is on an even place, so the second byte of the word is in memory too.
  have hlow := h.read (a := s.machine.pc + 1) (by omega) (by omega)
  have hplace : (s.machine.pc + 1).toNat - 0x200 = s.machine.pc.toNat - 0x200 + 1 := by omega
  rw [hplace] at hlow
  rw [Machine.fetch, hhigh, hlow]
  rfl

/-- What is promised of the memory of a machine with a past in which `programs` were loaded, the
last one first. -/
structure KeepsLayers (s : Session) (programs : List (List Byte)) : Prop where
  /-- A program is refused for its size and for nothing else. -/
  load_fails (program : List Byte) (fault : Fault) :
    s.machine.load program = .error fault ↔
      3584 < program.length ∧ fault = .programTooLarge program.length 3584
  /-- If it is refused then nothing changes. -/
  unchanged {program : List Byte} : 3584 < program.length → s.call (.load program) = s
  /-- A place shows the last program that reached it. -/
  byte {i : Nat} : i < 3584 →
    s.machine.memory.get? (programStart + BitVec.ofNat 16 i) = some (Memory.layered programs i)
  /-- The next word is the one that is seen at the counter. -/
  fetch : s.machine.pc ≠ 0x1000 →
    s.machine.fetch = .ok (Memory.layeredWord programs (s.machine.pc.toNat - 0x200))
  /-- That word, too, is what a step comes upon and hands to its engine. -/
  step {σ : Type} (engine : Engine σ) (state : σ) : s.machine.pc ≠ 0x1000 → ∃ answer,
    (s.call (.step engine state)).steps =
      s.steps ++ [.served (Memory.layeredWord programs (s.machine.pc.toNat - 0x200)) answer]

/-- **The memory of every machine that can come about keeps its promise**: it shows the programs
that were loaded, each one covering those before it as far as it reaches. -/
theorem keepsLayers_after (calls : List Call) :
    (fresh.after calls).KeepsLayers (fresh.programsAfter [] calls) := by
  have hlayered := isLayered_fresh.after calls
  have hbounds := (isCounted_fresh.after calls).inBounds
  exact
    { load_fails := load_eq_error_iff _
      unchanged := call_load_of_lt _
      byte := fun {i} hi => hlayered i hi
      fetch := hlayered.fetch hbounds
      step := fun engine state hpc =>
        ⟨_, congrArg Session.steps
          (call_step_of_fetch (hlayered.fetch hbounds hpc) engine state)⟩ }

/-- A program of one byte over a longer one: the word at its start is made of both. -/
example :
    Memory.layeredWord (fresh.programsAfter [] [.load [0x00, 0xE0, 0x12], .fetch, .load [0xA2]]) 0 =
      0xA2E0 := rfl

end Session

end Machine

end Chip8
