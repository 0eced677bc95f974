import Chip8.Machine.Run
import Chip8.Proofs.Listing.Words

/-!
# Walking through bytes in memory

A machine reads two places of memory for each step. If an image lies in memory from the counter on,
the machine therefore steps through the words of that image, and this file says so once for runs of
any length. What put the image there does not matter, so nothing here speaks of loading until the
last section.

## Bytes in memory

`Memory.Holds` goes along a list and an address together. Its recursion is that of the walk, and a
step takes two bytes off both. There is no condition on the address: a place that can be read lies
in memory, and so the address cannot have wrapped around.

## Main definitions

* `Memory.Holds` — some bytes lie in memory from an address on
* `Memory.padded` — a program with zeros behind it
* `Machine.moved`, `Trace.record` — what a number of steps does to the counter and to a trace
* `Machine.loaded` — what a load does to a machine

## Main results

* `Machine.fetch_moved_of_holds`, `Machine.step_tracing_of_fetch` — one step
* `Machine.run_tracing_of_holds` — a run, in full
* `Machine.holds_loaded`, `Machine.holds_loaded_fresh` — what lies in memory after a load
-/

namespace Chip8

open Listing (words)

/-! ### Bytes in memory -/

namespace Memory

/-- `bytes` lie in memory from an address on. -/
def Holds (m : Memory) : Address → List Byte → Prop
  | _, [] => True
  | a, b :: bytes => m.get? a = some b ∧ m.Holds (a + 1) bytes

theorem add_one_add_ofNat (a : Address) (k : Nat) :
    a + 1 + BitVec.ofNat 16 k = a + BitVec.ofNat 16 (k + 1) := by
  rw [BitVec.ofNat_add, BitVec.add_assoc, BitVec.add_comm 1]
  rfl

theorem holds_iff {m : Memory} {a : Address} {bytes : List Byte} :
    m.Holds a bytes ↔
      ∀ (k : Nat) (b : Byte), bytes[k]? = some b → m.get? (a + BitVec.ofNat 16 k) = some b := by
  induction bytes generalizing a with
  | nil => simp [Holds]
  | cons c bytes ih =>
    rw [Holds, ih]
    constructor
    · rintro ⟨hc, hbytes⟩ k b hb
      cases k with
      | zero =>
        obtain rfl : c = b := by simpa using hb
        simpa using hc
      | succ k =>
        rw [← add_one_add_ofNat]
        exact hbytes k b (by simpa using hb)
    · intro h
      refine ⟨by simpa using h 0 c rfl, fun k b hb => ?_⟩
      rw [add_one_add_ofNat]
      exact h (k + 1) b (by simpa using hb)

theorem Holds.drop {m : Memory} {a : Address} {bytes : List Byte} (h : m.Holds a bytes) (k : Nat) :
    m.Holds (a + BitVec.ofNat 16 k) (bytes.drop k) := by
  rw [holds_iff] at h ⊢
  intro j b hb
  rw [List.getElem?_drop] at hb
  rw [BitVec.add_assoc, ← BitVec.ofNat_add]
  exact h _ b hb

end Memory

/-- A trace with more operations recorded in it. -/
def Trace.record (t : Trace) (operations : List Operation) : Trace := operations.foldl Trace.push t

theorem Trace.toList_record (t : Trace) (operations : List Operation) :
    (t.record operations).operations.toList = t.operations.toList ++ operations := by
  induction operations generalizing t with
  | nil => exact (List.append_nil _).symm
  | cons operation operations ih =>
    show ((t.push operation).record operations).operations.toList = _
    rw [ih, Trace.toList_push, List.append_assoc]
    rfl

/-! ### Walking -/

namespace Machine

/-- The machine with its counter `k` words further on. -/
def moved (m : Machine) (k : Nat) : Machine := { m with pc := m.pc + BitVec.ofNat 16 (2 * k) }

@[simp] theorem moved_zero (m : Machine) : m.moved 0 = m := by
  simp [moved]

theorem moved_advance (m : Machine) (k : Nat) : m.advance.moved k = m.moved (k + 1) :=
  congrArg (fun pc => ({ m with pc } : Machine)) (Listing.add_two_add_ofNat m.pc (2 * k))

theorem read_of_get? {m : Machine} {a : Address} {b : Byte} (h : m.memory.get? a = some b) :
    m.read a = .ok b := by
  rw [read, h]

theorem fetch_of_holds {m : Machine} {high low : Byte} {rest : List Byte}
    (h : m.memory.Holds m.pc (high :: low :: rest)) : m.fetch = .ok (Word.ofBytes high low) := by
  obtain ⟨hhigh, hlow, -⟩ := h
  simp only [fetch, read_of_get? hhigh, read_of_get? hlow]

theorem holds_advance {m : Machine} {high low : Byte} {rest : List Byte}
    (h : m.memory.Holds m.pc (high :: low :: rest)) :
    m.advance.memory.Holds m.advance.pc rest := by
  have hrest : m.memory.Holds (m.pc + 1 + 1) rest := h.2.2
  rwa [BitVec.add_assoc] at hrest

theorem step_tracing_of_fetch {m : Machine} {w : Word} (h : m.fetch = .ok w) (t : Trace) :
    step .tracing m t =
      { machine := m.advance
        state := t.push (Operation.ofWord w)
        result := .ok (Operation.ofWord w)
        log := [.traced (Operation.ofWord w)] } := by
  rw [step, h]
  simp only [Engine.handle_tracing]
  rfl

/-- The word that is fetched once `k` words have been passed. -/
theorem fetch_moved_of_holds {m : Machine} {image : List Byte} (h : m.memory.Holds m.pc image)
    {k : Nat} {w : Word} (hw : (words image)[k]? = some w) : (m.moved k).fetch = .ok w := by
  obtain ⟨rest, hrest⟩ := Listing.drop_of_getElem?_words image k hw
  have hmoved : (m.moved k).memory.Holds (m.moved k).pc (w.high :: w.low :: rest) := by
    rw [← hrest]
    exact h.drop (2 * k)
  rw [fetch_of_holds hmoved, Word.ofBytes_high_low]

/-- **A tracing run goes through the words that lie ahead.** It succeeds, it moves the counter by
one word per step, and it returns, records and reports the operation of each word. -/
theorem run_tracing_of_holds : ∀ (k : Nat) (image : List Byte) (m : Machine) (t : Trace),
    m.memory.Holds m.pc image → 2 * k ≤ image.length →
      run .tracing k m t =
        { machine := m.moved k
          state := t.record (((words image).take k).map Operation.ofWord)
          operations := ((words image).take k).map Operation.ofWord
          fault := none
          log := (((words image).take k).map Operation.ofWord).map .traced }
  | 0, _, m, t, _, _ => by
    rw [moved_zero]
    rfl
  | k + 1, high :: low :: rest, m, t, h, hk => by
    have hrest : 2 * k ≤ rest.length := by
      rw [List.length_cons, List.length_cons] at hk
      omega
    rw [run, step_tracing_of_fetch (fetch_of_holds h)]
    simp only [run_tracing_of_holds k rest m.advance _ (holds_advance h) hrest, moved_advance]
    rfl
  | _ + 1, [], _, _, _, hk => absurd hk (by simp)
  | k + 1, [_], _, _, _, hk => absurd hk (by rw [List.length_singleton]; omega)

end Machine

/-! ### After a load

Loading leaves alone what it does not reach. So on memory that held nothing a program is followed by
zeros up to the end, and on any other memory by whatever was there. -/

theorem programCapacity_eq : programCapacity = 3584 := rfl

namespace Memory

/-- The places a program can fill are reached without wrapping around. -/
theorem toNat_programStart_add {k : Nat} (h : k < programCapacity) :
    (programStart + BitVec.ofNat 16 k).toNat = programStart.toNat + k := by
  refine Listing.toNat_add_ofNat ?_
  have hstart : programStart.toNat = 512 := rfl
  rw [programCapacity_eq] at h
  omega

theorem get?_overlay_programStart_add (m : Memory) (program : List Byte) {k : Nat}
    (h : k < programCapacity) :
    (m.overlay program).get? (programStart + BitVec.ofNat 16 k) =
      program[k]?.or (m.get? (programStart + BitVec.ofNat 16 k)) := by
  have hnat := toNat_programStart_add h
  have hmemory : (programStart + BitVec.ofNat 16 k).toNat < memorySize := by
    rw [hnat]
    exact Nat.add_lt_of_lt_sub' h
  rw [get?_overlay m program _ hmemory, hnat, if_neg (by omega), Nat.add_sub_cancel_left]

theorem holds_overlay (m : Memory) {program : List Byte} (h : program.length ≤ programCapacity) :
    (m.overlay program).Holds programStart program := by
  rw [holds_iff]
  intro k b hb
  have hk : k < program.length := (List.getElem?_eq_some_iff.mp hb).1
  rw [get?_overlay_programStart_add m program (Nat.lt_of_lt_of_le hk h), hb]
  rfl

/-- The program with zeros behind it, up to the end of memory. -/
def padded (program : List Byte) : List Byte :=
  program ++ List.replicate (programCapacity - program.length) 0

theorem length_padded {program : List Byte} (h : program.length ≤ programCapacity) :
    (padded program).length = programCapacity := by
  rw [padded, List.length_append, List.length_replicate]
  omega

theorem holds_overlay_zero {program : List Byte} (h : program.length ≤ programCapacity) :
    (zero.overlay program).Holds programStart (padded program) := by
  rw [holds_iff]
  intro k b hb
  have hk : k < programCapacity := by
    rw [← length_padded h]
    exact (List.getElem?_eq_some_iff.mp hb).1
  have hzero : zero.get? (programStart + BitVec.ofNat 16 k) = some 0 := by
    rw [get?_zero, toNat_programStart_add hk]
    exact if_pos (Nat.add_lt_of_lt_sub' hk)
  rw [get?_overlay_programStart_add zero program hk, hzero]
  rw [padded, List.getElem?_append] at hb
  split at hb
  · rw [hb]
    rfl
  · rename_i hlength
    rw [List.getElem?_replicate, if_pos (by omega)] at hb
    rw [List.getElem?_eq_none (Nat.not_lt.mp hlength)]
    exact hb

end Memory

namespace Machine

/-- The machine that a load which is not refused leaves behind. -/
def loaded (m : Machine) (program : List Byte) : Machine where
  memory := m.memory.overlay program
  pc := programStart

theorem load_of_le (m : Machine) {program : List Byte} (h : program.length ≤ programCapacity) :
    m.load program = .ok (m.loaded program) :=
  if_neg (Nat.not_lt.mpr h)

theorem holds_loaded (m : Machine) {program : List Byte} (h : program.length ≤ programCapacity) :
    (m.loaded program).memory.Holds programStart program :=
  m.memory.holds_overlay h

theorem holds_loaded_fresh {program : List Byte} (h : program.length ≤ programCapacity) :
    (fresh.loaded program).memory.Holds programStart (Memory.padded program) :=
  Memory.holds_overlay_zero h

end Machine

end Chip8
