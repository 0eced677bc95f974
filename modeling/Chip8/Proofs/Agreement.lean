import Chip8.Proofs.Instruction.Canonical
import Chip8.Proofs.Listing.Acceptance
import Chip8.Proofs.Machine.Walk

/-!
# The listing and the machine agree

A listing of a program and a machine that steps through it show the same thing: line `k` stands at
the address that the counter has before step `k`, and the step hands over what the line says. Both
come from `Listing.words`, each by one of the two walks, so no proof here follows the two walks at
once.

## Any machine

Nothing is asked of the machine that a program is loaded into. It may hold other programs, its
counter may be anywhere, and engines of any kind may have been at work on it. Only behind the end of
the program does its past show, and a machine that held nothing shows zeros there.

## Main definitions

* `Machine.Follows` — a tracing machine goes along some lines
* `Instruction.assemble` — the image of a list of instructions

## Main results

* `Machine.follows_linesFrom` — a machine follows the lines of the bytes that lie ahead
* `Machine.follows_lines_after_load` — the headline for any image, before and behind its end
* `Instruction.assemble_roundTrip` — the headline for an image made of instructions
-/

namespace Chip8

open Listing

namespace Machine

/-- A tracing machine goes along `ls`. All steps succeed; before step `k` the counter is at the
address of line `k`, and the step returns what the line says; in the end just that has been
recorded. -/
structure Follows (m : Machine) (t : Trace) (ls : List Line) : Prop where
  succeeds : (run .tracing ls.length m t).fault = none
  counter : ∀ (k : Nat) (l : Line), ls[k]? = some l →
    (run .tracing k m t).machine.pc = l.address
  returned : ∀ (k : Nat) (l : Line), ls[k]? = some l →
    (step .tracing (run .tracing k m t).machine (run .tracing k m t).state).result =
      .ok l.operation
  recorded : (run .tracing ls.length m t).state.operations.toList =
    t.operations.toList ++ ls.map Line.operation

/-- **A machine follows the lines of the bytes that lie ahead of it.** -/
theorem follows_linesFrom {m : Machine} {image : List Byte} (h : m.memory.Holds m.pc image)
    (style : UnknownStyle) (t : Trace) : m.Follows t (linesFrom style m.pc image) := by
  have hlength := length_linesFrom style m.pc image
  have hword : ∀ {k : Nat} {l : Line}, (linesFrom style m.pc image)[k]? = some l →
      ∃ w, (words image)[k]? = some w ∧
        l = Line.ofWord style (m.pc + BitVec.ofNat 16 (2 * k)) w := by
    intro k l hl
    rw [getElem?_linesFrom] at hl
    obtain ⟨w, hw, rfl⟩ := Option.map_eq_some_iff.mp hl
    exact ⟨w, hw, rfl⟩
  have hrun : ∀ {k : Nat} {l : Line}, (linesFrom style m.pc image)[k]? = some l →
      (run .tracing k m t).machine = m.moved k := by
    intro k l hl
    have hk : k < image.length / 2 := hlength ▸ (List.getElem?_eq_some_iff.mp hl).1
    rw [run_tracing_of_holds k image m t h (by omega)]
  have hall := run_tracing_of_holds (image.length / 2) image m t h (by omega)
  rw [← length_words, List.take_length, ← map_operation_linesFrom style m.pc] at hall
  refine ⟨?_, fun k l hl => ?_, fun k l hl => ?_, ?_⟩
  · rw [hlength, ← length_words, hall]
  · obtain ⟨w, -, rfl⟩ := hword hl
    rw [hrun hl]
    rfl
  · obtain ⟨w, hw, rfl⟩ := hword hl
    rw [hrun hl, step_tracing_of_fetch (fetch_moved_of_holds h hw), Line.operation_ofWord]
  · rw [hlength, ← length_words, hall]
    exact Trace.toList_record ..

/-- Whatever fits into memory can be listed at the place where it is loaded. -/
theorem accepts_of_le_programCapacity (style : UnknownStyle) {image : List Byte}
    (h : image.length ≤ programCapacity) :
    Options.Accepts
      { loadAddress := programStart, unknownStyle := style, trailingByte := .truncate } image := by
  have hlimit : programCapacity ≤ addressSpace - programStart.toNat := by decide
  exact ⟨Nat.le_trans h hlimit, .inr rfl⟩

/-- **A listing is a run.** A program that is loaded into any machine is stepped through as it is
listed. If the machine is a fresh one, the run goes on to the end of memory as if the program had
been filled up with zeros. -/
theorem follows_lines_after_load {program : List Byte} (h : program.length ≤ programCapacity)
    (style : UnknownStyle) (t : Trace) :
    (∀ m : Machine, ∃ m' ls, m.load program = .ok m' ∧
      (lines { loadAddress := programStart, unknownStyle := style, trailingByte := .truncate }
        program).value = .ok ls ∧
      ls.length = program.length / 2 ∧ m'.Follows t ls) ∧
    ∃ m' ls, fresh.load program = .ok m' ∧
      (lines { loadAddress := programStart, unknownStyle := style, trailingByte := .truncate }
        (Memory.padded program)).value = .ok ls ∧
      ls.length = 1792 ∧ m'.Follows t ls := by
  have hpadded := Memory.length_padded h
  constructor
  · intro m
    exact ⟨m.loaded program, _, m.load_of_le h,
      value_lines_of_accepts (accepts_of_le_programCapacity style h), length_linesFrom ..,
      follows_linesFrom (m := m.loaded program) (m.holds_loaded h) style t⟩
  · refine ⟨fresh.loaded program, _, fresh.load_of_le h,
      value_lines_of_accepts (accepts_of_le_programCapacity style (Nat.le_of_eq hpadded)), ?_,
      follows_linesFrom (m := fresh.loaded program) (holds_loaded_fresh h) style t⟩
    rw [length_linesFrom, hpadded, programCapacity_eq]

/-- An alias, a word that is no instruction, and an odd last byte. -/
theorem follows_lines_after_load_odd :
    ([0x01, 0xE0, 0xF0, 0x00, 0x12] : List Byte).length ≤ programCapacity ∧
      (∃ m' ls, fresh.load [0x01, 0xE0, 0xF0, 0x00, 0x12] = .ok m' ∧
        (lines {} [0x01, 0xE0, 0xF0, 0x00, 0x12]).value = .ok ls ∧ ls.length = 2 ∧
        m'.Follows {} ls) ∧
      ∃ m' ls, fresh.load [0x01, 0xE0, 0xF0, 0x00, 0x12] = .ok m' ∧
        (lines {} (Memory.padded [0x01, 0xE0, 0xF0, 0x00, 0x12])).value = .ok ls ∧
        ls.length = 1792 ∧ m'.Follows {} ls := by
  have hsize : ([0x01, 0xE0, 0xF0, 0x00, 0x12] : List Byte).length ≤ programCapacity := by decide
  obtain ⟨hany, hfresh⟩ := follows_lines_after_load hsize .addressed {}
  exact ⟨hsize, hany fresh, hfresh⟩

end Machine

/-! ### Images made of instructions -/

namespace Instruction

/-- The image of a list of instructions, each written as its word. -/
def assemble (program : List Instruction) : List Byte := program.flatMap fun i => i.encode.bytes

theorem assemble_eq (program : List Instruction) :
    assemble program = bytesOf (program.map encode) := by
  rw [assemble, bytesOf, List.flatMap_map]

theorem length_assemble (program : List Instruction) :
    (assemble program).length = 2 * program.length := by
  rw [assemble_eq, length_bytesOf, List.length_map]

theorem map_decode?_words_assemble (program : List Instruction) :
    (words (assemble program)).map decode? = program.map some := by
  rw [assemble_eq, words_bytesOf, List.map_map]
  exact congrArg (List.map · _) (funext decode?_encode)

theorem map_ofWord_words_assemble (program : List Instruction) :
    (words (assemble program)).map Operation.ofWord = program.map .instruction := by
  rw [assemble_eq, words_bytesOf, List.map_map]
  exact congrArg (List.map · _) (funext fun i => Operation.ofWord_of_decode? (decode?_encode i))

/-- **What was put together is taken apart again, by either consumer.** -/
theorem assemble_roundTrip (program : List Instruction) :
    (∀ o : Options, o.loadAddress.toNat + 2 * program.length ≤ addressSpace →
      ∃ ls, (lines o (assemble program)).value = .ok ls ∧ ls.map Line.body = program.map some) ∧
    (2 * program.length ≤ programCapacity → ∀ m : Machine, ∃ m',
      m.load (assemble program) = .ok m' ∧
      (m'.run .tracing program.length {}).fault = none ∧
      (m'.run .tracing program.length {}).state.operations.toList =
        program.map .instruction) ∧
    (∀ i : Instruction, decode? i.encode = some i) ∧
    Function.Injective encode := by
  have hlength := length_assemble program
  refine ⟨fun o ho => ?_, fun hsize m => ?_, decode?_encode, encode_injective⟩
  · have haccepts : o.Accepts (assemble program) :=
      Options.accepts_of_even (hlength ▸ ho) (by omega)
    refine ⟨_, value_lines_of_accepts haccepts, ?_⟩
    rw [map_body_linesFrom, map_decode?_words_assemble]
  · have hfits : (assemble program).length ≤ programCapacity := hlength ▸ hsize
    have hfollows := Machine.follows_linesFrom (m := m.loaded (assemble program))
      (m.holds_loaded hfits) .addressed {}
    have hcount : (linesFrom .addressed programStart (assemble program)).length =
        program.length := by
      rw [length_linesFrom, hlength]
      omega
    refine ⟨_, m.load_of_le hfits, ?_, ?_⟩
    · rw [← hcount]
      exact hfollows.succeeds
    · rw [← hcount]
      refine hfollows.recorded.trans ?_
      rw [map_operation_linesFrom, map_ofWord_words_assemble]
      rfl

/-- Three instructions that reach exactly to the end of the address space. -/
theorem assemble_roundTrip_at_end :
    (0xFFFA#16).toNat + 2 * 3 ≤ addressSpace ∧ 2 * 3 ≤ programCapacity ∧
      (∃ ls, (lines { loadAddress := 0xFFFA }
          (assemble [.draw 1 2 5, .arith 3 0xB .shiftLeft, .storeRegisters 0xF])).value = .ok ls ∧
        ls.map Line.body =
          [some (.draw 1 2 5), some (.arith 3 0xB .shiftLeft), some (.storeRegisters 0xF)]) ∧
      ∃ m', Machine.fresh.load
          (assemble [.draw 1 2 5, .arith 3 0xB .shiftLeft, .storeRegisters 0xF]) = .ok m' ∧
        (m'.run .tracing 3 {}).fault = none ∧
        (m'.run .tracing 3 {}).state.operations.toList =
          [.instruction (.draw 1 2 5), .instruction (.arith 3 0xB .shiftLeft),
            .instruction (.storeRegisters 0xF)] := by
  have haddress : (0xFFFA#16).toNat + 2 * 3 ≤ addressSpace := by decide
  have hsize : 2 * 3 ≤ programCapacity := by decide
  obtain ⟨hlines, hrun, -, -⟩ :=
    assemble_roundTrip [.draw 1 2 5, .arith 3 0xB .shiftLeft, .storeRegisters 0xF]
  exact ⟨haddress, hsize, hlines { loadAddress := 0xFFFA } haddress, hrun hsize Machine.fresh⟩

end Instruction

end Chip8
