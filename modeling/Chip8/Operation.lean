import Chip8.Instruction.Encoding
import Chip8.Instruction.Text

/-!
# Operations

Every word is an operation: the instruction it stands for, or itself when there is none. A machine
meets data in its path sooner or later, so what to do with a word that is no instruction is decided
by whoever is handed the operation, not here.

## Main definitions

* `Operation`
* `Operation.ofWord` — the operation of a word
* `Operation.encode` — the word of an operation; of a word that is no instruction, the word itself
* `Operation.text` — an instruction as it is listed, or `unknownMarker`
-/

namespace Chip8

/-- What is written in place of an instruction. -/
def unknownMarker : String := "unknown opcode"

/-- What a word stands for. -/
inductive Operation
  | instruction (i : Instruction)
  /-- A word that is no instruction. -/
  | unknown (w : Word)
  deriving DecidableEq, Repr

namespace Operation

/-- The operation of a word. -/
def ofWord (w : Word) : Operation :=
  match Instruction.decode? w with
  | some i => instruction i
  | none => unknown w

/-- The word of an operation. For an instruction it need not be the word that was read. -/
def encode : Operation → Word
  | instruction i => i.encode
  | unknown w => w

/-- An operation as it is listed. -/
def text : Operation → String
  | instruction i => i.text
  | unknown _ => unknownMarker

theorem ofWord_of_decode? {w : Word} {i : Instruction} (h : Instruction.decode? w = some i) :
    ofWord w = instruction i := by
  simp [ofWord, h]

theorem ofWord_of_decode?_none {w : Word} (h : Instruction.decode? w = none) :
    ofWord w = unknown w := by
  simp [ofWord, h]

theorem ofWord_eq_unknown_iff (w v : Word) :
    ofWord w = unknown v ↔ w = v ∧ Instruction.decode? v = none := by
  constructor
  · intro h
    cases hw : Instruction.decode? w with
    | some i =>
      rw [ofWord_of_decode? hw] at h
      exact nomatch h
    | none =>
      rw [ofWord_of_decode?_none hw] at h
      obtain rfl := unknown.inj h
      exact ⟨rfl, hw⟩
  · rintro ⟨rfl, hw⟩
    exact ofWord_of_decode?_none hw

end Operation

end Chip8
