import Chip8.Log
import Chip8.Machine.Basic

/-!
# Engines

An engine is handed operations and keeps a state of its own. It may refuse an operation. The fault
is its answer for this operation only; nothing stops it from being handed the next one.

An engine that has no rule for words that are no instructions refuses them.

## Main definitions

* `Engine`, `Engine.Reply`, `Engine.handle`
* `Trace`, `Engine.tracing` — the engine that records what it is handed and executes nothing
-/

namespace Chip8

open Machine (Fault)

/-- What an engine gives back for one operation. -/
structure Engine.Reply (σ : Type) where
  /-- Its state afterwards, also if it refused. -/
  state : σ
  result : Except Fault Unit := .ok ()
  log : List Log.Message := []

/-- Something that operations are handed to; `σ` is its state. -/
structure Engine (σ : Type) where
  execute : σ → Instruction → Engine.Reply σ
  /-- What it does with a word that is no instruction. -/
  unknown : σ → Word → Engine.Reply σ :=
    fun state w => { state, result := .error (.unknownWord w) }

namespace Engine

variable {σ : Type}

/-- Hands over one operation. -/
def handle (e : Engine σ) (state : σ) : Operation → Reply σ
  | .instruction i => e.execute state i
  | .unknown w => e.unknown state w

end Engine

/-- A record of operations, oldest first. -/
structure Trace where
  operations : Array Operation := #[]
  deriving DecidableEq, Repr

namespace Trace

/-- The record with one operation more. -/
def push (t : Trace) (operation : Operation) : Trace :=
  { operations := t.operations.push operation }

@[simp] theorem toList_push (t : Trace) (operation : Operation) :
    (t.push operation).operations.toList = t.operations.toList ++ [operation] := by
  simp [push]

end Trace

namespace Engine

/-- The reply of one who only records an operation. -/
def Reply.recorded (t : Trace) (operation : Operation) : Reply Trace where
  state := t.push operation
  log := [.traced operation]

/-- Records every operation and executes none. -/
def tracing : Engine Trace where
  execute t i := .recorded t (.instruction i)
  unknown t w := .recorded t (.unknown w)

@[simp] theorem handle_tracing (t : Trace) (operation : Operation) :
    tracing.handle t operation = .recorded t operation := by
  cases operation <;> rfl

end Engine

end Chip8
