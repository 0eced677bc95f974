import Chip8.Machine.Engine

/-!
# Running a machine

A step fetches a word, moves the counter behind it and hands the operation to an engine. The order
matters: when the engine refuses, the counter has moved already, and the next step goes on with the
next word. When nothing can be fetched the counter stays and the engine is not asked.

## Main definitions

* `Machine.Step`, `Machine.step`
* `Machine.Run`, `Machine.run` — steps until one fails, or as many as asked for
-/

namespace Chip8.Machine

variable {σ : Type}

/-- What a step leaves behind. -/
structure Step (σ : Type) where
  machine : Machine
  /-- The state of the engine. -/
  state : σ
  /-- The operation that was handed over and accepted. -/
  result : Except Fault Operation
  log : List Log.Message := []

/-- One step, with `state` the state of the engine. -/
def step (engine : Engine σ) (m : Machine) (state : σ) : Step σ :=
  match m.fetch with
  | .error fault => { machine := m, state, result := .error fault }
  | .ok w =>
    let operation := Operation.ofWord w
    let reply := engine.handle state operation
    { machine := m.advance
      state := reply.state
      result := reply.result.map fun () => operation
      log := reply.log }

/-- What several steps leave behind. -/
structure Run (σ : Type) where
  machine : Machine
  state : σ
  /-- The operations that were accepted, oldest first. -/
  operations : List Operation
  /-- Why the run ended early. -/
  fault : Option Fault
  log : List Log.Message

/-- Steps until one fails or `count` have succeeded. -/
def run (engine : Engine σ) : Nat → Machine → σ → Run σ
  | 0, machine, state => { machine, state, operations := [], fault := none, log := [] }
  | count + 1, m, state =>
    let first := step engine m state
    match first.result with
    | .error fault =>
      { machine := first.machine
        state := first.state
        operations := []
        fault := some fault
        log := first.log }
    | .ok operation =>
      let rest := run engine count first.machine first.state
      { rest with
        operations := operation :: rest.operations
        log := first.log ++ rest.log }

end Chip8.Machine
