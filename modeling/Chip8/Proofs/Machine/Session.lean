import Chip8.Proofs.Machine.Walk

/-!
# Histories of a machine

A machine can be loaded, looked at and stepped in any order, and each step may use another engine. A
`Session` is a machine together with what can be said about its past, and `Session.after` lets a
list of calls happen to it. What holds of `Session.fresh.after calls` for all `calls` holds of every
machine that can come about.

## Watching engines

From the answer of a step one cannot tell whether an engine was called, or how often. So every
engine is replaced by one that does the same and writes down what it is handed and what it answers.
It is an engine like any other and `step` cannot tell it apart, so what it has written down is what
happened.

A load that is accepted begins the list of steps anew. Nothing is ever said about steps before it,
since the memory they saw may be gone.

## One rule for all calls

`Session.call_cases` says once what a call can do. Every invariant is proved from it, and no proof
about histories unfolds `step`, `load` or `Session.call` again.

## Main definitions

* `Engine.Handover`, `Engine.watched` — what an engine was handed, and an engine that notes it
* `Machine.Call` — what is asked of a machine
* `Machine.StepRecord`, `Machine.Takes` — what a step looked like, and what a step can look like
* `Machine.Session`, `Machine.Session.call`, `Machine.Session.after`
* `Memory.word?` — the word at an address

## Main results

* `Machine.step_watched` — watching an engine changes nothing
* `Machine.Session.call_cases` — what a call can do
* `Machine.Session.after_induction` — what calls preserve holds after every history
* `Machine.Session.exists_steps_after` — what a history without an accepted load adds to a past
-/

namespace Chip8

open Machine (Fault)

/-! ### Watched engines -/

namespace Engine

/-- An operation that an engine was handed, and what it answered. -/
structure Handover where
  operation : Operation
  answer : Except Fault Unit

variable {σ : Type}

/-- The reply together with a note of it behind those in `notes`. -/
def Reply.noted (r : Reply σ) (notes : List Handover) (operation : Operation) :
    Reply (σ × List Handover) where
  state := (r.state, notes ++ [{ operation, answer := r.result }])
  result := r.result
  log := r.log

/-- An engine that does what `e` does and notes it, each of its two ways to be called as what it
is. -/
def watched (e : Engine σ) : Engine (σ × List Handover) where
  execute s i := (e.execute s.1 i).noted s.2 (.instruction i)
  unknown s w := (e.unknown s.1 w).noted s.2 (.unknown w)

theorem handle_watched (e : Engine σ) (state : σ) (notes : List Handover) (operation : Operation) :
    e.watched.handle (state, notes) operation =
      (e.handle state operation).noted notes operation := by
  cases operation <;> rfl

end Engine

/-! ### Single steps -/

/-- The word at an address, if both of its bytes lie in memory. -/
def Memory.word? (m : Memory) (a : Address) : Option Word :=
  match m.get? a, m.get? (a + 1) with
  | some high, some low => some (Word.ofBytes high low)
  | _, _ => none

namespace Machine

variable {σ : Type}

theorem read_of_get?_none {m : Machine} {a : Address} (h : m.memory.get? a = none) :
    m.read a = .error (.outOfBounds a) := by
  rw [read, h]

/-- What is fetched is the word at the counter. -/
theorem toOption_fetch (m : Machine) : m.fetch.toOption = m.memory.word? m.pc := by
  rw [fetch, Memory.word?]
  cases hhigh : m.memory.get? m.pc with
  | none =>
    rw [read_of_get?_none hhigh]
    rfl
  | some high =>
    rw [read_of_get? hhigh]
    cases hlow : m.memory.get? (m.pc + 1) with
    | none =>
      simp only [read_of_get?_none hlow]
      rfl
    | some low =>
      simp only [read_of_get? hlow]
      rfl

theorem word?_of_fetch {m : Machine} {w : Word} (h : m.fetch = .ok w) :
    m.memory.word? m.pc = some w := by
  rw [← toOption_fetch, h]
  rfl

theorem step_of_fetch {m : Machine} {w : Word} (h : m.fetch = .ok w) (engine : Engine σ)
    (state : σ) :
    step engine m state =
      { machine := m.advance
        state := (engine.handle state (Operation.ofWord w)).state
        result := (engine.handle state (Operation.ofWord w)).result.map fun () =>
          Operation.ofWord w
        log := (engine.handle state (Operation.ofWord w)).log } := by
  rw [step, h]

theorem step_of_fetch_error {m : Machine} {fault : Fault} (h : m.fetch = .error fault)
    (engine : Engine σ) (state : σ) :
    step engine m state = { machine := m, state, result := .error fault } := by
  rw [step, h]

/-- **Watching an engine changes nothing** but that its notes are kept. -/
theorem step_watched (engine : Engine σ) (m : Machine) (state : σ) :
    (step engine.watched m (state, [])).machine = (step engine m state).machine ∧
      (step engine.watched m (state, [])).state.1 = (step engine m state).state ∧
      (step engine.watched m (state, [])).result = (step engine m state).result ∧
      (step engine.watched m (state, [])).log = (step engine m state).log := by
  cases h : m.fetch with
  | error fault =>
    rw [step_of_fetch_error h, step_of_fetch_error h]
    exact ⟨rfl, rfl, rfl, rfl⟩
  | ok w =>
    rw [step_of_fetch h, step_of_fetch h, Engine.handle_watched]
    exact ⟨rfl, rfl, rfl, rfl⟩

theorem load_of_lt (m : Machine) {program : List Byte} (h : programCapacity < program.length) :
    m.load program = .error (.programTooLarge program.length programCapacity) :=
  if_pos h

/-! ### Calls -/

/-- Something that is asked of a machine. A step comes with its engine and the state that the engine
is in, so nothing is said about what happened to the engine in between. -/
inductive Call : Type 1
  | load (program : List Byte)
  | fetch
  | step {σ : Type} (engine : Engine σ) (state : σ)

/-- Whether a call is a step. -/
def Call.isStep : Call → Bool
  | step _ _ => true
  | _ => false

/-- What a step looked like from outside. -/
structure StepRecord where
  /-- What fetching would have answered just before. -/
  fetched : Except Fault Word
  /-- What the engine was handed, in order. -/
  handovers : List Engine.Handover
  result : Except Fault Operation

namespace StepRecord

/-- Whether an engine was called. -/
def reachesEngine (t : StepRecord) : Bool := !t.handovers.isEmpty

/-- Whether a step was carried out. -/
def succeeds (t : StepRecord) : Bool := t.result.isOk

/-- The step that finds a word, with the answer of its engine. -/
def served (w : Word) (answer : Except Fault Unit) : StepRecord where
  fetched := .ok w
  handovers := [{ operation := Operation.ofWord w, answer }]
  result := answer.map fun () => Operation.ofWord w

/-- The step that finds none. -/
def unserved (fault : Fault) : StepRecord where
  fetched := .error fault
  handovers := []
  result := .error fault

end StepRecord

/-- A machine takes a step, which looks like `t`, and becomes another one. -/
inductive Takes (m : Machine) : StepRecord → Machine → Prop
  | served {w : Word} (h : m.fetch = .ok w) (answer : Except Fault Unit) :
    m.Takes (.served w answer) m.advance
  | unserved {fault : Fault} (h : m.fetch = .error fault) : m.Takes (.unserved fault) m

/-- A machine and the steps it has taken since a load was accepted last, oldest first. -/
structure Session where
  machine : Machine
  steps : List StepRecord := []

namespace Session

/-- A machine that nothing has been asked of. -/
def fresh : Session where
  machine := Machine.fresh

/-- What was handed to engines, in order. -/
def handed (s : Session) : List Operation :=
  s.steps.flatMap fun t => t.handovers.map Engine.Handover.operation

/-- The session after one call. -/
def call (s : Session) : Call → Session
  | .load program =>
    match s.machine.load program with
    | .ok machine => { machine }
    | .error _ => s
  | .fetch => s
  | .step engine state =>
    let taken := step engine.watched s.machine (state, [])
    { machine := taken.machine
      steps := s.steps ++
        [{ fetched := s.machine.fetch
           handovers := taken.state.2
           result := taken.result }] }

/-- The session after some calls. -/
def after (s : Session) (calls : List Call) : Session := calls.foldl call s

theorem after_append (s : Session) (calls more : List Call) :
    s.after (calls ++ more) = (s.after calls).after more :=
  List.foldl_append

/-! ### What a call can do -/

theorem call_load_of_le (s : Session) {program : List Byte}
    (h : program.length ≤ programCapacity) :
    s.call (.load program) = { machine := s.machine.loaded program } := by
  rw [call, s.machine.load_of_le h]

theorem call_load_of_lt (s : Session) {program : List Byte}
    (h : programCapacity < program.length) : s.call (.load program) = s := by
  rw [call, s.machine.load_of_lt h]

theorem call_step_of_fetch {s : Session} {w : Word} (h : s.machine.fetch = .ok w)
    (engine : Engine σ) (state : σ) :
    s.call (.step engine state) =
      { machine := s.machine.advance
        steps := s.steps ++ [.served w (engine.handle state (Operation.ofWord w)).result] } := by
  simp only [call, step_of_fetch h, Engine.handle_watched, h]
  rfl

theorem call_step_of_fetch_error {s : Session} {fault : Fault} (h : s.machine.fetch = .error fault)
    (engine : Engine σ) (state : σ) :
    s.call (.step engine state) = { s with steps := s.steps ++ [.unserved fault] } := by
  simp only [call, step_of_fetch_error h, h]
  rfl

/-- **What a call can do.** It leaves everything as it was, or it begins anew with a program, or it
takes a step. -/
theorem call_cases (s : Session) (c : Call) :
    (s.call c = s ∧ c.isStep = false) ∨
    (∃ program, c = .load program ∧ program.length ≤ programCapacity ∧
      s.call c = { machine := s.machine.loaded program }) ∨
    ∃ t m, c.isStep = true ∧ s.machine.Takes t m ∧
      s.call c = { machine := m, steps := s.steps ++ [t] } := by
  cases c with
  | load program =>
    by_cases h : program.length ≤ programCapacity
    · exact .inr (.inl ⟨program, rfl, h, s.call_load_of_le h⟩)
    · exact .inl ⟨s.call_load_of_lt (Nat.not_le.mp h), rfl⟩
  | fetch => exact .inl ⟨rfl, rfl⟩
  | step engine state =>
    cases h : s.machine.fetch with
    | ok w => exact .inr (.inr ⟨_, _, rfl, .served h _, call_step_of_fetch h engine state⟩)
    | error fault =>
      exact .inr (.inr ⟨_, _, rfl, .unserved h, call_step_of_fetch_error h engine state⟩)

/-! ### Histories -/

/-- What holds at first and is preserved by every call holds after every history. -/
theorem after_induction {P : Session → Prop} {s : Session} (hs : P s)
    (hcall : ∀ s c, P s → P (s.call c)) (calls : List Call) : P (s.after calls) := by
  induction calls generalizing s with
  | nil => exact hs
  | cons c calls ih => exact ih (hcall s c hs)

/-- Every step of a history was taken by some machine. -/
theorem takes_of_mem_steps {calls : List Call} {t : StepRecord}
    (h : t ∈ (fresh.after calls).steps) : ∃ m m' : Machine, m.Takes t m' := by
  revert t
  refine after_induction (P := fun s => ∀ {t}, t ∈ s.steps → ∃ m m' : Machine, m.Takes t m')
    (fun h => absurd h List.not_mem_nil) (fun s c ih t ht => ?_) calls
  rcases s.call_cases c with ⟨hs, -⟩ | ⟨program, -, -, hs⟩ | ⟨t', m, -, htakes, hs⟩
  · exact ih (hs ▸ ht)
  · rw [hs] at ht
    exact absurd ht List.not_mem_nil
  · rw [hs] at ht
    rcases List.mem_append.mp ht with ht | ht
    · exact ih ht
    · obtain rfl := List.mem_singleton.mp ht
      exact ⟨s.machine, m, htakes⟩

/-- **As long as no load is accepted the past only grows**, by one step for each step that is asked
for. -/
theorem exists_steps_after (s : Session) {more : List Call}
    (hload : ∀ program, .load program ∈ more → programCapacity < program.length) :
    ∃ new, (s.after more).steps = s.steps ++ new ∧ new.length = more.countP Call.isStep := by
  induction more generalizing s with
  | nil => exact ⟨[], (List.append_nil _).symm, rfl⟩
  | cons c more ih =>
    obtain ⟨new, hnew, hlength⟩ :=
      ih (s.call c) fun program h => hload program (List.mem_cons_of_mem c h)
    have hafter : (s.after (c :: more)).steps = (s.call c).steps ++ new := hnew
    rcases s.call_cases c with ⟨hs, hc⟩ | ⟨program, rfl, hle, -⟩ | ⟨t, m, hc, -, hs⟩
    · refine ⟨new, by rw [hafter, hs], ?_⟩
      rw [List.countP_cons_of_neg (by simp [hc]), hlength]
    · exact absurd hle (Nat.not_le.mpr (hload program List.mem_cons_self))
    · refine ⟨t :: new, ?_, ?_⟩
      · rw [hafter, hs, List.append_assoc, List.singleton_append]
      · rw [List.countP_cons_of_pos hc, List.length_cons, hlength]

end Session

end Machine

end Chip8
