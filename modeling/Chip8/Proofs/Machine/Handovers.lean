import Chip8.Proofs.Machine.Counter

/-!
# What engines are handed over whole histories

An engine can refuse, and the counter has moved on by then. So after a refusal a machine stands
between two operations: one was handed over and not accepted, and the next step goes on behind it.
This file says that nothing gets lost there and nothing comes twice. Whatever the engines answered,
the operations handed over since the last accepted load are those of the words in memory from the
start of programs on, in order.

## The position of a word

Steps do not write to memory, so the words that were handed over are still where they were. That is
why the present memory can be asked for them, and no earlier one has to be remembered.

## Main definitions

* `Memory.operationAt?` — the operation of a word of the program
* `Machine.Session.IsInOrder` — what was handed over is in memory, in order, up to the counter
* `Machine.Session.KeepsOrder` — what is promised of the handovers of a history

## Main results

* `Machine.Session.IsInOrder.call`, `Machine.Session.IsInOrder.after` — one call, and a history
* `Machine.Takes.result_eq_ok_iff` — which steps succeed
* `Machine.Session.keepsOrder_after` — the headline: the promise is kept after every history
-/

namespace Chip8

/-- The operation of word `k` from the start of programs on. -/
def Memory.operationAt? (m : Memory) (k : Nat) : Option Operation :=
  (m.word? (programStart + BitVec.ofNat 16 (2 * k))).map Operation.ofWord

namespace Machine

variable {m m' : Machine} {t : StepRecord}

/-! ### One step -/

theorem Takes.handovers_of_ok (h : m.Takes t m') {w : Word} (hw : t.fetched = .ok w) :
    ∃ answer, t.handovers = [{ operation := Operation.ofWord w, answer }] := by
  cases h with
  | @served w' hfetch answer =>
    obtain rfl : w' = w := Except.ok.inj hw
    exact ⟨answer, rfl⟩
  | unserved hfetch => exact nomatch hw

theorem Takes.handovers_of_error (h : m.Takes t m') {fault : Fault}
    (hfault : t.fetched = .error fault) : t.handovers = [] := by
  cases h with
  | served hfetch answer => exact nomatch hfault
  | unserved hfetch => rfl

/-- **A step succeeds if its engine was called and did.** -/
theorem Takes.result_eq_ok_iff (h : m.Takes t m') (operation : Operation) :
    t.result = .ok operation ↔
      ∃ w, t.fetched = .ok w ∧ operation = Operation.ofWord w ∧
        t.handovers = [{ operation, answer := .ok () }] := by
  cases h with
  | @served w hfetch answer =>
    constructor
    · intro hresult
      cases answer with
      | ok u =>
        obtain rfl : Operation.ofWord w = operation := Except.ok.inj hresult
        exact ⟨w, rfl, rfl, rfl⟩
      | error fault => exact nomatch hresult
    · rintro ⟨w', hw', rfl, hhandovers⟩
      obtain rfl : w = w' := Except.ok.inj hw'
      obtain ⟨⟨-, rfl⟩, -⟩ := by simpa [StepRecord.served] using hhandovers
      rfl
  | unserved hfetch =>
    constructor
    · intro hresult
      exact nomatch hresult
    · rintro ⟨w, hw, -, -⟩
      exact nomatch hw

theorem Takes.result_of_refusal (h : m.Takes t m') {operation : Operation} {fault : Fault}
    (hrefusal : t.handovers = [{ operation, answer := .error fault }]) :
    t.result = .error fault := by
  cases h with
  | served hfetch answer =>
    obtain ⟨-, rfl⟩ := by simpa [StepRecord.served] using hrefusal
    rfl
  | unserved hfetch => exact nomatch hrefusal

/-! ### Histories -/

namespace Session

variable {s : Session}

/-- What was handed over are the words in memory from the start of programs up to the counter. -/
structure IsInOrder (s : Session) : Prop where
  handed : s.handed.map some = (List.range s.handed.length).map s.machine.memory.operationAt?
  pc_eq : s.machine.pc = programStart + BitVec.ofNat 16 (2 * s.handed.length)

theorem isInOrder_of_steps_eq_nil (hpc : s.machine.pc = programStart) (hsteps : s.steps = []) :
    s.IsInOrder := by
  have hnil : s.handed = [] := by rw [Session.handed, hsteps, List.flatMap_nil]
  refine ⟨by rw [hnil]; rfl, ?_⟩
  rw [hpc, hnil]
  rfl

theorem handed_append_served (s : Session) (m : Machine) (w : Word) (answer : Except Fault Unit) :
    handed { machine := m, steps := s.steps ++ [.served w answer] } =
      s.handed ++ [Operation.ofWord w] :=
  List.flatMap_append

theorem handed_append_unserved (s : Session) (m : Machine) (fault : Fault) :
    handed { machine := m, steps := s.steps ++ [.unserved fault] } = s.handed :=
  List.flatMap_append.trans (List.append_nil _)

/-- A step that finds a word hands over the one at the counter, and the counter moves behind it. -/
theorem isInOrder_append_served (h : s.IsInOrder) {w : Word} (hw : s.machine.fetch = .ok w)
    (answer : Except Fault Unit) :
    IsInOrder { machine := s.machine.advance, steps := s.steps ++ [.served w answer] } := by
  -- As many words lie below the counter as have been handed over, so this is the next one.
  have hword : s.machine.memory.operationAt? s.handed.length = some (Operation.ofWord w) := by
    rw [Memory.operationAt?, ← h.pc_eq, word?_of_fetch hw]
    rfl
  constructor
  · rw [handed_append_served, List.length_append, List.length_singleton, List.range_succ,
      List.map_append, List.map_append, h.handed]
    show _ = _ ++ [s.machine.memory.operationAt? s.handed.length]
    rw [hword]
    rfl
  · rw [handed_append_served, List.length_append, List.length_singleton]
    show s.machine.pc + 2 = _
    rw [h.pc_eq, Nat.mul_succ, BitVec.ofNat_add, BitVec.add_assoc]
    rfl

theorem isInOrder_append_unserved (h : s.IsInOrder) (fault : Fault) :
    IsInOrder { s with steps := s.steps ++ [.unserved fault] } := by
  constructor
  · rw [handed_append_unserved]
    exact h.handed
  · rw [handed_append_unserved]
    exact h.pc_eq

theorem IsInOrder.call (h : s.IsInOrder) (c : Call) : (s.call c).IsInOrder := by
  rcases s.call_cases c with ⟨hs, -⟩ | ⟨program, -, -, hs⟩ | ⟨t, m, -, htakes, hs⟩
  · rw [hs]
    exact h
  · rw [hs]
    exact isInOrder_of_steps_eq_nil rfl rfl
  · rw [hs]
    cases htakes with
    | served hw answer => exact isInOrder_append_served h hw answer
    | @unserved fault hfault => exact isInOrder_append_unserved h fault

/-- **No history loses an operation, repeats one or brings two out of order.** -/
theorem IsInOrder.after (h : s.IsInOrder) (calls : List Call) : (s.after calls).IsInOrder :=
  after_induction h (fun _ c hs => hs.call c) calls

/-- What is promised of the handovers of a machine with a past. -/
structure KeepsOrder (s : Session) : Prop where
  /-- What was handed over are the operations of the first words of the program, in order. -/
  handed : s.handed.map some = (List.range s.handed.length).map s.machine.memory.operationAt?
  /-- The next word to come is the one behind them. -/
  pc_eq : s.machine.pc = programStart + BitVec.ofNat 16 (2 * s.handed.length)
  /-- A step for which there is a word calls its engine once, with the operation of the word. -/
  served {t : StepRecord} {w : Word} : t ∈ s.steps → t.fetched = .ok w →
    ∃ answer, t.handovers = [{ operation := Operation.ofWord w, answer }]
  /-- Any other step calls no engine. -/
  unserved {t : StepRecord} {fault : Fault} : t ∈ s.steps → t.fetched = .error fault →
    t.handovers = []
  /-- A step succeeds if its engine did, and it returns the operation of the word. -/
  returns {t : StepRecord} (operation : Operation) : t ∈ s.steps →
    (t.result = .ok operation ↔
      ∃ w, t.fetched = .ok w ∧ operation = Operation.ofWord w ∧
        t.handovers = [{ operation, answer := .ok () }])
  /-- The fault of an engine is the fault of the step. -/
  refuses {t : StepRecord} {operation : Operation} {fault : Fault} : t ∈ s.steps →
    t.handovers = [{ operation, answer := .error fault }] → t.result = .error fault
  /-- What is noted of the next step is what happens in it, and fetching is asked just before. -/
  recorded {σ : Type} (engine : Engine σ) (state : σ) :
    (s.call (.step engine state)).machine = (step engine s.machine state).machine ∧
      ∃ t, (s.call (.step engine state)).steps = s.steps ++ [t] ∧
        t.fetched = s.machine.fetch ∧ t.result = (step engine s.machine state).result
  /-- Behind a word the next step goes on with the following one, whatever the engine said. -/
  moves_on {σ : Type} {w : Word} (engine : Engine σ) (state : σ) : s.machine.fetch = .ok w →
    (s.machine.pc + 2).toNat = s.machine.pc.toNat + 2 ∧
      (step engine s.machine state).machine = { s.machine with pc := s.machine.pc + 2 } ∧
      (step engine s.machine state).machine.fetch.toOption =
        s.machine.memory.word? (s.machine.pc + 2)

theorem steps_call_step (s : Session) {σ : Type} (engine : Engine σ) (state : σ) :
    (s.call (.step engine state)).machine = (step engine s.machine state).machine ∧
      ∃ t, (s.call (.step engine state)).steps = s.steps ++ [t] ∧
        t.fetched = s.machine.fetch ∧ t.result = (step engine s.machine state).result := by
  obtain ⟨hmachine, -, hresult, -⟩ := step_watched engine s.machine state
  exact ⟨hmachine, _, rfl, rfl, hresult⟩

/-- **The handovers of every machine that can come about keep their promise**, whatever was loaded
and whatever the engines answered. -/
theorem keepsOrder_after (calls : List Call) : (fresh.after calls).KeepsOrder := by
  have horder : (fresh.after calls).IsInOrder :=
    (isInOrder_of_steps_eq_nil rfl rfl : fresh.IsInOrder).after calls
  have hbounds := (isCounted_fresh.after calls).inBounds
  have htakes : ∀ {t}, t ∈ (fresh.after calls).steps → ∃ m m' : Machine, m.Takes t m' :=
    takes_of_mem_steps
  refine ⟨horder.handed, horder.pc_eq, ?_, ?_, ?_, ?_, steps_call_step _, ?_⟩
  · intro t w ht hw
    obtain ⟨m, m', h⟩ := htakes ht
    exact h.handovers_of_ok hw
  · intro t fault ht hfault
    obtain ⟨m, m', h⟩ := htakes ht
    exact h.handovers_of_error hfault
  · intro t operation ht
    obtain ⟨m, m', h⟩ := htakes ht
    exact h.result_eq_ok_iff operation
  · intro t operation fault ht hrefusal
    obtain ⟨m, m', h⟩ := htakes ht
    exact h.result_of_refusal hrefusal
  · intro σ w engine state hw
    rw [step_of_fetch hw engine state]
    exact ⟨hbounds.toNat_pc_add_two, rfl, toOption_fetch _⟩

end Session

end Machine

end Chip8
