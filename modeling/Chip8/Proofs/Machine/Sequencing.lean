import Chip8.Machine.Run

/-!
# Runs in parts

A run is its first step and the run of what that leaves, and so a run that has not failed can be
gone on with. Nothing here depends on what is stepped through, or on the engine.

## Main definitions

* `Machine.Run.prepend` — a run behind another one that did not fail

## Main results

* `Machine.run_succ_of_step_ok`, `Machine.run_of_step_error` — the first step of a run
* `Machine.run_add` — a run in two parts
-/

namespace Chip8.Machine

variable {σ : Type}

/-- The run `r` behind another one that has accepted `operations` and said `log`. -/
def Run.prepend (r : Run σ) (operations : List Operation) (log : List Log.Message) : Run σ :=
  { r with operations := operations ++ r.operations, log := log ++ r.log }

theorem Run.prepend_prepend (r : Run σ) (operations operations' : List Operation)
    (log log' : List Log.Message) :
    (r.prepend operations' log').prepend operations log =
      r.prepend (operations ++ operations') (log ++ log') := by
  simp only [prepend, List.append_assoc]

theorem run_succ_of_step_ok {e : Engine σ} {m : Machine} {state : σ} {operation : Operation}
    (h : (step e m state).result = .ok operation) (count : Nat) :
    run e (count + 1) m state =
      (run e count (step e m state).machine (step e m state).state).prepend [operation]
        (step e m state).log := by
  rw [run]
  simp only [h]
  rfl

/-- **A run whose first step fails** is that step. -/
theorem run_of_step_error {e : Engine σ} {m : Machine} {state : σ} {fault : Fault}
    (h : (step e m state).result = .error fault) (count : Nat) :
    run e (count + 1) m state =
      { machine := (step e m state).machine
        state := (step e m state).state
        operations := []
        fault := some fault
        log := (step e m state).log } := by
  rw [run]
  simp only [h]

/-- **A run in two parts**, if the first one does not fail. -/
theorem run_add (e : Engine σ) (k count : Nat) {m : Machine} {state : σ}
    (h : (run e k m state).fault = none) :
    run e (k + count) m state =
      (run e count (run e k m state).machine (run e k m state).state).prepend
        (run e k m state).operations (run e k m state).log := by
  induction k generalizing m state with
  | zero =>
    rw [Nat.zero_add]
    rfl
  | succ k ih =>
    cases hstep : (step e m state).result with
    | error fault =>
      rw [run_of_step_error hstep] at h
      exact nomatch h
    | ok operation =>
      rw [run_succ_of_step_ok hstep] at h
      rw [Nat.add_right_comm, run_succ_of_step_ok hstep, ih h, Run.prepend_prepend,
        run_succ_of_step_ok hstep]
      rfl

end Chip8.Machine
