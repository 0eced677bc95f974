import Chip8.Proofs.Hex
import Chip8.Proofs.Instruction.Canonical
import Chip8.Proofs.Machine.Sequencing
import Chip8.Proofs.Machine.Session

/-!
# What a tracing machine reports

A tracing engine says one thing for each operation that it is handed: a word, and what the word
stands for. But an engine is handed an operation and not the word it was fetched as. The word it
names is the one that the instruction is written as, and by `Word.rewritten_ne_iff` this is another
word if an alias was fetched, and only then. So a report of an alias does not name what lies in
memory, and all other reports do.

## One report for two words

`Word.report` is the report that names a given word. What is said of a step that fetched `w` is
`w.rewritten.report`, since `w` and `w.rewritten` are one operation. Reports differ as soon as their
words do, and so nothing more has to be known about their texts.

## Main definitions

* `Word.report` — the report that names a word
* `Log.column` — the words that are named by some reports, as they are written
* `Memory.wordsFrom` — the words from an address on
* `Machine.ReportsFetched` — every report names the word that was fetched
* `Machine.ReportsRewritten` — what is promised of all reports

## Main results

* `Log.Message.text_traced_ofWord`, `Word.report_rewritten_eq_iff` — one report
* `Machine.run_tracing` — a run of any length, in terms of the words that lie ahead
* `Machine.exists_report_of_result_ok`, `Machine.column_run_tracing_eq_iff` — what is said of a step
  and of a run, and when it is right
* `Machine.reportsRewritten` — the headline: the promise is kept
* `Machine.not_reportsFetched_of_alias` — a program whose report names another word
-/

namespace Chip8

open Hex (digits)

/-! ### Reports -/

namespace Word

/-- The report that names a word and says what it stands for. -/
def report (w : Word) : String := Hex.text .upper 4 w.toNat ++ " " ++ (Operation.ofWord w).text

theorem toList_report (w : Word) :
    w.report.toList = digits .upper 4 w.toNat ++ ' ' :: (Operation.ofWord w).text.toList := by
  rw [report, String.toList_append, String.toList_append, Hex.toList_text, List.append_assoc]
  rfl

theorem take_toList_report (w : Word) : w.report.toList.take 4 = digits .upper 4 w.toNat := by
  rw [toList_report]
  exact List.take_left' (Hex.length_digits ..)

/-- Four digits are enough for a word. -/
theorem digits_injective : Function.Injective fun w : Word => digits .upper 4 w.toNat := by
  have hread : ∀ w : Word, Command.readNumber 16 (digits .upper 4 w.toNat) = .ok w.toNat :=
    fun w => Command.readNumber_digits .upper (by decide) w.isLt w.isLt
  intro w w' h
  have hnumber := congrArg (Command.readNumber 16) h
  rw [hread, hread] at hnumber
  exact BitVec.eq_of_toNat_eq (Except.ok.inj hnumber)

theorem report_injective : Function.Injective report := by
  intro w w' h
  have hdigits : digits .upper 4 w.toNat = digits .upper 4 w'.toNat := by
    rw [← take_toList_report, h, take_toList_report]
  exact digits_injective hdigits

/-- Writing a word again keeps its operation. -/
theorem ofWord_rewritten (w : Word) : Operation.ofWord w.rewritten = Operation.ofWord w := by
  rw [Operation.ofWord, decode?_rewritten]
  cases h : Instruction.decode? w with
  | some i => rw [Operation.ofWord_of_decode? h]
  | none => rw [Operation.ofWord_of_decode?_none h, rewritten_of_decode?_none h]

theorem rewritten_eq_iff (w : Word) : w.rewritten = w ↔ ¬ w.IsAlias :=
  ⟨fun h halias => (rewritten_ne_iff w).mpr halias h,
    fun h => Decidable.byContradiction fun hne => h ((rewritten_ne_iff w).mp hne)⟩

theorem report_rewritten_eq_iff (w : Word) : w.rewritten.report = w.report ↔ ¬ w.IsAlias := by
  rw [report_injective.eq_iff, rewritten_eq_iff]

end Word

namespace Log

/-- **What is said of a word that was fetched** is the report of the word that it is written as. -/
theorem Message.text_traced_ofWord (w : Word) :
    (Message.traced (Operation.ofWord w)).text = w.rewritten.report := by
  rw [Word.report, Word.ofWord_rewritten]
  rfl

/-- The words that are named by some reports, each as it is written. -/
def column (log : List Message) : List (List Char) :=
  log.map fun report => report.text.toList.take 4

theorem column_traced (ws : List Word) :
    column (ws.map fun w => .traced (Operation.ofWord w)) =
      ws.map fun w => digits .upper 4 w.rewritten.toNat := by
  rw [column, List.map_map]
  refine List.map_congr_left fun w _ => ?_
  rw [Function.comp_apply, Message.text_traced_ofWord, Word.take_toList_report]

/-- A column names the words that were fetched if none of them is an alias. -/
theorem column_traced_eq_iff (ws : List Word) :
    (column (ws.map fun w => .traced (Operation.ofWord w)) =
      ws.map fun w => digits .upper 4 w.toNat) ↔ ∀ w ∈ ws, ¬ w.IsAlias := by
  rw [column_traced, List.map_inj_left]
  exact forall₂_congr fun w _ => Word.digits_injective.eq_iff.trans w.rewritten_eq_iff

end Log

/-! ### Steps and runs -/

/-- The words at an address and behind it, `k` of them or as many as lie in memory. -/
def Memory.wordsFrom (m : Memory) : Nat → Address → List Word
  | 0, _ => []
  | k + 1, a =>
    match m.word? a with
    | none => []
    | some w => w :: m.wordsFrom k (a + 2)

namespace Machine

variable {m : Machine}

/-- **A tracing run goes through the words that lie ahead**, until it has done what it was asked to
or comes to the end of memory. It returns and reports the operation of each word. -/
theorem run_tracing (count : Nat) (m : Machine) (t : Trace) :
    (run .tracing count m t).operations =
        (m.memory.wordsFrom count m.pc).map Operation.ofWord ∧
      (run .tracing count m t).log =
        (m.memory.wordsFrom count m.pc).map (fun w => .traced (Operation.ofWord w)) ∧
      ((run .tracing count m t).fault = none ↔ (m.memory.wordsFrom count m.pc).length = count) := by
  induction count generalizing m t with
  | zero => exact ⟨rfl, rfl, iff_of_true rfl rfl⟩
  | succ count ih =>
    have hword := toOption_fetch m
    cases hfetch : m.fetch with
    | error fault =>
      rw [hfetch] at hword
      have hstep := step_of_fetch_error hfetch .tracing t
      have hnone : m.memory.wordsFrom (count + 1) m.pc = [] := by
        rw [Memory.wordsFrom, ← hword]
        rfl
      rw [run_of_step_error (congrArg Step.result hstep), hnone, hstep]
      exact ⟨rfl, rfl, iff_of_false (nomatch ·) (Nat.succ_ne_zero count).symm⟩
    | ok w =>
      rw [hfetch] at hword
      have hstep := step_tracing_of_fetch hfetch t
      have hsome : m.memory.wordsFrom (count + 1) m.pc =
          w :: m.advance.memory.wordsFrom count m.advance.pc := by
        rw [Memory.wordsFrom, ← hword]
        rfl
      obtain ⟨hoperations, hlog, hfault⟩ := ih m.advance (t.push (Operation.ofWord w))
      rw [run_succ_of_step_ok (congrArg Step.result hstep), hsome, hstep]
      refine ⟨congrArg (_ :: ·) hoperations, congrArg (_ :: ·) hlog, ?_⟩
      rw [List.length_cons, Nat.add_right_cancel_iff]
      exact hfault

theorem mem_wordsFrom_one {w : Word} (h : m.fetch = .ok w) : w ∈ m.memory.wordsFrom 1 m.pc := by
  rw [Memory.wordsFrom, word?_of_fetch h]
  exact List.mem_singleton_self w

/-- A step that succeeds has said one thing, of the word that it is written as. -/
theorem exists_report_of_result_ok {t : Trace} {operation : Operation}
    (h : (step .tracing m t).result = .ok operation) :
    ∃ w report, m.fetch = .ok w ∧ (step .tracing m t).log = [report] ∧ report.level = .trace ∧
      report.text = w.rewritten.report ∧ (report.text = w.report ↔ ¬ w.IsAlias) := by
  cases hfetch : m.fetch with
  | error fault =>
    rw [step_of_fetch_error hfetch] at h
    exact nomatch h
  | ok w =>
    refine ⟨w, .traced (Operation.ofWord w), rfl, ?_, rfl, Log.Message.text_traced_ofWord w, ?_⟩
    · rw [step_tracing_of_fetch hfetch]
    · rw [Log.Message.text_traced_ofWord]
      exact w.report_rewritten_eq_iff

theorem column_run_tracing_eq_iff (count : Nat) (m : Machine) (t : Trace) :
    (Log.column (run .tracing count m t).log =
      (m.memory.wordsFrom count m.pc).map fun w => digits .upper 4 w.toNat) ↔
        ∀ w ∈ m.memory.wordsFrom count m.pc, ¬ w.IsAlias := by
  obtain ⟨-, hlog, -⟩ := run_tracing count m t
  rw [hlog]
  exact Log.column_traced_eq_iff _

/-- Every report names the word that was fetched: that of one step, and those of a run. -/
structure ReportsFetched (m : Machine) (t : Trace) : Prop where
  of_step {operation : Operation} : (step .tracing m t).result = .ok operation →
    ∃ w report, m.fetch = .ok w ∧ (step .tracing m t).log = [report] ∧ report.level = .trace ∧
      report.text = w.report
  of_run (count : Nat) : Log.column (run .tracing count m t).log =
    (m.memory.wordsFrom count m.pc).map fun w => digits .upper 4 w.toNat

/-- What is promised of the reports of a tracing machine. -/
structure ReportsRewritten (m : Machine) (t : Trace) : Prop where
  /-- A step that succeeds reports the word that its instruction is written as, once. This is the
  word that was fetched if that is no alias. -/
  of_step {operation : Operation} : (step .tracing m t).result = .ok operation →
    ∃ w report, m.fetch = .ok w ∧ (step .tracing m t).log = [report] ∧ report.level = .trace ∧
      report.text = w.rewritten.report ∧ (report.text = w.report ↔ ¬ w.IsAlias)
  /-- A run reports the words ahead in this way, one after the other. -/
  of_run (count : Nat) : (run .tracing count m t).log.map Log.Message.text =
    (m.memory.wordsFrom count m.pc).map fun w => w.rewritten.report
  /-- The words that it names are those ahead if none of them is an alias. -/
  column_eq_iff (count : Nat) :
    (Log.column (run .tracing count m t).log =
      (m.memory.wordsFrom count m.pc).map fun w => digits .upper 4 w.toNat) ↔
        ∀ w ∈ m.memory.wordsFrom count m.pc, ¬ w.IsAlias
  /-- So all reports are right on a machine that has no alias ahead, and on no other. -/
  reportsFetched_iff :
    m.ReportsFetched t ↔ ∀ count, ∀ w ∈ m.memory.wordsFrom count m.pc, ¬ w.IsAlias

/-- **A tracing machine reports what its instructions are written as.** -/
theorem reportsRewritten (m : Machine) (t : Trace) : m.ReportsRewritten t where
  of_step := exists_report_of_result_ok
  of_run count := by
    obtain ⟨-, hlog, -⟩ := run_tracing count m t
    rw [hlog, List.map_map]
    exact List.map_congr_left fun w _ => Log.Message.text_traced_ofWord w
  column_eq_iff count := column_run_tracing_eq_iff count m t
  reportsFetched_iff := by
    constructor
    · intro h count
      exact (column_run_tracing_eq_iff count m t).mp (h.of_run count)
    · intro hnone
      refine ⟨fun hresult => ?_, fun count => ?_⟩
      · obtain ⟨w, report, hw, hlog, hlevel, -, htext⟩ := exists_report_of_result_ok hresult
        exact ⟨w, report, hw, hlog, hlevel, htext.mpr (hnone 1 w (mem_wordsFrom_one hw))⟩
      · exact (column_run_tracing_eq_iff count m t).mpr (hnone count)

/-- After a load of an alias the report names another word. -/
theorem not_reportsFetched_of_alias :
    (Session.fresh.after [.load [0x01, 0xE0]]).machine.fetch = .ok 0x01E0 ∧
      (step .tracing (Session.fresh.after [.load [0x01, 0xE0]]).machine {}).log.map
          Log.Message.text = ["00E0 CLS       "] ∧
      ¬ (Session.fresh.after [.load [0x01, 0xE0]]).machine.ReportsFetched {} := by
  have hmachine : (Session.fresh.after [.load [0x01, 0xE0]]).machine =
      fresh.loaded [0x01, 0xE0] := rfl
  have hfetch : (fresh.loaded [0x01, 0xE0]).fetch = .ok 0x01E0 :=
    fetch_of_holds (holds_loaded fresh (by decide))
  have halias : Word.IsAlias 0x01E0 := ⟨rfl, rfl, by decide⟩
  have hstep := step_tracing_of_fetch hfetch {}
  rw [hmachine]
  refine ⟨hfetch, ?_, fun h => ?_⟩
  · rw [hstep]
    decide
  · obtain ⟨w, report, hw, hlog, -, htext⟩ := h.of_step (congrArg Step.result hstep)
    obtain rfl : 0x01E0 = w := Except.ok.inj (hfetch.symm.trans hw)
    rw [hstep] at hlog
    obtain rfl := (List.cons.inj hlog).1
    rw [Log.Message.text_traced_ofWord] at htext
    exact (Word.report_rewritten_eq_iff _).mp htext halias

end Machine

end Chip8
