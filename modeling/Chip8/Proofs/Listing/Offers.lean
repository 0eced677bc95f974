import Chip8.Listing.Sink

/-!
# What a sink is asked

A sink may take little at a time, be interrupted, and refuse at any point, so a delivery is two
loops inside each other. Each of them keeps the same promise: what has arrived, followed by what is
offered, is what was to be delivered up to the end of the present chunk. Everything else about a
delivery follows from that and from where it stops.

## Positions

An offer is looked at where it stands: `events = before ++ .offer bytes answer :: after`. The bytes
that have arrived by then are those of `before`, and there is one event in `before` for each answer
that has been given. So no state of the sink has to be named.

## Main definitions

* `Listing.answerAt` — what a sink answers to its offers
* `Listing.Event.refusal?` — what is wrong with an offer that ends the delivery
* `Listing.Sink.TakesEverything` — the sink never ends a delivery

## Main results

* `Listing.arrived_append_offerChunk`, `Listing.arrived_append_offerChunks` — the promise
* `Listing.eq_answerAt_of_offerChunks` — the answers are those of the sink
* `Listing.offerChunks_of_none` — a delivery without a fault is complete
* `Listing.offerChunks_of_some`, `Listing.arrived_offerChunks_of_some` — one with a fault ends at a
  refusal, and something is missing
* `Listing.offerChunks_of_continues` — there is no fault without an answer that refuses
-/

namespace Chip8.Listing

/-- The answer to the offer that has `i` offers before it, from a sink that gives the answers
listed. -/
def answerAt (answers : List Answer) (i : Nat) : Answer := (answers[i]?).getD .takeAll

theorem answerAt_drop (answers : List Answer) (n i : Nat) :
    answerAt (answers.drop n) i = answerAt answers (n + i) := by
  rw [answerAt, List.getElem?_drop, answerAt]

/-- What is wrong with an offer that was refused. Of such an offer nothing is taken, and it was not
interrupted either. -/
def Event.refusal? : Event → Option SystemFault
  | offer _ (.take 0) => some .nothingTaken
  | offer _ (.refuse fault) => some fault
  | _ => none

theorem Event.arrived_of_refusal? {e : Event} {fault : SystemFault} (h : e.refusal? = some fault) :
    e.arrived = [] := by
  match e, h with
  | offer bytes (.take 0), _ => rfl
  | offer bytes (.refuse fault), _ => rfl

/-- An answer that ends no delivery, whatever it is given to. -/
def Answer.Continues (answer : Answer) : Prop :=
  ∀ bytes, (Event.offer bytes answer).refusal? = none

/-- The sink never ends a delivery, though it may take little at a time. -/
structure Sink.TakesEverything (sink : Sink) : Prop where
  answers : ∀ answer ∈ sink.answers, answer.Continues
  flush : sink.flushFault = none

theorem takesEverything_empty : Sink.TakesEverything {} :=
  ⟨nofun, rfl⟩

theorem arrived_singleton (e : Event) : arrived [e] = e.arrived :=
  List.append_nil e.arrived

theorem arrived_after (events : List Event) (a : Attempt) :
    arrived (a.after events).events = arrived events ++ arrived a.events :=
  arrived_append events a.events

/-- A list of one entry has one place. -/
theorem eq_of_singleton_eq {α : Type} {a b : α} {before after : List α}
    (h : [a] = before ++ b :: after) : before = [] ∧ a = b ∧ after = [] := by
  cases before with
  | nil =>
    obtain ⟨rfl, hafter⟩ : a = b ∧ [] = after := List.cons.inj h
    exact ⟨rfl, rfl, hafter.symm⟩
  | cons c before => simp at h

theorem offer_of_singleton_eq {chunk bytes : List Byte} {given answer : Answer}
    {before after : List Event}
    (h : [Event.offer chunk given] = before ++ .offer bytes answer :: after) :
    before = [] ∧ bytes = chunk ∧ answer = given := by
  obtain ⟨hbefore, heq, -⟩ := eq_of_singleton_eq h
  obtain ⟨hchunk, hgiven⟩ := Event.offer.inj heq
  exact ⟨hbefore, hchunk.symm, hgiven.symm⟩

/-- A place in a list that was joined from two is a place in one of them. -/
theorem append_eq_append_cons {α : Type} {xs ys before after : List α} {a : α}
    (h : xs ++ ys = before ++ a :: after) :
    (∃ after', xs = before ++ a :: after' ∧ after = after' ++ ys) ∨
      ∃ before', before = xs ++ before' ∧ ys = before' ++ a :: after := by
  rcases List.append_eq_append_iff.mp h with ⟨before', hbefore, hys⟩ | ⟨middle, hxs, hafter⟩
  · exact .inr ⟨before', hbefore, hys⟩
  · cases middle with
    | nil => exact .inr ⟨[], by simpa using hxs.symm, by simpa using hafter.symm⟩
    | cons b middle =>
      obtain ⟨rfl, rfl⟩ : a = b ∧ after = middle ++ ys := List.cons.inj hafter
      exact .inl ⟨middle, hxs, rfl⟩

/-! ### One chunk -/

/-- **Every offer of a chunk is what is left of it.** -/
theorem arrived_append_offerChunk {answers : List Answer} {chunk bytes : List Byte}
    {before after : List Event} {answer : Answer}
    (h : (offerChunk answers chunk).events = before ++ .offer bytes answer :: after) :
    arrived before ++ bytes = chunk ∧ bytes ≠ [] := by
  fun_induction offerChunk answers chunk generalizing before with
  | case1 answers => simp at h
  | case2 chunk hne | case3 answers chunk hne | case4 answers chunk hne
  | case7 fault answers chunk hne =>
    -- Nothing has arrived at the first offer, and it is of the whole chunk.
    obtain ⟨rfl, rfl, -⟩ := offer_of_singleton_eq h
    exact ⟨rfl, hne⟩
  | case5 n answers chunk hne ih =>
    rcases append_eq_append_cons h with ⟨after', hfirst, -⟩ | ⟨before', rfl, hrest⟩
    · obtain ⟨rfl, rfl, -⟩ := offer_of_singleton_eq hfirst
      exact ⟨rfl, hne⟩
    · obtain ⟨hbytes, hne⟩ := ih hrest
      refine ⟨?_, hne⟩
      rw [arrived_append, arrived_singleton, List.append_assoc, hbytes]
      exact List.take_append_drop (n + 1) chunk
  | case6 answers chunk hne ih =>
    rcases append_eq_append_cons h with ⟨after', hfirst, -⟩ | ⟨before', rfl, hrest⟩
    · obtain ⟨rfl, rfl, -⟩ := offer_of_singleton_eq hfirst
      exact ⟨rfl, hne⟩
    · -- An interrupted offer leaves the same chunk to be offered.
      rw [arrived_append, arrived_singleton]
      exact ih hrest

/-- Only offers are made of a chunk. -/
theorem exists_of_mem_offerChunk {answers : List Answer} {chunk : List Byte} {e : Event}
    (h : e ∈ (offerChunk answers chunk).events) : ∃ bytes answer, e = .offer bytes answer := by
  fun_induction offerChunk answers chunk with
  | case1 answers => exact absurd h List.not_mem_nil
  | case2 chunk | case3 answers chunk | case4 answers chunk | case7 fault answers chunk =>
    exact ⟨chunk, _, List.mem_singleton.mp h⟩
  | case5 n answers chunk hne ih | case6 answers chunk hne ih =>
    rcases List.mem_append.mp h with h | h
    · exact ⟨chunk, _, List.mem_singleton.mp h⟩
    · exact ih h

/-- Each offer of a chunk uses up one answer. -/
theorem answers_offerChunk (answers : List Answer) (chunk : List Byte) :
    (offerChunk answers chunk).answers =
      answers.drop (offerChunk answers chunk).events.length := by
  fun_induction offerChunk answers chunk with
  | case1 answers | case2 chunk | case3 answers chunk | case4 answers chunk
  | case7 fault answers chunk => rfl
  | case5 n answers chunk hne ih | case6 answers chunk hne ih => exact ih

/-- **What is recorded as an answer is the one that the sink had ready.** -/
theorem eq_answerAt_of_offerChunk {answers : List Answer} {chunk bytes : List Byte}
    {before after : List Event} {answer : Answer}
    (h : (offerChunk answers chunk).events = before ++ .offer bytes answer :: after) :
    answer = answerAt answers before.length := by
  fun_induction offerChunk answers chunk generalizing before with
  | case1 answers => simp at h
  | case2 chunk hne | case3 answers chunk hne | case4 answers chunk hne
  | case7 fault answers chunk hne =>
    obtain ⟨rfl, -, rfl⟩ := offer_of_singleton_eq h
    rfl
  | case5 n answers chunk hne ih | case6 answers chunk hne ih =>
    rcases append_eq_append_cons h with ⟨after', hfirst, -⟩ | ⟨before', rfl, hrest⟩
    · obtain ⟨rfl, -, rfl⟩ := offer_of_singleton_eq hfirst
      rfl
    · exact ih hrest

/-- A chunk without a fault has arrived, and none of its offers was refused. -/
theorem offerChunk_of_none {answers : List Answer} {chunk : List Byte}
    (h : (offerChunk answers chunk).fault = none) :
    arrived (offerChunk answers chunk).events = chunk ∧
      ∀ e ∈ (offerChunk answers chunk).events, e.refusal? = none := by
  fun_induction offerChunk answers chunk with
  | case1 answers => exact ⟨rfl, nofun⟩
  | case2 chunk | case3 answers chunk =>
    exact ⟨arrived_singleton _, fun e he => List.mem_singleton.mp he ▸ rfl⟩
  | case4 answers chunk hne => exact nomatch h
  | case5 n answers chunk hne ih =>
    obtain ⟨hrest, hno⟩ := ih h
    refine ⟨?_, List.forall_mem_cons.mpr ⟨rfl, hno⟩⟩
    rw [arrived_after, arrived_singleton, hrest]
    exact List.take_append_drop (n + 1) chunk
  | case6 answers chunk hne ih =>
    obtain ⟨hrest, hno⟩ := ih h
    exact ⟨hrest, List.forall_mem_cons.mpr ⟨rfl, hno⟩⟩
  | case7 fault answers chunk hne => exact nomatch h

/-- A fault comes from the last offer, the only one that was refused. -/
theorem offerChunk_of_some {answers : List Answer} {chunk : List Byte} {fault : SystemFault}
    (h : (offerChunk answers chunk).fault = some fault) :
    ∃ before bytes answer,
      (offerChunk answers chunk).events = before ++ [.offer bytes answer] ∧
        (Event.offer bytes answer).refusal? = some fault ∧ ∀ e ∈ before, e.refusal? = none := by
  fun_induction offerChunk answers chunk with
  | case1 answers => exact nomatch h
  | case2 chunk hne => exact nomatch h
  | case3 answers chunk hne => exact nomatch h
  | case4 answers chunk hne => exact ⟨[], chunk, .take 0, rfl, h, nofun⟩
  | case5 n answers chunk hne ih | case6 answers chunk hne ih =>
    obtain ⟨before, bytes, answer, hevents, hrefusal, hno⟩ := ih h
    refine ⟨_ :: before, bytes, answer, congrArg (_ :: ·) hevents, hrefusal, ?_⟩
    exact List.forall_mem_cons.mpr ⟨rfl, hno⟩
  | case7 given answers chunk hne => exact ⟨[], chunk, .refuse given, rfl, h, nofun⟩

/-- A chunk is delivered without a fault if no answer refuses it, and the answers that are left are
as good. -/
theorem offerChunk_of_continues {answers : List Answer} {chunk : List Byte}
    (h : ∀ answer ∈ answers, answer.Continues) :
    (offerChunk answers chunk).fault = none ∧
      ∀ answer ∈ (offerChunk answers chunk).answers, answer.Continues := by
  fun_induction offerChunk answers chunk with
  | case1 answers => exact ⟨rfl, h⟩
  | case2 chunk hne => exact ⟨rfl, h⟩
  | case3 answers chunk hne => exact ⟨rfl, (List.forall_mem_cons.mp h).2⟩
  | case4 answers chunk hne | case7 fault answers chunk hne =>
    exact nomatch (List.forall_mem_cons.mp h).1 chunk
  | case5 n answers chunk hne ih | case6 answers chunk hne ih =>
    exact ih (List.forall_mem_cons.mp h).2

/-! ### All chunks -/

section Chunks

variable {answers : List Answer} {chunks : List (List Byte)}

/-- **Every offer completes what is to be delivered up to the end of its chunk.** What has arrived
before is all earlier chunks and the part of this one that is no longer offered. -/
theorem arrived_append_offerChunks {bytes : List Byte} {before after : List Event}
    {answer : Answer}
    (h : (offerChunks answers chunks).events = before ++ .offer bytes answer :: after) :
    ∃ passed chunk rest, chunks = passed ++ chunk :: rest ∧
      arrived before ++ bytes = passed.flatten ++ chunk ∧ bytes <:+ chunk ∧ bytes ≠ [] := by
  have head : ∀ {answers chunk chunks before after},
      (offerChunk answers chunk).events = before ++ .offer bytes answer :: after →
        ∃ passed chunk' rest, chunk :: chunks = passed ++ chunk' :: rest ∧
          arrived before ++ bytes = passed.flatten ++ chunk' ∧ bytes <:+ chunk' ∧ bytes ≠ [] := by
    intro answers chunk chunks before after h
    obtain ⟨hbytes, hne⟩ := arrived_append_offerChunk h
    exact ⟨[], chunk, chunks, rfl, hbytes, ⟨arrived before, hbytes⟩, hne⟩
  fun_induction offerChunks answers chunks generalizing before with
  | case1 answers => simp at h
  | case2 answers chunk chunks first fault => exact head h
  | case3 answers chunk chunks first hfault =>
    rename_i ih
    rcases append_eq_append_cons h with ⟨after', hfirst, -⟩ | ⟨before', rfl, hrest⟩
    · exact head hfirst
    · -- All of the first chunk has arrived by then.
      obtain ⟨passed, chunk', rest, rfl, hbytes, hsuffix, hne⟩ := ih hrest
      refine ⟨chunk :: passed, chunk', rest, rfl, ?_, hsuffix, hne⟩
      rw [arrived_append, (offerChunk_of_none hfault).1, List.append_assoc, hbytes,
        List.flatten_cons, List.append_assoc]

/-- **The answers recorded are those of the sink, in order.** -/
theorem eq_answerAt_of_offerChunks {bytes : List Byte} {before after : List Event}
    {answer : Answer}
    (h : (offerChunks answers chunks).events = before ++ .offer bytes answer :: after) :
    answer = answerAt answers before.length := by
  fun_induction offerChunks answers chunks generalizing before with
  | case1 answers => simp at h
  | case2 answers chunk chunks first fault => exact eq_answerAt_of_offerChunk h
  | case3 answers chunk chunks first hfault =>
    rename_i ih
    rcases append_eq_append_cons h with ⟨after', hfirst, -⟩ | ⟨before', rfl, hrest⟩
    · exact eq_answerAt_of_offerChunk hfirst
    · -- The answers left for the other chunks are those behind the first one's.
      rw [ih hrest, answers_offerChunk, answerAt_drop, List.length_append]

theorem exists_of_mem_offerChunks {e : Event} (h : e ∈ (offerChunks answers chunks).events) :
    ∃ bytes answer, e = .offer bytes answer := by
  fun_induction offerChunks answers chunks with
  | case1 answers => exact absurd h List.not_mem_nil
  | case2 answers chunk chunks first fault hfault => exact exists_of_mem_offerChunk h
  | case3 answers chunk chunks first hfault ih =>
    rcases List.mem_append.mp h with h | h
    · exact exists_of_mem_offerChunk h
    · exact ih h

/-- **Without a fault all chunks have arrived**, and no offer was refused. -/
theorem offerChunks_of_none (h : (offerChunks answers chunks).fault = none) :
    arrived (offerChunks answers chunks).events = chunks.flatten ∧
      ∀ e ∈ (offerChunks answers chunks).events, e.refusal? = none := by
  fun_induction offerChunks answers chunks with
  | case1 answers => exact ⟨rfl, nofun⟩
  | case2 answers chunk chunks first fault hfault => exact nomatch hfault.symm.trans h
  | case3 answers chunk chunks first hfault ih =>
    obtain ⟨hfirst, hno⟩ := offerChunk_of_none hfault
    obtain ⟨hrest, hno'⟩ := ih h
    refine ⟨?_, List.forall_mem_append.mpr ⟨hno, hno'⟩⟩
    rw [arrived_after, hfirst, hrest, List.flatten_cons]

/-- **A fault comes from the last offer**, the only one that was refused. -/
theorem offerChunks_of_some {fault : SystemFault}
    (h : (offerChunks answers chunks).fault = some fault) :
    ∃ before bytes answer,
      (offerChunks answers chunks).events = before ++ [.offer bytes answer] ∧
        (Event.offer bytes answer).refusal? = some fault ∧ ∀ e ∈ before, e.refusal? = none := by
  fun_induction offerChunks answers chunks with
  | case1 answers => exact nomatch h
  | case2 answers chunk chunks first given hfault => exact offerChunk_of_some h
  | case3 answers chunk chunks first hfault ih =>
    obtain ⟨before, bytes, answer, hevents, hrefusal, hno⟩ := ih h
    refine ⟨first.events ++ before, bytes, answer, ?_, hrefusal, ?_⟩
    · show first.events ++ (offerChunks first.answers chunks).events = _
      rw [hevents, List.append_assoc]
    · exact List.forall_mem_append.mpr ⟨(offerChunk_of_none hfault).2, hno⟩

theorem offerChunks_of_continues (h : ∀ answer ∈ answers, answer.Continues) :
    (offerChunks answers chunks).fault = none := by
  fun_induction offerChunks answers chunks with
  | case1 answers => rfl
  | case2 answers chunk chunks first fault hfault =>
    exact nomatch hfault.symm.trans (offerChunk_of_continues h).1
  | case3 answers chunk chunks first hfault ih => exact ih (offerChunk_of_continues h).2

/-- **After a fault something is missing**: at least the bytes of the offer that was refused. -/
theorem arrived_offerChunks_of_some {fault : SystemFault}
    (h : (offerChunks answers chunks).fault = some fault) :
    ∃ missing, missing ≠ [] ∧
      arrived (offerChunks answers chunks).events ++ missing = chunks.flatten := by
  obtain ⟨before, bytes, answer, hevents, hrefusal, -⟩ := offerChunks_of_some h
  obtain ⟨passed, chunk, rest, rfl, hbytes, -, hne⟩ := arrived_append_offerChunks hevents
  refine ⟨bytes ++ rest.flatten, fun hnil => hne (List.append_eq_nil_iff.mp hnil).1, ?_⟩
  rw [hevents, arrived_append, arrived_singleton, Event.arrived_of_refusal? hrefusal,
    List.append_nil, ← List.append_assoc, hbytes, List.flatten_append, List.flatten_cons,
    List.append_assoc]

end Chunks

end Chip8.Listing
