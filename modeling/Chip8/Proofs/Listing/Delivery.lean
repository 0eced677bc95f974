import Chip8.Listing.Delivery
import Chip8.Proofs.Listing.Acceptance
import Chip8.Proofs.Listing.Offers

/-!
# What a sink receives of a listing

Whatever a sink answers, it receives a beginning of the text, in order and nothing twice. It has
received all of it exactly if it was flushed, and the delivery says so exactly if the flush went
well too.

What the sink answers is not for the delivery to choose. The answers of a delivery are those that
the sink had ready, each to the offer whose turn it is, so a sink that refuses its first offer ends
every delivery there.

The text is never put together during a delivery. It enters only through the bytes of its lines, in
`bytes_textOf`, and everything before that is about chunks of any kind.

## Main definitions

* `Listing.Delivery.IsFaithful` — what is promised of a delivery of some lines to a sink

## Main results

* `Listing.writeTo_of_takesEverything` — a sink that takes everything
* `Listing.writeTo_isFaithful` — the headline: the delivery of every listed image to every sink
  keeps the promise, for the lines and the text that the image is listed as
-/

namespace Chip8.Listing

/-! ### The text of some lines -/

theorem bytes_textOf (ls : List Line) : Text.bytes (textOf ls) = (ls.map Line.chunk).flatten := by
  induction ls with
  | nil => exact Text.bytes_empty
  | cons l ls ih =>
    have hjoin : textOf (l :: ls) = l.ended ++ textOf ls := String.join_cons
    rw [hjoin, Text.bytes_append, ih]
    rfl

theorem bytes_textOf_append (ls ls' : List Line) :
    Text.bytes (textOf (ls ++ ls')) = Text.bytes (textOf ls) ++ Text.bytes (textOf ls') := by
  rw [textOf_append, Text.bytes_append]

/-! ### Chunks and the flush behind them -/

theorem foldl_length_eq (chunks : List (List Byte)) (n : Nat) :
    chunks.foldl (fun delivered chunk => delivered + chunk.length) n =
      n + chunks.flatten.length := by
  induction chunks generalizing n with
  | nil => rfl
  | cons chunk chunks ih =>
    rw [List.foldl_cons, ih, List.flatten_cons, List.length_append, Nat.add_assoc]

section Deliver

variable {sink : Sink} {chunks : List (List Byte)} {fault : SystemFault}

theorem deliver_of_some (h : (offerChunks sink.answers chunks).fault = some fault) :
    sink.deliver chunks =
      { result := .error (.undelivered fault)
        events := (offerChunks sink.answers chunks).events } := by
  rw [Sink.deliver, h]

theorem deliver_of_none (h : (offerChunks sink.answers chunks).fault = none) :
    sink.deliver chunks =
      { result := match sink.flushFault with
          | some fault => .error (.undelivered fault)
          | none => .ok (chunks.foldl (fun delivered chunk => delivered + chunk.length) 0)
        events := (offerChunks sink.answers chunks).events ++ [.flush] } := by
  revert h
  rw [Sink.deliver]
  cases offerChunks sink.answers chunks
  rintro rfl
  rfl

theorem refusal?_deliver_of_none (h : (offerChunks sink.answers chunks).fault = none) :
    ∀ e ∈ (sink.deliver chunks).events, e.refusal? = none := by
  rw [deliver_of_none h]
  exact List.forall_mem_append.mpr
    ⟨(offerChunks_of_none h).2, List.forall_mem_singleton.mpr rfl⟩

theorem arrived_deliver_of_none (h : (offerChunks sink.answers chunks).fault = none) :
    arrived (sink.deliver chunks).events = chunks.flatten := by
  rw [deliver_of_none h, arrived_append, arrived_singleton, (offerChunks_of_none h).1]
  exact List.append_nil _

theorem flush_not_mem_offerChunks (answers : List Answer) (chunks : List (List Byte)) :
    Event.flush ∉ (offerChunks answers chunks).events := by
  intro h
  obtain ⟨bytes, answer, heq⟩ := exists_of_mem_offerChunks h
  exact nomatch heq

/-- All offers come before the flush. -/
theorem offer_of_deliver {bytes : List Byte} {answer : Answer} {before after : List Event}
    (h : (sink.deliver chunks).events = before ++ .offer bytes answer :: after) :
    ∃ after',
      (offerChunks sink.answers chunks).events = before ++ .offer bytes answer :: after' := by
  cases hfault : (offerChunks sink.answers chunks).fault with
  | some fault =>
    rw [deliver_of_some hfault] at h
    exact ⟨after, h⟩
  | none =>
    rw [deliver_of_none hfault] at h
    rcases append_eq_append_cons h with ⟨after', hoffer, -⟩ | ⟨before', -, hflush⟩
    · exact ⟨after', hoffer⟩
    · exact nomatch (eq_of_singleton_eq hflush).2.1

/-- Without a refusal there is no fault. -/
theorem fault_offerChunks_eq_none_iff :
    (offerChunks sink.answers chunks).fault = none ↔
      ∀ e ∈ (sink.deliver chunks).events, e.refusal? = none := by
  refine ⟨refusal?_deliver_of_none, fun h => ?_⟩
  cases hfault : (offerChunks sink.answers chunks).fault with
  | none => rfl
  | some fault =>
    obtain ⟨before, bytes, answer, hevents, hrefusal, -⟩ := offerChunks_of_some hfault
    rw [deliver_of_some hfault, hevents] at h
    have hnone := h (.offer bytes answer) (List.mem_append_right _ List.mem_cons_self)
    exact nomatch hrefusal.symm.trans hnone

/-- Without a refusal all bytes arrive, and only the flush can fail. -/
theorem deliver_of_unrefused (h : ∀ e ∈ (sink.deliver chunks).events, e.refusal? = none) :
    arrived (sink.deliver chunks).events = chunks.flatten ∧
      ∀ fault, sink.flushFault = some fault →
        (sink.deliver chunks).result = .error (.undelivered fault) := by
  have hfault := fault_offerChunks_eq_none_iff.mpr h
  refine ⟨arrived_deliver_of_none hfault, fun fault hflush => ?_⟩
  rw [deliver_of_none hfault, hflush]

/-- The result counts all bytes, and it is there if nothing was refused and the flush went well. -/
theorem result_deliver_eq_ok_iff (sink : Sink) (chunks : List (List Byte)) (n : Nat) :
    (sink.deliver chunks).result = .ok n ↔
      (∀ e ∈ (sink.deliver chunks).events, e.refusal? = none) ∧ sink.flushFault = none ∧
        n = chunks.flatten.length := by
  cases hfault : (offerChunks sink.answers chunks).fault with
  | some fault =>
    refine ⟨fun h => ?_, fun h => ?_⟩
    · rw [deliver_of_some hfault] at h
      exact nomatch h
    · exact nomatch hfault.symm.trans (fault_offerChunks_eq_none_iff.mpr h.1)
  | none =>
    have hno := refusal?_deliver_of_none hfault
    rw [deliver_of_none hfault] at hno ⊢
    rw [foldl_length_eq, Nat.zero_add]
    cases sink.flushFault with
    | some fault => exact ⟨nofun, fun h => nomatch h.2.1⟩
    | none => exact ⟨fun h => ⟨hno, rfl, (Except.ok.inj h).symm⟩, fun h => congrArg _ h.2.2.symm⟩

/-- Nothing is asked after a refusal, and what was wrong is the result. -/
theorem deliver_of_refusal {e : Event} {before after : List Event}
    (h : (sink.deliver chunks).events = before ++ e :: after) (hrefusal : e.refusal? = some fault) :
    after = [] ∧ (sink.deliver chunks).result = .error (.undelivered fault) := by
  cases hfault : (offerChunks sink.answers chunks).fault with
  | none =>
    have hmem : e ∈ (sink.deliver chunks).events :=
      h ▸ List.mem_append_right before List.mem_cons_self
    exact nomatch hrefusal.symm.trans (refusal?_deliver_of_none hfault e hmem)
  | some fault' =>
    obtain ⟨earlier, bytes, answer, hevents, hlast, hno⟩ := offerChunks_of_some hfault
    rw [deliver_of_some hfault] at h ⊢
    rcases append_eq_append_cons (hevents.symm.trans h) with ⟨after', rfl, -⟩ | ⟨before', -, hrest⟩
    · have hnone := hno e (List.mem_append_right before List.mem_cons_self)
      exact nomatch hrefusal.symm.trans hnone
    · obtain ⟨-, rfl, rfl⟩ := eq_of_singleton_eq hrest
      obtain rfl := Option.some.inj (hlast.symm.trans hrefusal)
      exact ⟨rfl, rfl⟩

/-- The bytes that arrive are the first ones. -/
theorem arrived_deliver_prefix (sink : Sink) (chunks : List (List Byte)) :
    arrived (sink.deliver chunks).events <+: chunks.flatten := by
  cases hfault : (offerChunks sink.answers chunks).fault with
  | some fault =>
    rw [deliver_of_some hfault]
    obtain ⟨missing, -, hmissing⟩ := arrived_offerChunks_of_some hfault
    exact ⟨missing, hmissing⟩
  | none => exact ⟨[], by rw [List.append_nil, arrived_deliver_of_none hfault]⟩

/-- The sink is flushed if everything has arrived, and then once. -/
theorem count_flush_deliver (sink : Sink) (chunks : List (List Byte)) :
    (sink.deliver chunks).events.count .flush =
      if arrived (sink.deliver chunks).events = chunks.flatten then 1 else 0 := by
  have hoffers : (offerChunks sink.answers chunks).events.count .flush = 0 :=
    List.count_eq_zero.mpr (flush_not_mem_offerChunks sink.answers chunks)
  cases hfault : (offerChunks sink.answers chunks).fault with
  | some fault =>
    obtain ⟨missing, hne, hmissing⟩ := arrived_offerChunks_of_some hfault
    rw [deliver_of_some hfault, hoffers, if_neg]
    intro harrived
    rw [← hmissing] at harrived
    exact hne (List.self_eq_append_right.mp harrived)
  | none =>
    rw [if_pos (arrived_deliver_of_none hfault), deliver_of_none hfault, List.count_append, hoffers]
    rfl

/-- The flush comes last. -/
theorem deliver_of_flush {before after : List Event}
    (h : (sink.deliver chunks).events = before ++ .flush :: after) :
    after = [] ∧ arrived before = chunks.flatten := by
  have hmem : ∀ {events after : List Event}, events = before ++ .flush :: after →
      Event.flush ∈ events := by
    rintro events after rfl
    exact List.mem_append_right before List.mem_cons_self
  cases hfault : (offerChunks sink.answers chunks).fault with
  | some fault =>
    rw [deliver_of_some hfault] at h
    exact absurd (hmem h) (flush_not_mem_offerChunks sink.answers chunks)
  | none =>
    rw [deliver_of_none hfault] at h
    rcases append_eq_append_cons h with ⟨after', hoffers, -⟩ | ⟨before', rfl, hrest⟩
    · exact absurd (hmem hoffers) (flush_not_mem_offerChunks sink.answers chunks)
    · obtain ⟨rfl, -, rfl⟩ := eq_of_singleton_eq hrest
      rw [List.append_nil]
      exact ⟨rfl, (offerChunks_of_none hfault).1⟩

/-- All bytes have arrived if the result is there. -/
theorem arrived_deliver_of_ok {n : Nat} (h : (sink.deliver chunks).result = .ok n) :
    arrived (sink.deliver chunks).events = chunks.flatten := by
  cases hfault : (offerChunks sink.answers chunks).fault with
  | some fault =>
    rw [deliver_of_some hfault] at h
    exact nomatch h
  | none => exact arrived_deliver_of_none hfault

end Deliver

/-! ### Lines -/

/-- What is promised of a delivery of some lines to a sink. -/
structure Delivery.IsFaithful (d : Delivery) (sink : Sink) (ls : List Line) : Prop where
  /-- What is offered is the rest of one line, and what has arrived before is all that stands in
  front of it. -/
  offered {before : List Event} {bytes : List Byte} {answer : Answer} {after : List Event} :
    d.events = before ++ .offer bytes answer :: after →
      ∃ passed l rest, ls = passed ++ l :: rest ∧ bytes <:+ l.chunk ∧ bytes ≠ [] ∧
        arrived before ++ bytes = Text.bytes (textOf (passed ++ [l])) ∧
        arrived before ++ bytes <+: Text.bytes (textOf ls)
  /-- What is recorded as the answer to an offer is what the sink answers to it. -/
  answered {before : List Event} {bytes : List Byte} {answer : Answer} {after : List Event} :
    d.events = before ++ .offer bytes answer :: after → answer = answerAt sink.answers before.length
  /-- It goes on until something is refused, and only the flush can fail then. -/
  unrefused : (∀ e ∈ d.events, e.refusal? = none) →
    arrived d.events = Text.bytes (textOf ls) ∧
      ∀ fault, sink.flushFault = some fault → d.result = .error (.undelivered fault)
  /-- It succeeds if nothing is refused and the flush goes well, and tells the size of the text. -/
  succeeds (n : Nat) : d.result = .ok n ↔
    (∀ e ∈ d.events, e.refusal? = none) ∧ sink.flushFault = none ∧ n = (textOf ls).utf8ByteSize
  complete {n : Nat} : d.result = .ok n → arrived d.events = Text.bytes (textOf ls)
  /-- A refusal ends it. -/
  stopped {before : List Event} {e : Event} {after : List Event} {fault : SystemFault} :
    d.events = before ++ e :: after → e.refusal? = some fault →
      after = [] ∧ d.result = .error (.undelivered fault)
  received : arrived d.events <+: Text.bytes (textOf ls)
  /-- The sink is flushed once if it has received all lines, and else never. -/
  flushed : d.events.count .flush = if arrived d.events = Text.bytes (textOf ls) then 1 else 0
  flushed_last {before after : List Event} :
    d.events = before ++ .flush :: after →
      after = [] ∧ arrived before = Text.bytes (textOf ls)

/-- A promise says nothing about the messages. -/
theorem Delivery.IsFaithful.withLog {d : Delivery} {sink : Sink} {ls : List Line}
    (h : d.IsFaithful sink ls) (log : List Log.Message) :
    ({ d with log } : Delivery).IsFaithful sink ls :=
  ⟨h.offered, h.answered, h.unrefused, h.succeeds, h.complete, h.stopped, h.received, h.flushed,
    h.flushed_last⟩

theorem deliver_isFaithful (sink : Sink) (ls : List Line) :
    (sink.deliver (ls.map Line.chunk)).IsFaithful sink ls where
  offered := by
    intro before bytes answer after h
    obtain ⟨after', hoffers⟩ := offer_of_deliver h
    obtain ⟨chunks, chunk, rest, hsplit, hbytes, hsuffix, hne⟩ := arrived_append_offerChunks hoffers
    obtain ⟨passed, tail, rfl, rfl, htail⟩ := List.map_eq_append_iff.mp hsplit
    obtain ⟨l, rest, rfl, rfl, rfl⟩ := List.map_eq_cons_iff.mp htail
    have hline : arrived before ++ bytes = Text.bytes (textOf (passed ++ [l])) := by
      rw [hbytes, bytes_textOf_append, bytes_textOf passed, bytes_textOf [l]]
      exact congrArg (_ ++ ·) (List.append_nil l.chunk).symm
    refine ⟨passed, l, rest, rfl, hsuffix, hne, hline, Text.bytes (textOf rest), ?_⟩
    rw [hline, ← bytes_textOf_append, List.append_assoc, List.singleton_append]
  answered := by
    intro before bytes answer after h
    obtain ⟨after', hoffers⟩ := offer_of_deliver h
    exact eq_answerAt_of_offerChunks hoffers
  unrefused := by
    intro h
    rw [bytes_textOf]
    exact deliver_of_unrefused h
  succeeds := by
    intro n
    rw [← Text.length_bytes, bytes_textOf]
    exact result_deliver_eq_ok_iff sink _ n
  complete := by
    intro n h
    rw [bytes_textOf]
    exact arrived_deliver_of_ok h
  stopped := deliver_of_refusal
  received := by
    rw [bytes_textOf]
    exact arrived_deliver_prefix sink _
  flushed := by
    rw [bytes_textOf]
    exact count_flush_deliver sink _
  flushed_last := by
    intro before after h
    rw [bytes_textOf]
    exact deliver_of_flush h

/-- What is delivered of a listed image is its lines. -/
theorem writeTo_of_lines {o : Options} {image : Image} {ls : List Line}
    (hls : (lines o image).value = .ok ls) (sink : Sink) :
    writeTo o image sink =
      { sink.deliver (ls.map Line.chunk) with log := (check o image).log } := by
  obtain ⟨haccepts, rfl⟩ := value_lines_eq_ok_iff.mp hls
  rw [writeTo, (value_check_eq_ok_iff o image).mpr haccepts]
  rfl

/-- **A sink that takes everything receives the whole text**, and its size is the result. -/
theorem writeTo_of_takesEverything {o : Options} {image : Image} {ls : List Line} {sink : Sink}
    (hls : (lines o image).value = .ok ls) (hsink : sink.TakesEverything) :
    (writeTo o image sink).result = .ok (textOf ls).utf8ByteSize ∧
      arrived (writeTo o image sink).events = Text.bytes (textOf ls) ∧
      (writeTo o image sink).log = (check o image).log := by
  have hfault : (offerChunks sink.answers (ls.map Line.chunk)).fault = none :=
    offerChunks_of_continues hsink.answers
  have hresult := (deliver_isFaithful sink ls).succeeds (textOf ls).utf8ByteSize
  rw [writeTo_of_lines hls sink]
  refine ⟨hresult.mpr ⟨refusal?_deliver_of_none hfault, hsink.flush, rfl⟩, ?_, rfl⟩
  rw [bytes_textOf]
  exact arrived_deliver_of_none hfault

/-- Of an image that is refused a sink is told nothing. -/
theorem writeTo_of_check {o : Options} {image : Image} {e : Error}
    (h : check o image = { value := .error e }) (sink : Sink) :
    writeTo o image sink = { result := .error e } := by
  rw [writeTo, h]

/-- **Every sink receives a listing line by line, without loss.** It may take as little as it likes,
be interrupted and refuse whenever it likes. -/
theorem writeTo_isFaithful {o : Options} {image : Image} {ls : List Line}
    (hls : (lines o image).value = .ok ls) (sink : Sink) :
    (disassemble o image).value = .ok (textOf ls) ∧
      (writeTo o image sink).IsFaithful sink ls := by
  rw [writeTo_of_lines hls sink]
  exact ⟨value_disassemble hls, (deliver_isFaithful sink ls).withLog _⟩

/-- Two lines, the first of which is taken in pieces, and a sink that is full during the second. -/
theorem writeTo_isFaithful_full :
    (lines {} [0x00, 0xE0, 0xF0, 0x00]).value =
        .ok (linesFrom .addressed programStart [0x00, 0xE0, 0xF0, 0x00]) ∧
      (disassemble {} [0x00, 0xE0, 0xF0, 0x00]).value =
        .ok (textOf (linesFrom .addressed programStart [0x00, 0xE0, 0xF0, 0x00])) ∧
      (writeTo {} [0x00, 0xE0, 0xF0, 0x00]
        { answers := [.take 3, .interrupted, .takeAll, .refuse .noSpace] }).IsFaithful
        { answers := [.take 3, .interrupted, .takeAll, .refuse .noSpace] }
        (linesFrom .addressed programStart [0x00, 0xE0, 0xF0, 0x00]) ∧
      (writeTo {} [0x00, 0xE0, 0xF0, 0x00]
        { answers := [.take 3, .interrupted, .takeAll, .refuse .noSpace] }).result =
          .error (.undelivered .noSpace) := by
  have hls : (lines {} [0x00, 0xE0, 0xF0, 0x00]).value =
      .ok (linesFrom .addressed programStart [0x00, 0xE0, 0xF0, 0x00]) := rfl
  obtain ⟨htext, hfaithful⟩ := writeTo_isFaithful hls
    { answers := [.take 3, .interrupted, .takeAll, .refuse .noSpace] }
  exact ⟨hls, htext, hfaithful, rfl⟩

end Chip8.Listing
