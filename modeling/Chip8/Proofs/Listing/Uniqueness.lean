import Chip8.Proofs.Listing.Delivery

/-!
# Two deliveries of the same lines

What is promised of a delivery is a list of single demands, and such a list may have a gap. It has
none: two deliveries of the same lines to the same sink that both keep the promise have asked the
same, have been answered the same, and end with the same result. So nothing that is not said there
can make a difference to a sink.

## Place by place

Two lists of events are compared where they might differ first. In front of that place they agree,
so the same bytes have arrived.

* If one of them flushes there then everything has arrived, and the other has nothing to offer.
* If both make an offer then each offer ends with a line. Neither can end with an earlier line than
  the other, since the later line would then begin behind the bytes that are offered.
* Neither can be at its end, since a delivery ends with a refusal or with the flush, and nothing
  comes after those in the other one, either.

## Main results

* `Listing.length_le_of_offers` — where an offer ends
* `Listing.Delivery.IsFaithful.exists_last` — how a delivery ends
* `Listing.Delivery.IsFaithful.unique` — the headline: there is one delivery that keeps the promise
-/

namespace Chip8.Listing

/-- Lists are equal if they never differ at a place and neither ends where the other goes on. -/
theorem eq_of_forall_split {α : Type} {xs ys : List α}
    (hagree : ∀ before {a b after after'}, xs = before ++ a :: after → ys = before ++ b :: after' →
      a = b)
    (hleft : ∀ {a after}, xs ≠ ys ++ a :: after) (hright : ∀ {a after}, ys ≠ xs ++ a :: after) :
    xs = ys := by
  induction xs generalizing ys with
  | nil =>
    cases ys with
    | nil => rfl
    | cons b ys => exact absurd rfl hright
  | cons a xs ih =>
    cases ys with
    | nil => exact absurd rfl hleft
    | cons b ys =>
      obtain rfl : a = b := hagree [] rfl rfl
      have htail : xs = ys := ih
        (fun before _ _ _ _ hxs hys =>
          hagree (a :: before) (congrArg (a :: ·) hxs) (congrArg (a :: ·) hys))
        (fun hxs => hleft (congrArg (a :: ·) hxs)) (fun hys => hright (congrArg (a :: ·) hys))
      rw [htail]

theorem length_bytes_textOf_le {ls ls' : List Line} (h : ls <+: ls') :
    (Text.bytes (textOf ls)).length ≤ (Text.bytes (textOf ls')).length := by
  obtain ⟨rest, rfl⟩ := h
  rw [bytes_textOf_append, List.length_append]
  exact Nat.le_add_right _ _

/-- Two offers begin at the same byte and go up to the end of a line each. Then the second one is no
longer than the first, for its line does not begin behind that byte. -/
theorem length_le_of_offers {ls passed passed' rest rest' : List Line} {l l' : Line} {n : Nat}
    {bytes bytes' : List Byte} (hls : ls = passed ++ l :: rest) (hls' : ls = passed' ++ l' :: rest')
    (hend : n + bytes.length = (Text.bytes (textOf (passed ++ [l]))).length)
    (hend' : n + bytes'.length = (Text.bytes (textOf (passed' ++ [l']))).length)
    (hne : bytes ≠ []) (hle' : bytes'.length ≤ l'.chunk.length) :
    bytes'.length ≤ bytes.length := by
  have hpos : 0 < bytes.length := List.length_pos_iff.mpr hne
  have hprefix : passed ++ [l] <+: ls := ⟨rest, by simp [hls]⟩
  have hprefix' : passed' ++ [l'] <+: ls := ⟨rest', by simp [hls']⟩
  have hchunk : (Text.bytes (textOf (passed' ++ [l']))).length =
      (Text.bytes (textOf passed')).length + l'.chunk.length := by
    rw [bytes_textOf_append, List.length_append, bytes_textOf [l']]
    simp
  rcases List.prefix_or_prefix_of_prefix hprefix hprefix' with hshort | hshort
  · rcases List.prefix_concat_iff.mp hshort with heq | hbefore
    · rw [heq] at hend
      omega
    · -- The line of the second offer begins only where that of the first one ends.
      have := length_bytes_textOf_le hbefore
      omega
  · have := length_bytes_textOf_le hshort
    omega

/-- Either nothing was refused, or there is a place where something was. -/
theorem unrefused_or_exists (events : List Event) :
    (∀ e ∈ events, e.refusal? = none) ∨
      ∃ before e after fault, events = before ++ e :: after ∧ e.refusal? = some fault := by
  by_cases hno : ∀ e ∈ events, e.refusal? = none
  · exact .inl hno
  · simp only [Classical.not_forall] at hno
    obtain ⟨e, hmem, hrefusal⟩ := hno
    obtain ⟨fault, hfault⟩ := Option.ne_none_iff_exists'.mp hrefusal
    obtain ⟨before, after, hevents⟩ := List.append_of_mem hmem
    exact .inr ⟨before, e, after, fault, hevents, hfault⟩

namespace Delivery.IsFaithful

variable {d d' : Delivery} {sink : Sink} {ls : List Line}

/-- A delivery ends with a refusal or with the flush. -/
theorem exists_last (h : d.IsFaithful sink ls) :
    ∃ before e, d.events = before ++ [e] ∧ (e = .flush ∨ ∃ fault, e.refusal? = some fault) := by
  rcases unrefused_or_exists d.events with hno | ⟨before, e, after, fault, hevents, hfault⟩
  · have hcount := h.flushed
    rw [if_pos (h.unrefused hno).1] at hcount
    have hmem : Event.flush ∈ d.events := List.count_pos_iff.mp (by omega)
    obtain ⟨before, after, hevents⟩ := List.append_of_mem hmem
    obtain ⟨rfl, -⟩ := h.flushed_last hevents
    exact ⟨before, .flush, hevents, .inl rfl⟩
  · obtain ⟨rfl, -⟩ := h.stopped hevents hfault
    exact ⟨before, e, hevents, .inr ⟨fault, hfault⟩⟩

/-- So no delivery goes on where another one has ended. -/
theorem events_ne_append (h : d.IsFaithful sink ls) (h' : d'.IsFaithful sink ls) {e : Event}
    {after : List Event} : d.events ≠ d'.events ++ e :: after := by
  intro hevents
  obtain ⟨before, last, hevents', hlast⟩ := h'.exists_last
  have hsplit : d.events = before ++ last :: (e :: after) := by
    rw [hevents, hevents', List.append_assoc]
    rfl
  rcases hlast with rfl | ⟨fault, hfault⟩
  · exact List.cons_ne_nil e after (h.flushed_last hsplit).1
  · exact List.cons_ne_nil e after (h.stopped hsplit hfault).1

/-- The sink is not flushed where something is still to be offered. -/
theorem not_flush_of_offer (h : d.IsFaithful sink ls) (h' : d'.IsFaithful sink ls)
    {before after after' : List Event} {bytes : List Byte} {answer : Answer}
    (hoffer : d.events = before ++ .offer bytes answer :: after) :
    d'.events ≠ before ++ .flush :: after' := by
  intro hflush
  obtain ⟨-, harrived⟩ := h'.flushed_last hflush
  obtain ⟨passed, l, rest, -, -, hne, -, hprefix⟩ := h.offered hoffer
  have hle := hprefix.length_le
  rw [harrived, List.length_append] at hle
  exact hne (List.length_eq_zero_iff.mp (by omega))

/-- **At every place two deliveries ask the same.** -/
theorem event_unique (h : d.IsFaithful sink ls) (h' : d'.IsFaithful sink ls)
    {before after after' : List Event} {e e' : Event} (hevents : d.events = before ++ e :: after)
    (hevents' : d'.events = before ++ e' :: after') : e = e' := by
  cases e with
  | flush =>
    cases e' with
    | flush => rfl
    | offer bytes answer => exact absurd hevents (not_flush_of_offer h' h hevents')
  | offer bytes answer =>
    cases e' with
    | flush => exact absurd hevents' (not_flush_of_offer h h' hevents)
    | offer bytes' answer' =>
      obtain ⟨passed, l, rest, hls, hsuffix, hne, hend, hprefix⟩ := h.offered hevents
      obtain ⟨passed', l', rest', hls', hsuffix', hne', hend', hprefix'⟩ := h'.offered hevents'
      have hsize := congrArg List.length hend
      have hsize' := congrArg List.length hend'
      rw [List.length_append] at hsize hsize'
      have hlength : (arrived before ++ bytes).length = (arrived before ++ bytes').length := by
        rw [List.length_append, List.length_append]
        exact congrArg _ (Nat.le_antisymm
          (length_le_of_offers hls' hls hsize' hsize hne' hsuffix.length_le)
          (length_le_of_offers hls hls' hsize hsize' hne hsuffix'.length_le))
      have hbytes := (List.prefix_of_prefix_length_le hprefix hprefix'
        (Nat.le_of_eq hlength)).eq_of_length hlength
      rw [List.append_cancel_left hbytes, h.answered hevents, h'.answered hevents']

/-- **The promise leaves nothing open**: a sink and some lines tell what the sink is asked, what it
answers, and what comes of it. -/
theorem unique (h : d.IsFaithful sink ls) (h' : d'.IsFaithful sink ls) :
    d.events = d'.events ∧ d.result = d'.result := by
  have hevents : d.events = d'.events :=
    eq_of_forall_split (fun _ => event_unique h h') (events_ne_append h h') (events_ne_append h' h)
  refine ⟨hevents, ?_⟩
  rcases unrefused_or_exists d.events with hno | ⟨before, e, after, fault, hsplit, hfault⟩
  · cases hflush : sink.flushFault with
    | none =>
      rw [(h.succeeds _).mpr ⟨hno, hflush, rfl⟩, (h'.succeeds _).mpr ⟨hevents ▸ hno, hflush, rfl⟩]
    | some fault =>
      rw [(h.unrefused hno).2 fault hflush, (h'.unrefused (hevents ▸ hno)).2 fault hflush]
  · rw [(h.stopped hsplit hfault).2, (h'.stopped (hevents ▸ hsplit) hfault).2]

end Delivery.IsFaithful

end Chip8.Listing
