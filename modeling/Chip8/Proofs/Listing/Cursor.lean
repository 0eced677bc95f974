import Chip8.Proofs.Listing.Refusal
import Chip8.Proofs.Listing.Words

/-!
# A sweep is a cursor

A sweep can be used in any way and any order: one line at a time, some lines further on, up to the
next instruction, or to the end, and it can be asked at any time how many lines are left. Whatever
is done, it behaves like a place in the list of all lines that is moved on and never back.

## Two counters as one

What a sweep keeps is the rest of the image and an address. `Sweep.passed` moves both on by the same
number of lines, and every request leaves behind a sweep that has been moved on so, by no more lines
than there were. So the two cannot get out of step, and a single number tells where the sweep is.
Behind the last line the address may have wrapped around to zero, and no line is shown at it.

## Everything comes down to the next line

The requests that pass several lines do what asking for the next line over and over does, as
`Sweep.nth_succ`, `Sweep.nextKnown_eq` and `Sweep.drain_eq` say. What they answer is proved from
these equations, by induction on the number of lines that are left.

## Main definitions

* `Listing.Request`, `Listing.Reply` — what a sweep can be asked, and what it answers
* `Listing.Sweep.serve`, `Listing.Sweep.serveAll` — a sweep answers one request, or several
* `Listing.Cursor.serve`, `Listing.Cursor.serveAll` — a place in a list of lines does
* `Listing.Sweep.passed` — the sweep behind some lines
* `Listing.Sweep.IsCursorInto` — what is promised of a sweep

## Main results

* `Listing.Sweep.next_eq`, `Listing.Sweep.nth_eq`, `Listing.Sweep.nextKnown_eq_findIdx?` — the
  requests that pass lines
* `Listing.Sweep.serve_passed` — a sweep and a cursor answer one request alike, and stay in step
* `Listing.Sweep.serveAll_passed` — and any number of requests
* `Listing.Sweep.serveAll_replicate_next` — lines are collected at once as one by one
* `Listing.exists_isCursorInto` — the headline: every sweep over an image is a cursor into its lines
-/

namespace Chip8.Listing

/-! ### Requests -/

/-- Something that a sweep is asked. -/
inductive Request
  | next
  /-- The line after `k` others. -/
  | nth (k : Nat)
  /-- How many lines are to come. -/
  | size
  | sizeHint
  /-- The next line that is an instruction. -/
  | nextKnown
  /-- All lines to come. -/
  | drain
  deriving DecidableEq, Repr

/-- The answer to a request. -/
inductive Reply
  | line (l : Option Line)
  | count (n : Nat)
  | bounds (lower : Nat) (upper : Option Nat)
  | lines (ls : List Line)
  deriving DecidableEq, Repr

namespace Sweep

/-- The answer to a request, and the sweep it leaves behind. -/
def serve (s : Sweep) : Request → Reply × Sweep
  | .next => (.line s.next.1, s.next.2)
  | .nth k => (.line (s.nth k).1, (s.nth k).2)
  | .size => (.count s.size, s)
  | .sizeHint => (.bounds s.sizeHint.1 s.sizeHint.2, s)
  | .nextKnown => (.line s.nextKnown.1, s.nextKnown.2)
  | .drain => (.lines s.drain.1, s.drain.2)

/-- The answers to some requests, and the sweep they leave behind. -/
def serveAll (s : Sweep) : List Request → List Reply × Sweep
  | [] => ([], s)
  | request :: requests =>
    let first := s.serve request
    let rest := first.2.serveAll requests
    (first.1 :: rest.1, rest.2)

end Sweep

namespace Cursor

/-- The answer of a cursor at place `c` of a list, and the place where it is then. -/
def serve (ls : List Line) (c : Nat) : Request → Reply × Nat
  | .next => (.line ls[c]?, min (c + 1) ls.length)
  | .nth k => (.line ls[c + k]?, min (c + k + 1) ls.length)
  | .size => (.count (ls.length - c), c)
  | .sizeHint => (.bounds (ls.length - c) (some (ls.length - c)), c)
  | .nextKnown =>
    match (ls.drop c).findIdx? fun l => l.body.isSome with
    | some j => (.line ls[c + j]?, c + j + 1)
    | none => (.line none, ls.length)
  | .drain => (.lines (ls.drop c), ls.length)

/-- The answers to some requests, and the place where the cursor is then. -/
def serveAll (ls : List Line) (c : Nat) : List Request → List Reply × Nat
  | [] => ([], c)
  | request :: requests =>
    let first := serve ls c request
    let rest := serveAll ls first.2 requests
    (first.1 :: rest.1, rest.2)

end Cursor

/-! ### Passing lines -/

theorem linesFrom_drop (style : UnknownStyle) : ∀ (a : Address) (image : Image) (c : Nat),
    linesFrom style (a + BitVec.ofNat 16 (2 * c)) (image.drop (2 * c)) =
      (linesFrom style a image).drop c
  | a, image, 0 => by simp
  | a, [], c + 1 => by simp
  | a, [b], c + 1 => by simp [Nat.mul_succ]
  | a, high :: low :: rest, c + 1 => by
    rw [linesFrom_cons_cons, List.drop_succ_cons, ← linesFrom_drop style (a + 2) rest c,
      add_two_add_ofNat, Nat.mul_succ, List.drop_succ_cons, List.drop_succ_cons]

namespace Sweep

/-- The sweep behind `c` more lines. -/
def passed (s : Sweep) (c : Nat) : Sweep :=
  { s with rest := s.rest.drop (2 * c), address := s.address + BitVec.ofNat 16 (2 * c) }

@[simp] theorem passed_zero (s : Sweep) : s.passed 0 = s := by
  simp [passed]

theorem passed_passed (s : Sweep) (c d : Nat) : (s.passed c).passed d = s.passed (c + d) := by
  simp only [passed, List.drop_drop, BitVec.add_assoc, ← BitVec.ofNat_add, Nat.mul_add]

theorem size_passed (s : Sweep) (c : Nat) : (s.passed c).size = s.size - c := by
  rw [size, size, passed, List.length_drop]
  omega

theorem toList_passed (s : Sweep) (c : Nat) : (s.passed c).toList = s.toList.drop c :=
  linesFrom_drop s.style s.address s.rest c

/-! ### The next line -/

theorem size_of_toList {s : Sweep} {ls : List Line} (h : s.toList = ls) : s.size = ls.length := by
  rw [← h, length_toList]

theorem next_of_toList_nil {s : Sweep} (h : s.toList = []) : s.next = (none, s) := by
  rcases s with ⟨_ | ⟨high, _ | ⟨low, rest⟩⟩, address, style⟩
  · rfl
  · rfl
  · exact nomatch h

/-- A sweep with lines to come yields the first of them and passes it. -/
theorem next_of_toList_cons {s : Sweep} {l : Line} {ls : List Line} (h : s.toList = l :: ls) :
    s.next = (some l, s.passed 1) := by
  rcases s with ⟨_ | ⟨high, _ | ⟨low, rest⟩⟩, address, style⟩
  · exact nomatch h
  · exact nomatch h
  · obtain ⟨rfl, -⟩ := List.cons.inj h
    rfl

theorem toList_passed_one {s : Sweep} {l : Line} {ls : List Line} (h : s.toList = l :: ls) :
    (s.passed 1).toList = ls := by
  rw [toList_passed, h]
  rfl

/-- **The next line** is the first one to come, and a sweep that has run out stays where it is. -/
theorem next_eq (s : Sweep) : s.next = (s.toList[0]?, s.passed (min 1 s.size)) := by
  cases h : s.toList with
  | nil =>
    rw [next_of_toList_nil h, size_of_toList h, List.length_nil, Nat.min_zero, passed_zero]
    rfl
  | cons l ls =>
    have hmin : min 1 s.size = 1 := by
      rw [size_of_toList h, List.length_cons]
      omega
    rw [next_of_toList_cons h, hmin]
    rfl

/-! ### Passing several lines

One equation each says that the request asks for the next line and goes on from there. -/

theorem nth_succ (s : Sweep) (k : Nat) :
    s.nth (k + 1) =
      match s.next with
      | (some _, s') => s'.nth k
      | (none, s') => (none, s') := rfl

theorem nextKnown_eq (s : Sweep) :
    s.nextKnown =
      match s.next with
      | (some l, s') => if l.isUnknown then s'.nextKnown else (some l, s')
      | (none, s') => (none, s') := by
  rcases s with ⟨_ | ⟨high, _ | ⟨low, rest⟩⟩, address, style⟩ <;> rfl

/-- All lines to come are answered, and passed. -/
theorem drain_eq_toList (s : Sweep) : s.drain = (s.toList, s.passed s.size) := rfl

theorem drain_eq (s : Sweep) :
    s.drain =
      match s.next with
      | (some l, s') => (l :: s'.drain.1, s'.drain.2)
      | (none, s') => ([], s') := by
  cases h : s.toList with
  | nil =>
    rw [next_of_toList_nil h, drain_eq_toList, h, size_of_toList h, List.length_nil, passed_zero]
  | cons l ls =>
    simp only [next_of_toList_cons h, drain_eq_toList, h, toList_passed_one h, size_passed,
      passed_passed, size_of_toList h, List.length_cons]
    rw [Nat.add_sub_cancel, Nat.add_comm]

/-- **The line after `k` others.** If there is none then all lines are passed. -/
theorem nth_eq (s : Sweep) (k : Nat) :
    s.nth k = (s.toList[k]?, s.passed (min (k + 1) s.size)) := by
  induction k generalizing s with
  | zero => exact next_eq s
  | succ k ih =>
    rw [nth_succ]
    cases h : s.toList with
    | nil => simp [next_of_toList_nil h, size_of_toList h]
    | cons l ls =>
      have hpassed : 1 + min (k + 1) ls.length = min (k + 1 + 1) (ls.length + 1) := by omega
      simp only [next_of_toList_cons h, ih, toList_passed_one h,
        size_of_toList (toList_passed_one h), passed_passed, hpassed, size_of_toList h,
        List.getElem?_cons_succ, List.length_cons]

/-- **The next instruction** is at the first index of a line that is one. If there is none then
all lines are passed. -/
theorem nextKnown_eq_findIdx? (s : Sweep) :
    s.nextKnown =
      match s.toList.findIdx? fun l => l.body.isSome with
      | some j => (s.toList[j]?, s.passed (j + 1))
      | none => (none, s.passed s.size) := by
  generalize h : s.toList = ls
  induction ls generalizing s with
  | nil => simp [nextKnown_eq, next_of_toList_nil h, size_of_toList h]
  | cons l ls ih =>
    have hrest := toList_passed_one h
    rw [nextKnown_eq, next_of_toList_cons h, List.findIdx?_cons]
    cases hl : l.body with
    | some i => simp [Line.isUnknown, hl]
    | none =>
      simp only [Line.isUnknown, hl, ih _ hrest, Option.isNone_none, Option.isSome_none,
        Bool.false_eq_true, if_true, if_false]
      cases ls.findIdx? fun l => l.body.isSome with
      | some j =>
        simp only [Option.map_some, List.getElem?_cons_succ, passed_passed, Nat.add_comm 1]
      | none =>
        simp only [Option.map_none, size_of_toList hrest, size_of_toList h, passed_passed,
          List.length_cons, Nat.add_comm 1]

/-! ### Requests -/

/-- **A sweep and a cursor answer a request alike**, and the sweep has passed as many lines then as
the cursor. -/
theorem serve_passed (s : Sweep) {c : Nat} (hc : c ≤ s.size) (request : Request) :
    (s.passed c).serve request =
      ((Cursor.serve s.toList c request).1, s.passed (Cursor.serve s.toList c request).2) := by
  have hlength := s.length_toList
  have hall : c + (s.size - c) = s.size := by omega
  have hget : ∀ k, (s.passed c).toList[k]? = s.toList[c + k]? := fun k => by
    rw [toList_passed, List.getElem?_drop]
  cases request with
  | next =>
    have hplace : c + min 1 (s.size - c) = min (c + 1) s.size := by omega
    simp only [serve, Cursor.serve, next_eq, hget, size_passed, passed_passed, hplace, hlength,
      Nat.add_zero]
  | nth k =>
    have hplace : c + min (k + 1) (s.size - c) = min (c + k + 1) s.size := by omega
    simp only [serve, Cursor.serve, nth_eq, hget, size_passed, passed_passed, hplace, hlength]
  | size => simp only [serve, Cursor.serve, size_passed, hlength]
  | sizeHint => simp only [serve, Cursor.serve, sizeHint, size_passed, hlength]
  | nextKnown =>
    simp only [serve, Cursor.serve, nextKnown_eq_findIdx?, toList_passed]
    cases (s.toList.drop c).findIdx? fun l => l.body.isSome with
    | some j => simp only [List.getElem?_drop, passed_passed, Nat.add_assoc]
    | none => simp only [size_passed, passed_passed, hall, hlength]
  | drain =>
    simp only [serve, Cursor.serve, drain_eq_toList, toList_passed, size_passed, passed_passed,
      hall, hlength]

end Sweep

/-- A cursor never leaves its list. -/
theorem Cursor.serve_le {ls : List Line} {c : Nat} (hc : c ≤ ls.length) (request : Request) :
    (Cursor.serve ls c request).2 ≤ ls.length := by
  cases request with
  | next => exact Nat.min_le_right ..
  | nth k => exact Nat.min_le_right ..
  | size => exact hc
  | sizeHint => exact hc
  | nextKnown =>
    rw [serve]
    split
    · rename_i j hj
      have hlt := (List.findIdx?_eq_some_iff_getElem.mp hj).1
      rw [List.length_drop] at hlt
      show c + j + 1 ≤ ls.length
      omega
    · exact Nat.le_refl _
  | drain => exact Nat.le_refl _

/-- **A sweep and a cursor answer any number of requests alike.** -/
theorem Sweep.serveAll_passed (s : Sweep) (requests : List Request) {c : Nat} (hc : c ≤ s.size) :
    (s.passed c).serveAll requests =
        ((Cursor.serveAll s.toList c requests).1,
          s.passed (Cursor.serveAll s.toList c requests).2) ∧
      (Cursor.serveAll s.toList c requests).2 ≤ s.size := by
  induction requests generalizing c with
  | nil => exact ⟨rfl, hc⟩
  | cons request requests ih =>
    have hle : (Cursor.serve s.toList c request).2 ≤ s.size := by
      rw [← s.length_toList] at hc ⊢
      exact Cursor.serve_le hc request
    obtain ⟨hrest, hend⟩ := ih hle
    refine ⟨?_, hend⟩
    simp only [serveAll, Cursor.serveAll, serve_passed s hc request, hrest]

/-- **Collecting the lines to come is asking for the next one** as often as there are lines left. -/
theorem Sweep.serveAll_replicate_next (s : Sweep) :
    s.serveAll (List.replicate s.size .next) =
      (s.drain.1.map fun l => .line (some l), s.drain.2) := by
  generalize h : s.toList = ls
  induction ls generalizing s with
  | nil =>
    rw [size_of_toList h, drain_eq, next_of_toList_nil h]
    rfl
  | cons l ls ih =>
    have hrest := toList_passed_one h
    have hih := ih _ hrest
    rw [size_of_toList hrest] at hih
    rw [size_of_toList h, drain_eq, next_of_toList_cons h, List.length_cons, List.replicate_succ]
    simp only [serveAll, serve, next_of_toList_cons h, hih, List.map_cons]

/-! ### Sweeps over an image -/

/-- What is promised of a sweep and a list of lines, after any requests. -/
structure Sweep.IsCursorInto (s : Sweep) (ls : List Line) : Prop where
  /-- It has answered as a cursor that began at the first line. -/
  answers (requests : List Request) :
    (s.serveAll requests).1 = (Cursor.serveAll ls 0 requests).1
  place_le (requests : List Request) : (Cursor.serveAll ls 0 requests).2 ≤ ls.length
  /-- The lines to come are those from the place of the cursor on. -/
  toList (requests : List Request) :
    (s.serveAll requests).2.toList = ls.drop (Cursor.serveAll ls 0 requests).2
  size (requests : List Request) :
    (s.serveAll requests).2.size = ls.length - (Cursor.serveAll ls 0 requests).2
  /-- The lines to come can be collected at once or one by one. -/
  collects (requests : List Request) :
    (s.serveAll requests).2.serveAll (List.replicate (s.serveAll requests).2.size .next) =
      ((s.serveAll requests).2.drain.1.map fun l => .line (some l), (s.serveAll requests).2.drain.2)

theorem Sweep.isCursorInto_toList (s : Sweep) : s.IsCursorInto s.toList := by
  have hserve : ∀ requests, s.serveAll requests =
        ((Cursor.serveAll s.toList 0 requests).1,
          s.passed (Cursor.serveAll s.toList 0 requests).2) ∧
      (Cursor.serveAll s.toList 0 requests).2 ≤ s.size := by
    intro requests
    have hpassed := s.serveAll_passed requests (Nat.zero_le _)
    rwa [passed_zero] at hpassed
  exact
    { answers := fun requests => by rw [(hserve requests).1]
      place_le := fun requests => s.length_toList ▸ (hserve requests).2
      toList := fun requests => by rw [(hserve requests).1, toList_passed]
      size := fun requests => by rw [(hserve requests).1, size_passed, s.length_toList]
      collects := fun requests => serveAll_replicate_next _ }

/-- **A sweep over an image is a cursor into its lines**, whatever it is asked and how often, also
when it has run out. -/
theorem exists_isCursorInto {o : Options} {image : Image} {s : Sweep}
    (hs : sweep o image = .ok s) :
    ∃ ls, (lines { o with trailingByte := .truncate } image).value = .ok ls ∧
      s.IsCursorInto ls := by
  obtain ⟨hsize, rfl⟩ := sweep_eq_ok_iff.mp hs
  have haccepts : Options.Accepts { o with trailingByte := .truncate } image :=
    ⟨Nat.le_sub_of_add_le' hsize, .inr rfl⟩
  exact ⟨_, value_lines_of_accepts haccepts, (o.start image).isCursorInto_toList⟩

/-- A sweep up to the end of the address space, and beyond. Its address has wrapped around to zero
by the third request. -/
theorem exists_isCursorInto_at_end :
    ∃ s ls, sweep { loadAddress := 0xFFFC } [0xF0, 0x00, 0x12, 0x00] = .ok s ∧
      (lines { loadAddress := 0xFFFC } [0xF0, 0x00, 0x12, 0x00]).value = .ok ls ∧
      s.IsCursorInto ls ∧
      (s.serveAll [.size, .nextKnown, .next, .sizeHint, .drain]).1 =
        [.count 2, .line (some (Line.ofBytes .addressed 0xFFFE 0x12 0x00)), .line none,
          .bounds 0 (some 0), .lines []] := by
  have hs : sweep { loadAddress := 0xFFFC } [0xF0, 0x00, 0x12, 0x00] =
      .ok (Options.start { loadAddress := 0xFFFC } [0xF0, 0x00, 0x12, 0x00]) := rfl
  obtain ⟨ls, hls, hcursor⟩ := exists_isCursorInto hs
  refine ⟨_, ls, hs, hls, hcursor, ?_⟩
  rw [hcursor.answers]
  obtain ⟨-, rfl⟩ := value_lines_eq_ok_iff.mp hls
  rfl

end Chip8.Listing
