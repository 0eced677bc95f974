import Chip8.Proofs.Agreement
import Chip8.Proofs.Listing.Placement
import Chip8.Proofs.Machine.Counter
import Chip8.Proofs.Machine.Sequencing

/-!
# Where a run that refuses unknown words stops

An engine need not have a rule for words that are no instructions, and then it refuses them. If it
accepts every instruction, a run stops at the first word that is none, and so at the first unknown
line of the listing. A run that meets no such word goes on to the end of memory and stops there, for
another reason.

## The whole of memory

A run does not know where its program ends. On a machine that held nothing there are zeros behind
it, an odd last byte is completed by one of them, and the word made of two of them is no
instruction. So the listing to compare with is that of the program filled up with zeros, and only a
program that fills memory to its end, or nearly so, gets past it.

## Two parts of a run

The run up to the first unknown line does not fail, by induction on its length, and so
`Machine.run_add` takes any longer run apart there. What is left is a single step that fails. Why it
does is told by `Machine.Fails`, for an unknown line and for the end of memory alike.

## Main definitions

* `Listing.firstUnknown` — the index of the first unknown line
* `Engine.IsStrict` — an engine that refuses unknown words and nothing else
* `Machine.Fails` — no step can be taken
* `Machine.StopsAtUnknown` — what is promised of the runs of a strict engine

## Main results

* `Machine.run_strict_of_holds` — a strict run up to the first unknown line
* `Machine.run_strict_of_fails` — a strict run that is long enough to be stopped
* `Machine.exists_stopsAtUnknown` — the headline: the promise is kept for every program that fits
-/

namespace Chip8

open Listing

variable {σ : Type}

/-! ### The first unknown line -/

/-- The index of the first line that is no instruction, or the number of lines if there is none. -/
def Listing.firstUnknown (ls : List Line) : Nat := ls.findIdx Line.isUnknown

theorem Listing.firstUnknown_le_length (ls : List Line) : firstUnknown ls ≤ ls.length :=
  List.findIdx_le_length

theorem Listing.isUnknown_of_getElem?_firstUnknown {ls : List Line} {l : Line}
    (h : ls[firstUnknown ls]? = some l) : l.isUnknown = true := by
  obtain ⟨hlt, rfl⟩ := List.getElem?_eq_some_iff.mp h
  exact List.findIdx_getElem (w := hlt)

theorem Listing.Line.isUnknown_ofBytes (style : UnknownStyle) (a : Address) (high low : Byte) :
    (Line.ofBytes style a high low).isUnknown =
      (Instruction.decode? (Word.ofBytes high low)).isNone := rfl

/-! ### Strict engines -/

/-- An engine that refuses every word that is no instruction, and accepts every instruction. What
it does with its state is left open. -/
structure Engine.IsStrict (e : Engine σ) : Prop where
  execute (state : σ) (i : Instruction) : (e.execute state i).result = .ok ()
  unknown (state : σ) (w : Word) : (e.unknown state w).result = .error (.unknownWord w)

namespace Machine

variable {e : Engine σ} {m : Machine} {w : Word}

theorem result_step_of_decode? (he : e.IsStrict) (hw : m.fetch = .ok w) {i : Instruction}
    (hi : Instruction.decode? w = some i) (state : σ) :
    (step e m state).result = .ok (.instruction i) := by
  rw [step_of_fetch hw, Operation.ofWord_of_decode? hi]
  simp only [Engine.handle, he.execute]
  rfl

theorem result_step_of_decode?_none (he : e.IsStrict) (hw : m.fetch = .ok w)
    (hnone : Instruction.decode? w = none) (state : σ) :
    (step e m state).result = .error (.unknownWord w) := by
  rw [step_of_fetch hw, Operation.ofWord_of_decode?_none hnone]
  simp only [Engine.handle, he.unknown]
  rfl

/-! ### Up to the first unknown line -/

variable {image : List Byte} {style : UnknownStyle}

/-- **A strict run goes up to the first unknown line**, and returns the instructions before it. -/
theorem run_strict_of_holds (he : e.IsStrict) : ∀ (k : Nat) (image : List Byte) (m : Machine)
    (state : σ), m.memory.Holds m.pc image →
      k ≤ firstUnknown (linesFrom style m.pc image) →
      (run e k m state).fault = none ∧ (run e k m state).machine = m.moved k ∧
        (run e k m state).operations.map some =
          ((linesFrom style m.pc image).take k).map fun l => l.body.map .instruction
  | 0, _, m, _, _, _ => ⟨rfl, (moved_zero m).symm, rfl⟩
  | _ + 1, [], _, _, _, hk => absurd hk (by simp [firstUnknown])
  | _ + 1, [_], _, _, _, hk => absurd hk (by simp [firstUnknown])
  | k + 1, high :: low :: rest, m, state, h, hk => by
    have hw := fetch_of_holds h
    rw [firstUnknown, linesFrom_cons_cons, List.findIdx_cons, Line.isUnknown_ofBytes] at hk
    cases hi : Instruction.decode? (Word.ofBytes high low) with
    | none =>
      rw [hi] at hk
      exact absurd hk (Nat.not_succ_le_zero k)
    | some i =>
      rw [hi] at hk
      have hrest : k ≤ firstUnknown (linesFrom style m.advance.pc rest) :=
        Nat.le_of_succ_le_succ hk
      have hbody : (Line.ofBytes style m.pc high low).body = some i := hi
      have hstep := result_step_of_decode? he hw hi state
      have hadvance : (step e m state).machine = m.advance := by rw [step_of_fetch hw]
      obtain ⟨hfault, hmachine, hoperations⟩ :=
        run_strict_of_holds he k rest m.advance (step e m state).state (holds_advance h) hrest
      rw [run_succ_of_step_ok hstep, hadvance]
      refine ⟨hfault, hmachine.trans (moved_advance m k), ?_⟩
      rw [linesFrom_cons_cons, List.take_succ_cons, List.map_cons, hbody]
      exact congrArg (_ :: ·) hoperations

/-- What a line shows is what a step at its place fetches. -/
theorem fetch_moved_of_getElem?_linesFrom (h : m.memory.Holds m.pc image) {k : Nat} {l : Line}
    (hl : (linesFrom style m.pc image)[k]? = some l) :
    (m.moved k).fetch = .ok l.word ∧ l.address = (m.moved k).pc ∧
      l.body = Instruction.decode? l.word := by
  rw [getElem?_linesFrom] at hl
  obtain ⟨w, hw, rfl⟩ := Option.map_eq_some_iff.mp hl
  rw [Line.word_ofWord, Line.body_ofWord]
  exact ⟨fetch_moved_of_holds h hw, rfl, rfl⟩

/-! ### Where it stops -/

/-- No step can be taken, whatever the state of the engine: each one fails with `fault`, and leaves
the counter at `pc`. -/
def Fails (e : Engine σ) (m : Machine) (fault : Fault) (pc : Address) : Prop :=
  ∀ state, (step e m state).result = .error fault ∧ (step e m state).machine.pc = pc

/-- The first unknown line is refused, and the counter has moved on by then. -/
theorem fails_at_firstUnknown (he : e.IsStrict) (h : m.memory.Holds m.pc image) {l : Line}
    (hl : (linesFrom style m.pc image)[firstUnknown (linesFrom style m.pc image)]? = some l) :
    Fails e (m.moved (firstUnknown (linesFrom style m.pc image))) (.unknownWord l.word)
      (l.address + 2) := by
  obtain ⟨hfetch, haddress, hbody⟩ := fetch_moved_of_getElem?_linesFrom h hl
  have hunknown := isUnknown_of_getElem?_firstUnknown hl
  rw [Line.isUnknown, hbody, Option.isNone_iff_eq_none] at hunknown
  refine fun state => ⟨result_step_of_decode?_none he hfetch hunknown state, ?_⟩
  rw [step_of_fetch hfetch, haddress]
  rfl

theorem fails_at_end (hpc : m.pc = 0x1000) (e : Engine σ) :
    Fails e m (.outOfBounds 0x1000) 0x1000 := by
  intro state
  rw [step_of_fetch_error (fetch_of_pc_eq hpc)]
  exact ⟨rfl, hpc⟩

/-- A run that is long enough to meet what stops it ends there. -/
theorem run_strict_of_fails (he : e.IsStrict) (h : m.memory.Holds m.pc image) {fault : Fault}
    {pc : Address} {k : Nat} (hk : k ≤ firstUnknown (linesFrom style m.pc image))
    (hfails : Fails e (m.moved k) fault pc) {count : Nat} (hcount : k < count) (state : σ) :
    (run e count m state).fault = some fault ∧ (run e count m state).machine.pc = pc ∧
      (run e count m state).operations.map some =
        ((linesFrom style m.pc image).take k).map fun l => l.body.map .instruction := by
  obtain ⟨hfault, hmachine, hoperations⟩ := run_strict_of_holds he k image m state h hk
  obtain ⟨extra, rfl⟩ : ∃ extra, count = k + (extra + 1) := ⟨count - k - 1, by omega⟩
  obtain ⟨hresult, hpc⟩ := hfails (run e k m state).state
  rw [run_add e k _ hfault, hmachine, run_of_step_error hresult]
  refine ⟨rfl, hpc, ?_⟩
  show ((run e k m state).operations ++ []).map some = _
  rw [List.append_nil, hoperations]

/-- What a strict run returns, whether or not it is long enough to be stopped. -/
theorem map_some_operations_run_strict (he : e.IsStrict) (h : m.memory.Holds m.pc image)
    {fault : Fault} {pc : Address}
    (hfails : Fails e (m.moved (firstUnknown (linesFrom style m.pc image))) fault pc)
    (count : Nat) (state : σ) :
    (run e count m state).operations.map some =
      ((linesFrom style m.pc image).take
        (min count (firstUnknown (linesFrom style m.pc image)))).map
          fun l => l.body.map .instruction := by
  rcases Nat.lt_or_ge (firstUnknown (linesFrom style m.pc image)) count with hcount | hcount
  · rw [Nat.min_eq_right (Nat.le_of_lt hcount)]
    exact (run_strict_of_fails he h (Nat.le_refl _) hfails hcount state).2.2
  · rw [Nat.min_eq_left hcount]
    exact (run_strict_of_holds he count image m state h hcount).2.2

/-- What is promised of the runs of a strict engine on a machine whose memory is listed as `ls` from
the counter on to its end. -/
structure StopsAtUnknown (e : Engine σ) (m : Machine) (state : σ) (ls : List Line) : Prop where
  /-- Up to the first unknown line all steps succeed, and behind it no step is taken. -/
  length (count : Nat) :
    (run e count m state).operations.length = min count (firstUnknown ls)
  fault_eq_none_iff (count : Nat) : (run e count m state).fault = none ↔ count ≤ firstUnknown ls
  /-- Each step returns the instruction of its line. -/
  returned (count : Nat) :
    (run e count m state).operations.map some =
      (ls.take (min count (firstUnknown ls))).map fun l => l.body.map .instruction
  /-- The word of that line is refused, and the counter is behind it. -/
  unknown {count : Nat} {l : Line} : firstUnknown ls < count → ls[firstUnknown ls]? = some l →
    (run e count m state).fault = some (.unknownWord l.word) ∧
      (run e count m state).machine.pc.toNat = l.address.toNat + 2
  /-- If there is no such line then the run comes to the end of memory. -/
  exhausted {count : Nat} : firstUnknown ls < count → firstUnknown ls = ls.length →
    (run e count m state).fault = some (.outOfBounds 0x1000) ∧
      (run e count m state).machine.pc = 0x1000

section

variable (hend : m.pc.toNat + image.length = 0x1000)
include hend

/-- Behind the last line of all memory the counter is at its end. -/
theorem pc_moved_of_end (heven : image.length % 2 = 0) :
    (m.moved (linesFrom style m.pc image).length).pc = 0x1000 := by
  refine BitVec.eq_of_toNat_eq ?_
  rw [length_linesFrom, moved, toNat_add_ofNat (by omega)]
  show _ = 0x1000
  omega

/-- Something stops the run behind the lines before the first unknown one. -/
theorem exists_fails (he : e.IsStrict) (h : m.memory.Holds m.pc image)
    (heven : image.length % 2 = 0) (style : UnknownStyle) :
    ∃ fault pc, Fails e (m.moved (firstUnknown (linesFrom style m.pc image))) fault pc := by
  cases hl : (linesFrom style m.pc image)[firstUnknown (linesFrom style m.pc image)]? with
  | some l => exact ⟨_, _, fails_at_firstUnknown he h hl⟩
  | none =>
    have hall : firstUnknown (linesFrom style m.pc image) = (linesFrom style m.pc image).length :=
      Nat.le_antisymm (firstUnknown_le_length _) (List.getElem?_eq_none_iff.mp hl)
    rw [hall]
    exact ⟨_, _, fails_at_end (pc_moved_of_end hend heven) e⟩

/-- **A strict run on bytes that reach to the end of memory** stops at the first unknown line. -/
theorem stopsAtUnknown_linesFrom (he : e.IsStrict) (h : m.memory.Holds m.pc image)
    (heven : image.length % 2 = 0) (style : UnknownStyle) (state : σ) :
    StopsAtUnknown e m state (linesFrom style m.pc image) := by
  have hle := firstUnknown_le_length (linesFrom style m.pc image)
  obtain ⟨fault, pc, hfails⟩ := exists_fails hend he h heven style
  have hreturned := map_some_operations_run_strict he h hfails
  exact
    { length := fun count => by
        have hlength := congrArg List.length (hreturned count state)
        rw [List.length_map, List.length_map, List.length_take] at hlength
        omega
      fault_eq_none_iff := fun count => by
        refine ⟨fun hnone => Nat.le_of_not_lt fun hcount => ?_, fun hcount => ?_⟩
        · rw [(run_strict_of_fails he h (Nat.le_refl _) hfails hcount state).1] at hnone
          exact nomatch hnone
        · exact (run_strict_of_holds he count image m state h hcount).1
      returned := fun count => hreturned count state
      unknown := by
        intro count l hcount hl
        have hplace := (toNat_address_of_getElem?_linesFrom (by omega) hl).1
        have hlt := lt_of_getElem?_linesFrom hl
        obtain ⟨hfault, hpc, -⟩ :=
          run_strict_of_fails he h (Nat.le_refl _) (fails_at_firstUnknown he h hl) hcount state
        have hbehind : (l.address + BitVec.ofNat 16 2).toNat = l.address.toNat + 2 :=
          toNat_add_ofNat (by omega)
        exact ⟨hfault, hpc ▸ hbehind⟩
      exhausted := by
        intro count hcount hall
        have hfails' : Fails e (m.moved (firstUnknown (linesFrom style m.pc image)))
            (.outOfBounds 0x1000) 0x1000 := by
          rw [hall]
          exact fails_at_end (pc_moved_of_end hend heven) e
        obtain ⟨hfault, hpc, -⟩ := run_strict_of_fails he h (Nat.le_refl _) hfails' hcount state
        exact ⟨hfault, hpc⟩ }

end

/-- **A run that refuses unknown words stops exactly at the first unknown line.** The lines are
those of the program filled up with zeros to the end of memory. -/
theorem exists_stopsAtUnknown {program : List Byte} (h : program.length ≤ programCapacity)
    (he : e.IsStrict) (state : σ) :
    ∃ m ls, fresh.load program = .ok m ∧ (lines {} (Memory.padded program)).value = .ok ls ∧
      ls.length = 1792 ∧ StopsAtUnknown e m state ls := by
  have hpadded := Memory.length_padded h
  have heven : (Memory.padded program).length % 2 = 0 := by rw [hpadded, programCapacity_eq]
  have hend : (fresh.loaded program).pc.toNat + (Memory.padded program).length = 0x1000 := by
    rw [hpadded, programCapacity_eq]
    rfl
  refine ⟨fresh.loaded program, _, fresh.load_of_le h,
    value_lines_of_accepts (accepts_of_le_programCapacity .addressed (Nat.le_of_eq hpadded)), ?_,
    stopsAtUnknown_linesFrom hend he (holds_loaded_fresh h) heven .addressed state⟩
  rw [length_linesFrom, hpadded, programCapacity_eq]

/-- An alias, and an odd last byte that a zero completes. -/
theorem exists_stopsAtUnknown_odd :
    ([0x01, 0xE0, 0x12] : List Byte).length ≤ programCapacity ∧
      ({ execute := fun count _ => { state := count + 1 } } : Engine Nat).IsStrict ∧
      ∃ m ls, fresh.load [0x01, 0xE0, 0x12] = .ok m ∧
        (lines {} (Memory.padded [0x01, 0xE0, 0x12])).value = .ok ls ∧ ls.length = 1792 ∧
        StopsAtUnknown { execute := fun count _ => { state := count + 1 } } m 0 ls := by
  have hsize : ([0x01, 0xE0, 0x12] : List Byte).length ≤ programCapacity := by decide
  have hstrict : ({ execute := fun count _ => { state := count + 1 } } : Engine Nat).IsStrict :=
    ⟨fun _ _ => rfl, fun _ _ => rfl⟩
  exact ⟨hsize, hstrict, exists_stopsAtUnknown hsize hstrict 0⟩

end Machine

end Chip8
