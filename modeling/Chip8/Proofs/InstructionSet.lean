import Chip8.Proofs.Instruction.Rows
import Chip8.Proofs.Listing.Acceptance
import Chip8.Proofs.Listing.Words
import Chip8.Proofs.Machine.Session

/-!
# The instruction set

What is an instruction is laid down by a table of rows. Listings and machines decode words one by
one, each in its own place, and never look at a table. This file says of the table `Pattern.all`
that both of them keep to it all the same: a line is unknown, and an engine is asked for its rule
for unknown words, exactly for the words that no row covers.

Everything about the table itself is in `Instruction.Rows`. What is added here is that neither a
listing nor a step does anything with a word but decode it.

## Main definitions

* `Pattern.IsInstructionSet` — what is promised of the rows of a table

## Main results

* `Listing.body_of_mem_lines` — a line shows what its word stands for
* `Machine.notes_step_watched` — a step hands over what its word stands for
* `Pattern.isInstructionSet_all` — the headline: the promise holds of the table
-/

namespace Chip8

open Instruction (decode?)
open Listing (lines words Image Line Options)
open Machine (step)

/-! ### Listings -/

namespace Listing

theorem body_of_mem_lines {o : Options} {image : Image} {ls : List Line}
    (hls : (lines o image).value = .ok ls) :
    ls.map Line.word = words image ∧ ∀ l ∈ ls, l.body = decode? l.word := by
  obtain ⟨-, rfl⟩ := value_lines_eq_ok_iff.mp hls
  have hword := map_word_linesFrom o.unknownStyle o.loadAddress image
  have hbody := map_body_linesFrom o.unknownStyle o.loadAddress image
  rw [← hword, List.map_map] at hbody
  exact ⟨hword, List.map_inj_left.mp hbody⟩

end Listing

/-! ### Steps -/

/-- What an engine is handed in a step: the operation of the word, once, if there is a word. -/
theorem Machine.notes_step_watched {σ : Type} (engine : Engine σ) (m : Machine) (state : σ) :
    (step engine.watched m (state, [])).state.2 =
      match m.fetch with
      | .ok w =>
        [{ operation := Operation.ofWord w
           answer := (engine.handle state (Operation.ofWord w)).result }]
      | .error _ => [] := by
  cases h : m.fetch with
  | ok w =>
    rw [step_of_fetch h, Engine.handle_watched]
    rfl
  | error fault => rw [step_of_fetch_error h]

/-! ### The table -/

namespace Pattern

/-- What is promised of the rows of a table. -/
structure IsInstructionSet (rows : List Pattern) : Prop where
  /-- No word is covered by two rows. -/
  apart : rows.Pairwise fun p q => ∀ w, ¬ (p.covers w ∧ q.covers w)
  /-- A word is an instruction if a row covers it, and then it is the one that the row reads. -/
  decode?_eq_some_iff (w : Word) (i : Instruction) :
    decode? w = some i ↔ ∃ p ∈ rows, p.covers w ∧ p.instruction w = i
  /-- The fields that are read are digits of the word. -/
  fields (w : Word) : w.x.toNat = w.toNat / 256 % 16 ∧ w.y.toNat = w.toNat / 16 % 16 ∧
    w.n.toNat = w.toNat % 16 ∧ w.kk.toNat = w.toNat % 256 ∧ w.nnn.toNat = w.toNat % 4096
  /-- The unknown lines of a listing are those whose word no row covers. -/
  isUnknown_iff {o : Options} {image : Image} {ls : List Line} :
    (lines o image).value = .ok ls → ls.map Line.word = words image ∧
      ∀ l ∈ ls, (l.isUnknown ↔ ∀ p ∈ rows, ¬ p.covers l.word)
  /-- A step asks its engine for the rule for unknown words exactly if no row covers its word. -/
  handed_unknown_iff {σ : Type} (engine : Engine σ) (m : Machine) (state : σ) (w : Word) :
    (∃ answer, { operation := .unknown w, answer } ∈
        (step engine.watched m (state, [])).state.2) ↔
      m.fetch = .ok w ∧ ∀ p ∈ rows, ¬ p.covers w

/-- **The table is the instruction set**, for decoding, for listings and for machines. -/
theorem isInstructionSet_all : IsInstructionSet all where
  apart := all_pairwise_clash.imp fun hclash w h => not_covers_of_clash hclash h.1 h.2
  decode?_eq_some_iff := decode?_eq_some_iff
  fields w := ⟨w.toNat_x, w.toNat_y, w.toNat_n, w.toNat_kk, w.toNat_nnn⟩
  isUnknown_iff := by
    intro o image ls hls
    obtain ⟨hwords, hbody⟩ := Listing.body_of_mem_lines hls
    refine ⟨hwords, fun l hl => ?_⟩
    rw [Line.isUnknown, hbody l hl, Option.isNone_iff_eq_none, decode?_eq_none_iff]
  handed_unknown_iff := by
    intro σ engine m state w
    rw [Machine.notes_step_watched, ← decode?_eq_none_iff]
    cases m.fetch with
    | ok v =>
      simp only [List.mem_singleton, Engine.Handover.mk.injEq, exists_and_left, exists_eq, and_true,
        Except.ok.injEq]
      exact eq_comm.trans (Operation.ofWord_eq_unknown_iff v w)
    | error fault => simp

end Pattern

end Chip8
