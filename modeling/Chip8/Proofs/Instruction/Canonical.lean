import Chip8.Operation

/-!
# The word an instruction is written as

Every instruction is read back from its word, so `encode` never loses an operand. In the other
direction one nibble gets lost: group `0` is told apart by the low byte alone, and writing such an
instruction clears the nibble in between. This file says exactly what writing does to a word that
was read.

## One rule for all words

A word that is no instruction has nothing to be written as, and is kept. So `Word.rewritten` is
defined on all words, and everything about writing an image again comes down to that one function:
it keeps what a word stands for, and it changes a word exactly if the word is an *alias*.

## Main definitions

* `Word.canonical` — a word with the nibble cleared that group `0` does not look at
* `Word.rewritten` — what is written for a word that was read
* `Word.IsAlias` — a word of group `0` that stands for an instruction with that nibble set

## Main results

* `Instruction.decode?_encode`, `Instruction.encode_injective` — instructions survive
* `Instruction.encode_of_decode?` — an instruction is written as the canonical form of its word
* `Word.decode?_rewritten`, `Word.rewritten_ne_iff`, `Word.rewritten_of_isAlias` — the rule for
  all words
-/

namespace Chip8

namespace Word

/-! ### Words from their group and one operand -/

variable {w : Word} {g : Nibble}

theorem ofNibbles_of_group (h : w.group = g) : ofNibbles g w.x w.y w.n = w := by
  rw [← h, ofNibbles_fields]

theorem ofTarget_of_group (h : w.group = g) : ofTarget g w.nnn = w := by
  rw [← h, ofTarget_fields]

theorem ofByte_of_fields {x : Nibble} {kk : Byte} (hg : w.group = g) (hx : w.x = x)
    (hkk : w.kk = kk) : ofByte g x kk = w := by
  rw [← hg, ← hx, ← hkk, ofByte_fields]

/-! ### The canonical form -/

/-- The word with its second nibble cleared in group `0`, and the word itself in any other. -/
def canonical (w : Word) : Word := if w.group = 0 then w &&& 0x00FF else w

theorem and_lowByte (w : Word) : w &&& 0x00FF = ofByte 0 0 w.kk := by
  refine BitVec.eq_of_toNat_eq ?_
  have hmask : (w &&& 0x00FF).toNat = w.toNat % 256 := by
    rw [BitVec.toNat_and]
    exact Nat.and_two_pow_sub_one_eq_mod w.toNat 8
  rw [hmask, toNat_ofByte, toNat_kk]
  simp

theorem canonical_of_group (h : w.group = 0) : w.canonical = ofByte 0 0 w.kk := by
  rw [← and_lowByte]
  exact if_pos h

theorem canonical_of_group_ne (h : w.group ≠ 0) : w.canonical = w := if_neg h

theorem canonical_ne_iff (w : Word) : w.canonical ≠ w ↔ w.group = 0 ∧ w.x ≠ 0 := by
  by_cases hg : w.group = 0
  · refine ⟨fun hne => ⟨hg, fun hx => hne ?_⟩, fun h heq => h.2 ?_⟩
    · rw [canonical_of_group hg]
      exact ofByte_of_fields hg hx rfl
    · rw [← heq, canonical_of_group hg, x_ofByte]
  · rw [canonical_of_group_ne hg]
    exact ⟨fun hne => absurd rfl hne, fun h => absurd h.1 hg⟩

end Word

/-! ### Instructions -/

namespace Instruction

/-- **Instructions survive being written.** No operand bleeds into another. -/
theorem decode?_encode (i : Instruction) : decode? i.encode = some i := by
  cases i with
  | arith x y op => simp [encode, decode?]
  | _ => simp [encode, decode?] <;> rfl

theorem encode_injective : Function.Injective encode := by
  intro i j h
  have hij : some i = some j := by rw [← decode?_encode i, h, decode?_encode]
  exact Option.some.inj hij

/-- In group `0` the low byte alone decides. -/
theorem decode?_of_group {w : Word} (h : w.group = 0) :
    decode? w =
      if w.kk = 0xE0 then some clearScreen else if w.kk = 0xEE then some ret else none := by
  have hgroup : w.group = 0x0#4 := h
  simp only [decode?, hgroup]
  split
  case h_1 hkk => simp [hkk]
  case h_2 hkk => simp [hkk]
  case h_3 hcls hret => exact ((if_neg hcls).trans (if_neg hret)).symm

theorem isSome_decode?_of_group {w : Word} (h : w.group = 0) :
    (decode? w).isSome ↔ w.kk = 0xE0 ∨ w.kk = 0xEE := by
  rw [decode?_of_group h]
  split
  · simp_all
  · split <;> simp_all

theorem encode_of_decode?_of_group {w : Word} {i : Instruction} (h : decode? w = some i)
    (hg : w.group = 0) : i.encode = Word.ofByte 0 0 w.kk := by
  rw [decode?_of_group hg] at h
  by_cases hcls : w.kk = 0xE0
  · rw [if_pos hcls] at h
    obtain rfl := Option.some.inj h
    rw [hcls]
    rfl
  by_cases hret : w.kk = 0xEE
  · rw [if_neg hcls, if_pos hret] at h
    obtain rfl := Option.some.inj h
    rw [hret]
    rfl
  · rw [if_neg hcls, if_neg hret] at h
    cases h

/-- Outside group `0` every bit of a word that is an instruction is an operand or a key. -/
theorem encode_of_decode?_of_group_ne {w : Word} {i : Instruction} (h : decode? w = some i)
    (hg : w.group ≠ 0) : i.encode = w := by
  unfold decode? at h
  split at h
  case h_1 h0 => exact absurd h0 hg
  -- the groups of one twelve-bit operand
  case h_2 hw | h_3 hw | h_11 hw | h_12 hw =>
    obtain rfl := Option.some.inj h
    exact Word.ofTarget_of_group hw
  -- a register and a byte
  case h_4 hw | h_5 hw | h_7 hw | h_8 hw | h_13 hw =>
    obtain rfl := Option.some.inj h
    exact Word.ofByte_of_fields hw rfl rfl
  -- three nibbles, whether or not the last one is looked at
  case h_6 hw | h_10 hw | h_14 hw =>
    obtain rfl := Option.some.inj h
    exact Word.ofNibbles_of_group hw
  case h_9 hw =>
    obtain ⟨op, hop, rfl⟩ := Option.map_eq_some_iff.mp h
    rw [encode, Arith.code_of_ofCode? hop]
    exact Word.ofNibbles_of_group hw
  -- the two groups whose low byte is a key
  case h_15 hw =>
    split at h
    case h_3 => cases h
    all_goals
      rename_i hkk
      obtain rfl := Option.some.inj h
      exact Word.ofByte_of_fields hw rfl hkk
  case h_16 hw =>
    split at h
    case h_10 => cases h
    all_goals
      rename_i hkk
      obtain rfl := Option.some.inj h
      exact Word.ofByte_of_fields hw rfl hkk
  case h_17 => cases h

/-- **An instruction is written as the canonical form of any word that stands for it.** -/
theorem encode_of_decode? {w : Word} {i : Instruction} (h : decode? w = some i) :
    i.encode = w.canonical := by
  by_cases hg : w.group = 0
  · rw [encode_of_decode?_of_group h hg, Word.canonical_of_group hg]
  · rw [encode_of_decode?_of_group_ne h hg, Word.canonical_of_group_ne hg]

end Instruction

/-! ### All words -/

namespace Word

/-- What is written for a word that was read: the word of its instruction, or the word itself if
it stands for none. -/
def rewritten (w : Word) : Word := (Operation.ofWord w).encode

/-- A word that stands for an instruction and says something in the nibble that group `0` does not
look at. By `rewritten_ne_iff`, it is not the word that its instruction is written as. -/
def IsAlias (w : Word) : Prop :=
  (Instruction.decode? w).isSome ∧ w.group = 0 ∧ w.x ≠ 0

theorem rewritten_of_decode? {w : Word} {i : Instruction} (h : Instruction.decode? w = some i) :
    w.rewritten = i.encode := by
  rw [rewritten, Operation.ofWord_of_decode? h, Operation.encode]

theorem rewritten_of_decode?_none {w : Word} (h : Instruction.decode? w = none) :
    w.rewritten = w := by
  rw [rewritten, Operation.ofWord_of_decode?_none h, Operation.encode]

/-- Writing a word again keeps what it stands for. -/
@[simp] theorem decode?_rewritten (w : Word) :
    Instruction.decode? w.rewritten = Instruction.decode? w := by
  cases h : Instruction.decode? w with
  | some i => rw [rewritten_of_decode? h, Instruction.decode?_encode]
  | none => rw [rewritten_of_decode?_none h, h]

@[simp] theorem rewritten_rewritten (w : Word) : w.rewritten.rewritten = w.rewritten := by
  cases h : Instruction.decode? w with
  | some i =>
    rw [rewritten_of_decode? h]
    exact rewritten_of_decode? (Instruction.decode?_encode i)
  | none => rw [rewritten_of_decode?_none h, rewritten_of_decode?_none h]

/-- **Writing changes the aliases and no other word.** -/
theorem rewritten_ne_iff (w : Word) : w.rewritten ≠ w ↔ w.IsAlias := by
  cases h : Instruction.decode? w with
  | some i =>
    rw [rewritten_of_decode? h, Instruction.encode_of_decode? h, canonical_ne_iff, IsAlias, h]
    simp
  | none => simp [rewritten_of_decode?_none h, IsAlias, h]

theorem rewritten_of_isAlias {w : Word} (h : w.IsAlias) : w.rewritten = w &&& 0x00FF := by
  obtain ⟨hsome, hg, -⟩ := h
  obtain ⟨i, hi⟩ := Option.isSome_iff_exists.mp hsome
  rw [rewritten_of_decode? hi, Instruction.encode_of_decode? hi]
  exact if_pos hg

/-- The aliases are the words `0x0xE0` and `0x0xEE` with a second nibble that is not zero. -/
theorem isAlias_iff (w : Word) :
    w.IsAlias ↔ ∃ x : Nibble, x ≠ 0 ∧ (w = ofByte 0 x 0xE0 ∨ w = ofByte 0 x 0xEE) := by
  constructor
  · rintro ⟨hsome, hg, hx⟩
    refine ⟨w.x, hx, ?_⟩
    exact ((Instruction.isSome_decode?_of_group hg).mp hsome).imp
      (fun hkk => (ofByte_of_fields hg rfl hkk).symm)
      (fun hkk => (ofByte_of_fields hg rfl hkk).symm)
  · rintro ⟨x, hx, h⟩
    have hg : w.group = 0 := by rcases h with rfl | rfl <;> exact group_ofByte ..
    have hwx : w.x = x := by rcases h with rfl | rfl <;> exact x_ofByte ..
    have hkk : w.kk = 0xE0 ∨ w.kk = 0xEE := by
      rcases h with rfl | rfl
      · exact .inl (kk_ofByte ..)
      · exact .inr (kk_ofByte ..)
    exact ⟨(Instruction.isSome_decode?_of_group hg).mpr hkk, hg, hwx ▸ hx⟩

end Word

end Chip8
