import Chip8.Command.Invocation
import Chip8.Proofs.Hex
import Mathlib.Data.List.Forall2

/-!
# How a request is spelled

There are five things to say about a listing, and some of them can be said in several ways. The
value of an option is an argument of its own or is attached to the option. To a short name it can be
attached in two ways, with an equals sign and without. An address has as many spellings as there are
ways to write a number.

`Part.IsSpelled` lists the spellings of one thing, and `Selection.IsSpelled` those of a whole
command line. Neither is about reading: they say what may be written, and reading is measured
against them.

## What a value may look like

An argument of its own is taken for an option if it begins with a dash, so a value that does has to
be attached. Directly behind the letter of a short option it must be there at all, and it must not
begin with an equals sign, which would not be taken for a part of it.

## Main definitions

* `Command.IsPlain` — a text that is not taken for an option
* `Command.WritesAddress` — the texts of an address
* `Command.Part`, `Command.Part.IsSpelled` — one thing to say, and the arguments that say it
* `Command.Selection`, `Command.Selection.IsSpelled` — all that is said, and the command lines that
  say it

## Main results

* `Command.readAddress_of_writesAddress` — an address is read however it is written
* `Command.writesAddress_decimal`, `Command.writesAddress_hex` — the usual ways to write one
* `Command.meaning_of_isPlain`, `Command.meaning_outputShortAttached` and their like — what the
  arguments of a spelling say
* `Command.Selection.exists_isSpelled` — everything can be said
-/

namespace Chip8.Command

open Hex (Case digits)
open Argument (ofString)

/-! ### Addresses -/

/-- A text that an address is written as: digits in base ten, or behind a marker in base sixteen. -/
inductive WritesAddress (a : Address) : String → Prop
  | decimal {ds : List Char} (h : Denotes 10 ds a.toNat) : WritesAddress a (String.ofList ds)
  | hex {ds : List Char} {x : Char} (hx : x = 'x' ∨ x = 'X') (h : Denotes 16 ds a.toNat) :
    WritesAddress a (String.ofList ('0' :: x :: ds))

theorem readAddress_of_digits {base : Nat} {ds : List Char} {text : String} {a : Address}
    (hbase : base ≤ 16) (h : Denotes base ds a.toNat)
    (htext : readAddress text = (readNumber base ds).map (BitVec.ofNat 16)) :
    readAddress text = .ok a := by
  rw [htext, readNumber_of_denotes hbase h a.isLt]
  simp [Except.map]

/-- **An address is read however it is written.** -/
theorem readAddress_of_writesAddress {a : Address} {text : String} (h : WritesAddress a text) :
    readAddress text = .ok a := by
  cases h with
  | decimal h =>
    refine readAddress_of_digits (by decide) h ?_
    -- No digit in base ten can be taken for the second character of a marker.
    have hx : 'x' ∉ _ := h.not_mem (by decide) rfl
    have hX : 'X' ∉ _ := h.not_mem (by decide) rfl
    rw [readAddress, String.toList_ofList]
    split
    · exact absurd (by simp) hx
    · exact absurd (by simp) hX
    · rfl
  | hex hx h =>
    refine readAddress_of_digits (by decide) h ?_
    rw [readAddress, String.toList_ofList]
    rcases hx with rfl | rfl <;> rfl

/-- Digits as numbers are usually written denote their number. -/
theorem denotes_toDigits {base : Nat} (hone : 1 < base) (hbase : base ≤ 16) (v : Nat) :
    Denotes base (Nat.toDigits base v) v := by
  have hchar : ∀ d : Fin 16, Nat.digitChar d.val = Hex.digit .lower d.val := by decide
  induction v using Nat.strongRecOn with
  | ind v ih =>
    by_cases hv : v < base
    · rw [Nat.toDigits_of_lt_base hv, hchar ⟨v, by omega⟩]
      exact .digit .lower hv
    · have hd : v % base < base := Nat.mod_lt v (by omega)
      have hfront := ih (v / base) (Nat.div_lt_self (by omega) hone)
      rw [Nat.toDigits_of_base_le hone (by omega), hchar ⟨v % base, by omega⟩]
      simpa [Nat.div_add_mod] using hfront.append .lower hd

/-- An address may be written as a usual decimal number, behind any number of zeros. -/
theorem writesAddress_decimal (a : Address) (zeros : Nat) :
    WritesAddress a (String.ofList (List.replicate zeros '0' ++ Nat.toDigits 10 a.toNat)) :=
  .decimal ((denotes_toDigits (by decide) (by decide) a.toNat).zeros zeros)

/-- It may be written in hexadecimal digits of either case, too, in as many as suffice or more. -/
theorem writesAddress_hex (a : Address) (c : Case) {k : Nat} (hpos : 0 < k)
    (hk : a.toNat < Nat.pow 16 k) {x : Char} (hx : x = 'x' ∨ x = 'X') :
    WritesAddress a (String.ofList ('0' :: x :: digits c k a.toNat)) :=
  .hex hx (denotes_digits c hpos hk)

/-! ### Arguments -/

/-- A text that does not begin with a dash. -/
def IsPlain (text : String) : Prop := text.toList.head? ≠ some '-'

instance (text : String) : Decidable (IsPlain text) := inferInstanceAs (Decidable (¬ _))

theorem meaning_of_isPlain {text : String} (h : IsPlain text) :
    (ofString text).meaning = .positional text := by
  rw [IsPlain] at h
  rw [ofString]
  split <;> rename_i heq
  · exact absurd (by rw [heq]; rfl) h
  · exact absurd (by rw [heq]; rfl) h
  · exact absurd (by rw [heq]; rfl) h
  · rfl

theorem isPlain_of_not_mem {ds : List Char} (h : '-' ∉ ds) : IsPlain (String.ofList ds) := by
  intro hhead
  rw [String.toList_ofList] at hhead
  exact h (List.mem_of_mem_head? hhead)

/-- No address is taken for an option. -/
theorem isPlain_of_writesAddress {a : Address} {text : String} (h : WritesAddress a text) :
    IsPlain text := by
  cases h with
  | decimal h => exact isPlain_of_not_mem (h.not_mem (by decide) rfl)
  | hex hx h =>
    refine isPlain_of_not_mem ?_
    have hdigits : '-' ∉ _ := h.not_mem (by decide) rfl
    rcases hx with rfl | rfl <;> simp [hdigits]

/-- The value of a long option begins behind the first equals sign. -/
theorem ofLong_attached {name : List Char} (value : List Char) (h : '=' ∉ name) :
    Argument.ofLong (name ++ '=' :: value) =
      .long (String.ofList name) (some (String.ofList value)) := by
  have hname : ∀ c ∈ name, decide (c ≠ '=') = true := by
    intro c hc
    refine decide_eq_true ?_
    rintro rfl
    exact h hc
  rw [Argument.ofLong, List.takeWhile_append_of_pos hname, List.dropWhile_append_of_pos hname]
  simp

theorem ofString_longAttached {text : String} (name value : String)
    (htext : text.toList = '-' :: '-' :: (name.toList ++ '=' :: value.toList))
    (h : '=' ∉ name.toList) : ofString text = .long name (some value) := by
  have hlong := ofLong_attached value.toList h
  rw [String.ofList_toList, String.ofList_toList] at hlong
  rw [← hlong, ofString, htext]
  cases name.toList <;> rfl

theorem ofString_outputShort (attached : String) :
    ofString ("-o" ++ attached) = .short 'o' attached.toList := by
  have htext : ("-o" ++ attached).toList = '-' :: 'o' :: attached.toList := by
    rw [String.toList_append]
    rfl
  rw [ofString, htext]
  rfl

theorem attachedValue_of_head {attached : List Char} (hne : attached ≠ [])
    (hhead : attached.head? ≠ some '=') :
    attachedValue attached = some (String.ofList attached) := by
  unfold attachedValue
  split
  · exact absurd rfl hne
  · exact absurd rfl hhead
  · rfl

/-! ### What the arguments of a spelling say -/

theorem meaning_outputLong : (ofString "--output").meaning = .value .output none := rfl

theorem meaning_outputShort : (ofString "-o").meaning = .value .output none := rfl

theorem meaning_loadAddress : (ofString "--load-address").meaning = .value .loadAddress none := rfl

theorem meaning_bareUnknown : (ofString "--bare-unknown").meaning = .flag .bareUnknown none := rfl

theorem meaning_strict : (ofString "--strict").meaning = .flag .strict none := rfl

theorem meaning_outputLongAttached (value : String) :
    (ofString ("--output=" ++ value)).meaning = .value .output (some value) := by
  rw [ofString_longAttached "output" value (by rw [String.toList_append]; rfl) (by decide)]
  rfl

theorem meaning_loadAddressAttached (value : String) :
    (ofString ("--load-address=" ++ value)).meaning = .value .loadAddress (some value) := by
  rw [ofString_longAttached "load-address" value (by rw [String.toList_append]; rfl) (by decide)]
  rfl

theorem meaning_outputShortEquals (value : String) :
    (ofString ("-o=" ++ value)).meaning = .value .output (some value) := by
  have htext : "-o=" ++ value = "-o" ++ ("=" ++ value) := by
    rw [← String.append_assoc]
    rfl
  rw [htext, ofString_outputShort, String.toList_append]
  show Meaning.value .output (some (String.ofList value.toList)) = _
  rw [String.ofList_toList]

theorem meaning_outputShortAttached {value : String} (hne : value ≠ "")
    (hhead : value.toList.head? ≠ some '=') :
    (ofString ("-o" ++ value)).meaning = .value .output (some value) := by
  have hlist : value.toList ≠ [] := by simpa using hne
  rw [ofString_outputShort]
  show Meaning.value .output (attachedValue value.toList) = _
  rw [attachedValue_of_head hlist hhead, String.ofList_toList]

/-! ### Command lines -/

/-- One thing to say about a listing. -/
inductive Part
  | romPath (text : String)
  | output (text : String)
  | loadAddress (a : Address)
  | bareUnknown
  | strict
  deriving DecidableEq, Repr

/-- The arguments that say one thing. -/
inductive Part.IsSpelled : Part → List String → Prop
  | romPath {text : String} (hne : text ≠ "") (hplain : IsPlain text) :
    IsSpelled (.romPath text) [text]
  | outputLong {text : String} (hplain : IsPlain text) :
    IsSpelled (.output text) ["--output", text]
  | outputLongAttached (text : String) : IsSpelled (.output text) ["--output=" ++ text]
  | outputShort {text : String} (hplain : IsPlain text) : IsSpelled (.output text) ["-o", text]
  | outputShortEquals (text : String) : IsSpelled (.output text) ["-o=" ++ text]
  | outputShortAttached {text : String} (hne : text ≠ "") (hhead : text.toList.head? ≠ some '=') :
    IsSpelled (.output text) ["-o" ++ text]
  | loadAddress {a : Address} {text : String} (htext : WritesAddress a text) :
    IsSpelled (.loadAddress a) ["--load-address", text]
  | loadAddressAttached {a : Address} {text : String} (htext : WritesAddress a text) :
    IsSpelled (.loadAddress a) ["--load-address=" ++ text]
  | bareUnknown : IsSpelled .bareUnknown ["--bare-unknown"]
  | strict : IsSpelled .strict ["--strict"]

/-- All that can be said about a listing. Only the program cannot be left out. -/
structure Selection where
  romPath : String
  output : Option String := none
  loadAddress : Option Address := none
  bareUnknown : Bool := false
  strict : Bool := false
  deriving DecidableEq, Repr

namespace Selection

/-- What is said, one thing after the other. -/
def parts (c : Selection) : List Part :=
  .romPath c.romPath :: ((c.output.map Part.output).toList ++
    ((c.loadAddress.map Part.loadAddress).toList ++
      ((if c.bareUnknown then [.bareUnknown] else []) ++ if c.strict then [.strict] else [])))

/-- The command lines that say it: a name of the command, and then all parts in any order, each in
any of its spellings. -/
inductive IsSpelled (c : Selection) : List String → Prop
  | intro {name : String} {parts : List Part} {phrases : List (List String)}
    (hname : name = "disassemble" ∨ name = "d") (horder : parts.Perm c.parts)
    (hspelled : List.Forall₂ Part.IsSpelled parts phrases) :
    IsSpelled c (name :: phrases.flatten)

/-- Whatever is to be said about a program with a plain path, there is a command line that says
it. -/
theorem exists_isSpelled {c : Selection} (hne : c.romPath ≠ "") (hplain : IsPlain c.romPath) :
    ∃ arguments, c.IsSpelled arguments := by
  have hpart : ∀ p ∈ c.parts, ∃ phrase, p.IsSpelled phrase := by
    intro p hp
    cases p with
    | romPath text =>
      obtain rfl : text = c.romPath := by simpa [parts] using hp
      exact ⟨_, .romPath hne hplain⟩
    | output text => exact ⟨_, .outputLongAttached text⟩
    | loadAddress a => exact ⟨_, .loadAddress (writesAddress_decimal a 0)⟩
    | bareUnknown => exact ⟨_, .bareUnknown⟩
    | strict => exact ⟨_, .strict⟩
  choose! phrase hphrase using hpart
  have hspelled : List.Forall₂ Part.IsSpelled c.parts (c.parts.map phrase) :=
    List.forall₂_map_right_iff.mpr (List.forall₂_same.mpr hphrase)
  exact ⟨_, .intro (.inl rfl) (List.Perm.refl _) hspelled⟩

end Selection

end Chip8.Command
