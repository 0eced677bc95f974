import Chip8.Proofs.Command.Effect
import Chip8.Proofs.Command.Spelling
import Mathlib.Data.List.Nodup

/-!
# Reading a request in any order

A draft is always a little behind, since the last value is held back. So what has been said is not
the draft but what it settles to, and this file is about that. A draft that settles to `e` is led by
one part of a command line, however it is spelled, to a draft that settles to `e` and this part
(`Draft.exists_read_of_isSpelled`). Which arguments were read and what is held back is forgotten
after each part.

## Order

An argument can mean something else behind another one: a text is a path, unless an option waits for
its value. So arguments cannot be exchanged, and the order is not treated before the parts are read.
Then it is simple. Saying things about two topics can be done in either order, and no topic comes up
twice.

## Main definitions

* `Command.Topic`, `Command.Part.topic` — what a part is about
* `Command.Draft.covers`, `Command.Draft.say` — what has been said, and saying one thing more
* `Command.Request.Meets` — a request is for what was said

## Main results

* `Command.Draft.exists_read_of_isSpelled` — one part
* `Command.Draft.read_flatten` — all parts
* `Command.foldl_say_of_perm` — the order does not matter
* `Command.Selection.readInvocation_of_isSpelled` — the request that is read
* `Command.exists_request_of_isSpelled` — the headline: all command lines that say the same run
  alike
-/

namespace Chip8.Command

open Argument (ofString)
open Files (Disk System World)

/-! ### Saying things -/

/-- What a part is about. -/
inductive Topic
  | romPath
  | output
  | loadAddress
  | bareUnknown
  | strict
  deriving DecidableEq, Repr

/-- What a part is about, whatever it says about it. -/
def Part.topic : Part → Topic
  | romPath _ => .romPath
  | output _ => .output
  | loadAddress _ => .loadAddress
  | bareUnknown => .bareUnknown
  | strict => .strict

namespace Draft

variable {p : Part}

/-- Whether something has been said about a topic, as far as it has been looked at. -/
def covers (d : Draft) : Topic → Bool
  | .romPath => d.has .romPath
  | .output => d.has .output
  | .loadAddress => d.has .loadAddress
  | .bareUnknown => d.bareUnknown
  | .strict => d.strict

/-- Says one thing more. -/
def say (d : Draft) : Part → Draft
  | .romPath text => { d with romPath := some text }
  | .output text => { d with output := some text }
  | .loadAddress a => { d with loadAddress := some a }
  | .bareUnknown => { d with bareUnknown := true }
  | .strict => { d with strict := true }

@[simp] theorem pending_say (d : Draft) (p : Part) : (d.say p).pending = d.pending := by
  cases p <;> rfl

theorem covers_say_of_ne (d : Draft) {t : Topic} (h : p.topic ≠ t) :
    (d.say p).covers t = d.covers t := by
  cases p <;> cases t <;> first | rfl | exact absurd rfl h

/-- Two things about different topics may be said in either order. -/
theorem say_say (d : Draft) {p q : Part} (h : p.topic ≠ q.topic) :
    (d.say p).say q = (d.say q).say p := by
  cases p <;> cases q <;> first | rfl | exact absurd rfl h

end Draft

/-- **The order in which things are said does not matter**, as long as each is about another
topic. -/
theorem foldl_say_of_perm {parts parts' : List Part} (h : parts.Perm parts')
    (hdistinct : (parts.map Part.topic).Nodup) (d : Draft) :
    parts.foldl Draft.say d = parts'.foldl Draft.say d := by
  refine h.foldl_eq' ?_ d
  intro p hp q hq d
  by_cases htopic : p.topic = q.topic
  · rw [List.inj_on_of_nodup_map hdistinct hp hq htopic]
  · exact d.say_say htopic

namespace Draft

variable {d d' e e' : Draft} {p : Part} {slot : Slot} {text : String}

/-! ### Drafts that have settled -/

theorem settle_of_pending (h : e.pending = .nothing) : e.settle = .ok e := by
  cases e
  cases h
  rfl

theorem settle_held (h : e.pending = .nothing) (slot : Slot) (text : String) :
    ({ e with pending := .held slot text } : Draft).settle = e.assign slot text := by
  cases e
  cases h
  rfl

/-- Filling a slot leaves alone what is held back, and a path that was missing is there only if it
is the path that was filled in. -/
theorem fill_eq_ok (h : d.fill text slot = .ok e) :
    e.pending = d.pending ∧ e.has .romPath = (d.has .romPath || decide (slot = .romPath)) := by
  cases slot with
  | romPath =>
    rw [fill] at h
    split at h
    · cases h
    · cases h
      exact ⟨rfl, (Bool.or_true _).symm⟩
  | output =>
    cases h
    exact ⟨rfl, (Bool.or_false _).symm⟩
  | loadAddress =>
    rw [fill] at h
    split at h
    · cases h
    · cases h
      exact ⟨rfl, (Bool.or_false _).symm⟩

/-- Nothing is held back by a draft that has settled, and a path that was has been looked at. -/
theorem settle_eq_ok (h : d.settle = .ok e) :
    e.pending = .nothing ∧ d.hasPath = e.has .romPath := by
  unfold settle at h
  unfold hasPath
  split at h <;> rename_i hpending
  · cases h
    rw [hpending]
    exact ⟨rfl, Bool.or_false _⟩
  · cases h
  · rename_i slot text
    rw [assign] at h
    split at h
    · cases h
    · obtain ⟨hsettled, hpath⟩ := fill_eq_ok h
      refine ⟨hsettled, ?_⟩
      rw [hpath, hpending]
      cases slot <;> rfl

/-! ### Reading one part -/

theorem read_text (hplain : IsPlain text) (htake : d.takeText text = .ok d')
    (rest : List String) : d.read (text :: rest) = d'.read rest := by
  rw [read, meaning_of_isPlain hplain]
  dsimp only
  rw [htake]
  rfl

theorem read_value {argument : String} {value : Option String}
    (hmeaning : (ofString argument).meaning = .value slot value)
    (htake : d.takeSlot slot value = .ok d') (rest : List String) :
    d.read (argument :: rest) = d'.read rest := by
  rw [read, hmeaning]
  dsimp only
  rw [htake]
  rfl

/-- A text where a path is missing is held back as the path. -/
theorem read_path (h : d.settle = .ok e) (hnew : e.has .romPath = false) (hplain : IsPlain text)
    (rest : List String) :
    d.read (text :: rest) = ({ e with pending := .held .romPath text } : Draft).read rest := by
  have hpath : d.hasPath = false := by rw [(settle_eq_ok h).2, hnew]
  refine read_text hplain ?_ rest
  unfold takeText
  split <;> rename_i hpending
  · -- A draft that waits for a value does not settle.
    rw [settle, hpending] at h
    cases h
  · rw [takePath, hpath, h]
    rfl

/-- A value behind its option is held back. -/
theorem read_separate {option : String} (h : d.settle = .ok e)
    (hmeaning : (ofString option).meaning = .value slot none) (hplain : IsPlain text)
    (rest : List String) :
    d.read (option :: text :: rest) =
      ({ e with pending := .held slot text } : Draft).read rest := by
  have htake : d.takeSlot slot none = .ok { e with pending := .awaiting slot } := by
    rw [takeSlot, h]
    rfl
  exact (read_value hmeaning htake _).trans (read_text hplain rfl rest)

/-- A value that is attached to its option is looked at. -/
theorem read_attached {argument : String} (h : d.settle = .ok e)
    (hmeaning : (ofString argument).meaning = .value slot (some text))
    (hassign : e.assign slot text = .ok e') (rest : List String) :
    d.read (argument :: rest) = e'.read rest := by
  refine read_value hmeaning ?_ rest
  rw [takeSlot, h]
  exact hassign

theorem read_bareUnknown (h : d.settle = .ok e) (hnew : e.bareUnknown = false)
    (rest : List String) :
    d.read ("--bare-unknown" :: rest) = (e.say .bareUnknown).read rest := by
  have htake : d.takeBareUnknown = .ok (e.say .bareUnknown) := by
    rw [takeBareUnknown, h]
    exact if_neg (by rw [hnew]; exact nofun)
  rw [read, meaning_bareUnknown]
  dsimp only
  rw [htake]
  rfl

theorem read_strict (h : d.settle = .ok e) (hnew : e.strict = false) (rest : List String) :
    d.read ("--strict" :: rest) = (e.say .strict).read rest := by
  have htake : d.takeStrict = .ok (e.say .strict) := by
    rw [takeStrict, h]
    exact if_neg (by rw [hnew]; exact nofun)
  rw [read, meaning_strict]
  dsimp only
  rw [htake]
  rfl

theorem assign_romPath (hnew : e.has .romPath = false) (hne : text ≠ "") :
    e.assign .romPath text = .ok (e.say (.romPath text)) := by
  have hempty : text.isEmpty = false := by simpa using hne
  rw [assign, hnew, fill, hempty]
  rfl

theorem assign_output (hnew : e.has .output = false) (text : String) :
    e.assign .output text = .ok (e.say (.output text)) := by
  rw [assign, hnew]
  rfl

theorem assign_loadAddress {a : Address} (hnew : e.has .loadAddress = false)
    (htext : WritesAddress a text) : e.assign .loadAddress text = .ok (e.say (.loadAddress a)) := by
  rw [assign, hnew, fill, readAddress_of_writesAddress htext]
  rfl

/-- **One part is read however it is spelled.** -/
theorem exists_read_of_isSpelled {phrase : List String} (h : d.settle = .ok e)
    (hnew : e.covers p.topic = false) (hspelled : p.IsSpelled phrase) :
    ∃ d' : Draft, d'.settle = .ok (e.say p) ∧
      ∀ rest, d.read (phrase ++ rest) = d'.read rest := by
  have hpending := (settle_eq_ok h).1
  -- A value of its own is held back, and an attached one leaves a draft that holds nothing back.
  have hheld {slot : Slot} {text : String} (hassign : e.assign slot text = .ok (e.say p)) :
      ({ e with pending := .held slot text } : Draft).settle = .ok (e.say p) :=
    (settle_held hpending slot text).trans hassign
  have hsaid : (e.say p).settle = .ok (e.say p) := settle_of_pending (by rw [pending_say, hpending])
  cases hspelled with
  | romPath hne hplain =>
    exact ⟨_, hheld (assign_romPath hnew hne), read_path h hnew hplain⟩
  | @outputLong text hplain =>
    exact ⟨_, hheld (assign_output hnew text), read_separate h meaning_outputLong hplain⟩
  | outputLongAttached text =>
    exact ⟨_, hsaid, read_attached h (meaning_outputLongAttached text) (assign_output hnew text)⟩
  | @outputShort text hplain =>
    exact ⟨_, hheld (assign_output hnew text), read_separate h meaning_outputShort hplain⟩
  | outputShortEquals text =>
    exact ⟨_, hsaid, read_attached h (meaning_outputShortEquals text) (assign_output hnew text)⟩
  | @outputShortAttached text hne hhead =>
    have hmeaning := meaning_outputShortAttached hne hhead
    exact ⟨_, hsaid, read_attached h hmeaning (assign_output hnew text)⟩
  | loadAddress htext =>
    have hplain := isPlain_of_writesAddress htext
    exact ⟨_, hheld (assign_loadAddress hnew htext), read_separate h meaning_loadAddress hplain⟩
  | @loadAddressAttached a text htext =>
    have hmeaning := meaning_loadAddressAttached text
    exact ⟨_, hsaid, read_attached h hmeaning (assign_loadAddress hnew htext)⟩
  | bareUnknown => exact ⟨_, hsaid, read_bareUnknown h hnew⟩
  | strict => exact ⟨_, hsaid, read_strict h hnew⟩

/-! ### Reading all parts -/

theorem finish_of_settle (h : d.settle = .ok e) : d.finish = e.finish := by
  rw [finish, finish, h, settle_of_pending (settle_eq_ok h).1]

/-- **All parts are read**, whatever has been said before, if it was about other things. -/
theorem read_flatten {parts : List Part} {phrases : List (List String)} (h : d.settle = .ok e)
    (hnew : ∀ p ∈ parts, e.covers p.topic = false) (hdistinct : (parts.map Part.topic).Nodup)
    (hspelled : List.Forall₂ Part.IsSpelled parts phrases) :
    d.read phrases.flatten = (parts.foldl say e).finish := by
  induction hspelled generalizing d e with
  | nil => exact finish_of_settle h
  | @cons p phrase parts phrases hp hparts ih =>
    rw [List.map_cons, List.nodup_cons] at hdistinct
    obtain ⟨d', hsettle, hread⟩ := exists_read_of_isSpelled h (hnew p List.mem_cons_self) hp
    have hrest : ∀ q ∈ parts, (e.say p).covers q.topic = false := by
      intro q hq
      have htopic : p.topic ≠ q.topic := by
        intro htopic
        exact hdistinct.1 (htopic ▸ List.mem_map_of_mem hq)
      rw [covers_say_of_ne e htopic]
      exact hnew q (List.mem_cons_of_mem _ hq)
    rw [List.flatten_cons, hread, List.foldl_cons]
    exact ih hsettle hrest hdistinct.2

end Draft

/-! ### What was said -/

namespace Selection

variable {c : Selection} {arguments : List String}

/-- The draft in which all has been said. -/
def draft (c : Selection) : Draft where
  romPath := some c.romPath
  output := c.output
  loadAddress := c.loadAddress
  bareUnknown := c.bareUnknown
  strict := c.strict

theorem foldl_say_parts (c : Selection) : c.parts.foldl Draft.say {} = c.draft := by
  rcases c with ⟨romPath, _ | output, _ | loadAddress, _ | _, _ | _⟩ <;> rfl

theorem nodup_topics (c : Selection) : (c.parts.map Part.topic).Nodup := by
  rcases c with ⟨romPath, _ | output, _ | loadAddress, _ | _, _ | _⟩ <;> simp [parts, Part.topic]

/-- What is asked for, with the usual values where nothing was said. -/
def request (c : Selection) : Request := c.draft.request c.romPath

/-- **The request that is read** depends on what is said, and on neither the order nor the
spelling. -/
theorem readInvocation_of_isSpelled (h : c.IsSpelled arguments) :
    readInvocation arguments = .ok (.disassemble c.request) := by
  cases h with
  | @intro name parts phrases hname horder hspelled =>
    have hdistinct : (parts.map Part.topic).Nodup :=
      (horder.map Part.topic).nodup_iff.mpr c.nodup_topics
    have hnothing : ∀ p ∈ parts, Draft.covers {} p.topic = false := by
      intro p _
      cases p <;> rfl
    have hcommand : readInvocation (name :: phrases.flatten) = Draft.read {} phrases.flatten := by
      rcases hname with rfl | rfl <;> rfl
    calc readInvocation (name :: phrases.flatten)
        = Draft.read {} phrases.flatten := hcommand
      _ = (parts.foldl Draft.say {}).finish := Draft.read_flatten rfl hnothing hdistinct hspelled
      _ = c.draft.finish := by rw [foldl_say_of_perm horder hdistinct, foldl_say_parts]
      _ = .ok (.disassemble c.request) := rfl

end Selection

/-- A request is for what was said, with the usual values where nothing was. -/
structure Request.Meets (r : Request) (c : Selection) : Prop where
  romPath : r.romPath = c.romPath
  output : r.output = c.output.getD "stdout"
  loadAddress : r.options.loadAddress = c.loadAddress.getD 0x200
  unknownStyle : r.options.unknownStyle = .bare ↔ c.bareUnknown
  trailingByte : r.options.trailingByte = .reject ↔ c.strict

theorem Selection.request_meets (c : Selection) : c.request.Meets c where
  romPath := rfl
  output := rfl
  loadAddress := rfl
  unknownStyle := by cases h : c.bareUnknown <;> simp [request, Draft.request, draft, h]
  trailingByte := by cases h : c.strict <;> simp [request, Draft.request, draft, h]

/-- **All command lines that say the same run alike**, and what they run is the request for what
they say, in every system. On a disk that is what is promised of the request. -/
theorem exists_request_of_isSpelled {c : Selection} {arguments : List String}
    (h : c.IsSpelled arguments) :
    ∃ r : Request, r.Meets c ∧ readInvocation arguments = .ok (.disassemble r) ∧
      (∀ (m : Type → Type) (H : Type) [Monad m] (s : System m H),
        run s arguments = (Invocation.disassemble r).run s ∧
          ∀ others, c.IsSpelled others → run s others = run s arguments) ∧
      ∀ d : Disk, r.IsCarriedOut d (run World.system arguments { disk := d }).1
        (run World.system arguments { disk := d }).2 := by
  have hrun : ∀ (m : Type → Type) (H : Type) [Monad m] (s : System m H) (others : List String),
      c.IsSpelled others → run s others = (Invocation.disassemble c.request).run s := by
    intro m H _ s others hothers
    rw [run, Selection.readInvocation_of_isSpelled hothers]
  refine ⟨c.request, c.request_meets, Selection.readInvocation_of_isSpelled h, ?_, ?_⟩
  · intro m H _ s
    refine ⟨hrun m H s arguments h, fun others hothers => ?_⟩
    rw [hrun m H s others hothers, hrun m H s arguments h]
  · intro d
    rw [hrun _ _ World.system arguments h]
    exact c.request.isCarriedOut_run d

/-- A selection that says everything. -/
def wordy : Selection where
  romPath := "pong.ch8"
  output := some "out=1.asm"
  loadAddress := some 0x60A
  bareUnknown := true
  strict := true

/-- It may be said in few characters, or at length and backwards. -/
theorem exists_request_of_isSpelled_wordy :
    wordy.IsSpelled ["d", "--strict", "-oout=1.asm", "--load-address=0X0060a", "pong.ch8",
      "--bare-unknown"] ∧
    (∃ r : Request, r.Meets wordy ∧ readInvocation ["d", "--strict", "-oout=1.asm",
      "--load-address=0X0060a", "pong.ch8", "--bare-unknown"] = .ok (.disassemble r)) ∧
    run World.system ["disassemble", "--bare-unknown", "pong.ch8", "--load-address", "1546",
        "--output", "out=1.asm", "--strict"] =
      run World.system ["d", "--strict", "-oout=1.asm", "--load-address=0X0060a", "pong.ch8",
        "--bare-unknown"] := by
  have hhex : WritesAddress 0x60A "0X0060a" :=
    writesAddress_hex 0x60A .lower (k := 5) (by decide) (by decide) (.inr rfl)
  have hdecimal : WritesAddress 0x60A "1546" := writesAddress_decimal 0x60A 0
  have hshort : wordy.IsSpelled ["d", "--strict", "-oout=1.asm", "--load-address=0X0060a",
      "pong.ch8", "--bare-unknown"] := by
    have hspelled : List.Forall₂ Part.IsSpelled
        [.strict, .output "out=1.asm", .loadAddress 0x60A, .romPath "pong.ch8", .bareUnknown]
        [["--strict"], ["-o" ++ "out=1.asm"], ["--load-address=" ++ "0X0060a"], ["pong.ch8"],
          ["--bare-unknown"]] :=
      .cons .strict (.cons (.outputShortAttached (by decide) (by decide))
        (.cons (.loadAddressAttached hhex) (.cons (.romPath (by decide) (by decide))
          (.cons .bareUnknown .nil))))
    exact .intro (.inr rfl) (by decide) hspelled
  have hlong : wordy.IsSpelled ["disassemble", "--bare-unknown", "pong.ch8", "--load-address",
      "1546", "--output", "out=1.asm", "--strict"] := by
    have hspelled : List.Forall₂ Part.IsSpelled
        [.bareUnknown, .romPath "pong.ch8", .loadAddress 0x60A, .output "out=1.asm", .strict]
        [["--bare-unknown"], ["pong.ch8"], ["--load-address", "1546"], ["--output", "out=1.asm"],
          ["--strict"]] :=
      .cons .bareUnknown (.cons (.romPath (by decide) (by decide))
        (.cons (.loadAddress hdecimal) (.cons (.outputLong (by decide)) (.cons .strict .nil))))
    exact .intro (.inl rfl) (by decide) hspelled
  obtain ⟨r, hmeets, hread, hrun, -⟩ := exists_request_of_isSpelled hshort
  exact ⟨hshort, ⟨r, hmeets, hread⟩, (hrun _ _ World.system).2 _ hlong⟩

end Chip8.Command
