import Chip8.Files.Disk

/-!
# Writing one file of a disk

A file that is created or emptied is then written to by its location, but it is read by its path.
That the path still leads there is not a matter of course, since paths are followed through the very
table that was changed. It holds because a file takes the place of no directory: directories stay
what they are, and what exists goes on existing, so paths that led somewhere lead there still. What
is refused does not change at all.

## Main definitions

* `Files.Disk.locate` — where a path leads
* `Files.Disk.IsDevice` — a path that leads to a device
* `Files.Disk.IsWritten` — a disk on which one file is all that has changed

## Main results

* `Files.Disk.put_put` — the last change of a place counts
* `Files.Disk.follow_put` — paths lead where they led
* `Files.Disk.create_cases` — what can be created
* `Files.Disk.isWritten_of_create` — what has been created and written is there, and nothing else
  has changed
-/

namespace Chip8.Files.Disk

variable {d d' : Disk} {text : String} {l : Location}

/-! ### The table -/

theorem putIn_putIn (l : Location) (e e' : Entry) (table : List (Location × Entry)) :
    putIn l e' (putIn l e table) = putIn l e' table := by
  induction table with
  | nil => simp [putIn]
  | cons row rest ih =>
    obtain ⟨l', e''⟩ := row
    by_cases h : l' = l
    · simp [putIn, h]
    · simp [putIn, h, ih]

/-- The last change of a place counts. -/
theorem put_put (d : Disk) (l : Location) (e e' : Entry) : (d.put l e).put l e' = d.put l e' :=
  congrArg (fun table => ({ d with table } : Disk)) (putIn_putIn l e e' d.table)

@[simp] theorem get?_put_self (d : Disk) (l : Location) (e : Entry) :
    (d.put l e).get? l = some e := by
  rw [get?_put, if_pos rfl]

theorem get?_put_of_ne (d : Disk) {l k : Location} (e : Entry) (h : k ≠ l) :
    (d.put l e).get? k = d.get? k := by
  rw [get?_put, if_neg h]

/-! ### Following paths -/

theorem bind_eq_ok_iff {ε α β : Type} {x : Except ε α} {f : α → Except ε β} {b : β} :
    (x >>= f) = .ok b ↔ ∃ a, x = .ok a ∧ f a = .ok b := by
  cases x <;> simp [bind, Except.bind]

theorem bind_unit_eq_ok_iff {ε β : Type} {x : Except ε Unit} {f : Unit → Except ε β} {b : β} :
    (x >>= f) = .ok b ↔ x = .ok () ∧ f () = .ok b := by
  cases x <;> simp [bind, Except.bind]

/-- Where a path leads. -/
def locate (d : Disk) (text : String) : Except SystemFault Location := do
  let p ← Path.parse text
  d.follow (d.start p) p.names

/-- A path leads to a device. -/
def IsDevice (d : Disk) (text : String) : Prop :=
  ∃ l kind, d.locate text = .ok l ∧ d.get? l = some (.device kind)

theorem permit_eq_ok_iff {access : Access} :
    d.permit access l = .ok () ↔ d.refusal? access l = none := by
  rw [permit]
  cases d.refusal? access l <;> simp

/-- Names may be looked for in a directory that does not refuse it. -/
theorem pass_eq_ok_iff :
    d.pass l = .ok () ↔ d.get? l = some .directory ∧ d.refusal? .entering l = none := by
  rw [pass, ← permit_eq_ok_iff]
  by_cases h : d.get? l = some .directory <;> simp [h]

/-- Where a name leads. -/
theorem enter_eq_ok_iff {k : Location} {name : String} :
    d.enter l name = .ok k ↔ d.pass l = .ok () ∧
      (name = "." ∧ k = l ∨
        name ≠ "." ∧ name = ".." ∧ k = l.dropLast ∨
        name ≠ "." ∧ name ≠ ".." ∧ name.utf8ByteSize ≤ Path.longestName ∧
          (d.get? (l ++ [name])).isSome ∧ k = l ++ [name]) := by
  have hok : ∀ k' : Location, (Except.ok k' : Except SystemFault Location) = .ok k ↔ k = k' :=
    fun k' => ⟨fun h => (Except.ok.inj h).symm, fun h => h ▸ rfl⟩
  rw [enter, bind_unit_eq_ok_iff]
  refine and_congr_right fun _ => ?_
  by_cases hdot : name = "."
  · simp [hdot, hok, -Except.ok.injEq]
  · by_cases hdots : name = ".."
    · simp [hdots, hok, -Except.ok.injEq]
    · by_cases hsize : name.utf8ByteSize > Path.longestName
      · simp [hdot, hdots, hsize, Nat.not_le.mpr hsize]
      · cases d.get? (l ++ [name]) with
        | none => simp [hdot, hdots, hsize]
        | some e =>
          simp [hdot, hdots, hsize, Nat.not_lt.mp hsize, hok, -Except.ok.injEq]

/-- Putting a file where there is no directory keeps the directories. -/
theorem get?_put_eq_directory_iff (hl : d.get? l ≠ some .directory) (content : List Byte)
    (k : Location) :
    (d.put l (.file content)).get? k = some .directory ↔ d.get? k = some .directory := by
  rw [get?_put]
  split
  · rename_i hk
    rw [hk]
    exact ⟨fun h => (nomatch h), fun h => absurd h hl⟩
  · exact Iff.rfl

theorem isSome_get?_put {k : Location} (h : (d.get? k).isSome) (e : Entry) :
    ((d.put l e).get? k).isSome := by
  rw [get?_put]
  split
  · rfl
  · exact h

theorem pass_put (hl : d.get? l ≠ some .directory) (content : List Byte) {k : Location}
    (h : d.pass k = .ok ()) : (d.put l (.file content)).pass k = .ok () := by
  obtain ⟨hdirectory, hentering⟩ := pass_eq_ok_iff.mp h
  exact pass_eq_ok_iff.mpr ⟨(get?_put_eq_directory_iff hl content k).mpr hdirectory, hentering⟩

theorem enter_put (hl : d.get? l ≠ some .directory) (content : List Byte) {k k' : Location}
    {name : String} (h : d.enter k name = .ok k') :
    (d.put l (.file content)).enter k name = .ok k' := by
  rw [enter_eq_ok_iff] at h ⊢
  obtain ⟨hpass, hname⟩ := h
  refine ⟨pass_put hl content hpass, ?_⟩
  rcases hname with hdot | hdots | ⟨hdot, hdots, hsize, hsome, hk'⟩
  · exact .inl hdot
  · exact .inr (.inl hdots)
  · exact .inr (.inr ⟨hdot, hdots, hsize, isSome_get?_put hsome _, hk'⟩)

theorem follow_cons (d : Disk) (k : Location) (name : String) (names : List String) :
    d.follow k (name :: names) = d.enter k name >>= fun k => d.follow k names :=
  List.foldlM_cons

theorem follow_append_singleton (d : Disk) (k : Location) (names : List String) (name : String) :
    d.follow k (names ++ [name]) = d.follow k names >>= fun k => d.enter k name := by
  rw [follow, List.foldlM_append]
  refine congrArg (d.follow k names >>= ·) (funext fun k => ?_)
  rw [List.foldlM_cons]
  cases d.enter k name <;> rfl

/-- **Paths lead where they led** once a file has been put where there is no directory. -/
theorem follow_put (hl : d.get? l ≠ some .directory) (content : List Byte) {k k' : Location}
    {names : List String} (h : d.follow k names = .ok k') :
    (d.put l (.file content)).follow k names = .ok k' := by
  induction names generalizing k with
  | nil => exact h
  | cons name names ih =>
    rw [follow_cons, bind_eq_ok_iff] at h ⊢
    obtain ⟨k'', hname, hnames⟩ := h
    exact ⟨k'', enter_put hl content hname, ih hnames⟩

/-! ### Creating files -/

/-- A path to a file of a directory: where it begins to be followed, and its last name. -/
structure LeadsInto (d : Disk) (text : String) (parent : Location) (name : String) : Prop where
  follows : ∃ p names, Path.parse text = .ok p ∧ p.slashed = false ∧ p.names = names ++ [name] ∧
    d.follow (d.start p) names = .ok parent
  passes : d.pass parent = .ok ()
  no_dots : name ≠ "." ∧ name ≠ ".."
  size_le : name.utf8ByteSize ≤ Path.longestName

theorem LeadsInto.locate {parent : Location} {name : String} (h : d.LeadsInto text parent name)
    (hsome : (d.get? (parent ++ [name])).isSome) : d.locate text = .ok (parent ++ [name]) := by
  obtain ⟨p, names, hparse, -, hnames, hfollow⟩ := h.follows
  have henter : d.enter parent name = .ok (parent ++ [name]) :=
    enter_eq_ok_iff.mpr
      ⟨h.passes, .inr (.inr ⟨h.no_dots.1, h.no_dots.2, h.size_le, hsome, rfl⟩)⟩
  rw [Disk.locate, hparse]
  show d.follow (d.start p) p.names = _
  rw [hnames, follow_append_singleton, hfollow]
  exact henter

theorem LeadsInto.put {parent : Location} {name : String} (h : d.LeadsInto text parent name)
    (hl : d.get? l ≠ some .directory) (content : List Byte) :
    (d.put l (.file content)).LeadsInto text parent name := by
  obtain ⟨p, names, hparse, hslashed, hnames, hfollow⟩ := h.follows
  exact
    { follows := ⟨p, names, hparse, hslashed, hnames, follow_put hl content hfollow⟩
      passes := pass_put hl content h.passes
      no_dots := h.no_dots
      size_le := h.size_le }

/-- A file is read by a path that leads to it, unless that is refused. -/
theorem LeadsInto.read {parent : Location} {name : String} (h : d.LeadsInto text parent name)
    {content : List Byte} (hfile : d.get? (parent ++ [name]) = some (.file content))
    (hreading : d.refusal? .reading (parent ++ [name]) = none) : d.read text = .ok content := by
  have hlocate := h.locate (by rw [hfile]; rfl)
  obtain ⟨p, -, hparse, hslashed, -, -⟩ := h.follows
  rw [Disk.locate, hparse] at hlocate
  have hfollow : d.follow (d.start p) p.names = .ok (parent ++ [name]) := hlocate
  have hpermit : d.permit .reading (parent ++ [name]) = .ok () := permit_eq_ok_iff.mpr hreading
  simp only [Disk.read, hparse, bind, Except.bind, hfollow, hfile, hslashed, Bool.false_eq_true,
    false_and, if_false, hpermit, Entry.content]

theorem emptied_cases (d : Disk) (l : Location) :
    (∃ kind, d.get? l = some (.device kind)) ∨ d.emptied l = d.put l (.file []) := by
  rw [emptied]
  split
  · rename_i kind hkind
    exact .inl ⟨kind, hkind⟩
  · exact .inr rfl

theorem createIn_cases {parent : Location} {name : String}
    (h : d.createIn parent name = .ok (d', l)) :
    name.utf8ByteSize ≤ Path.longestName ∧ l = parent ++ [name] ∧ d.get? l ≠ some .directory ∧
      d' = d.emptied l := by
  rw [createIn] at h
  by_cases hsize : name.utf8ByteSize > Path.longestName
  · rw [if_pos hsize] at h
    exact nomatch h
  · rw [if_neg hsize] at h
    by_cases hplace : d.get? (parent ++ [name]) = some .directory
    · rw [if_pos hplace] at h
      exact nomatch h
    · rw [if_neg hplace] at h
      obtain ⟨-, h⟩ := bind_unit_eq_ok_iff.mp h
      obtain ⟨rfl, rfl⟩ := Prod.mk.inj (Except.ok.inj h)
      exact ⟨Nat.not_lt.mp hsize, rfl, hplace, rfl⟩

/-- **What can be created** is a file of a directory, and it is emptied unless it is a device. -/
theorem create_cases (h : d.create text = .ok (d', l)) :
    ∃ parent name, d.LeadsInto text parent name ∧ l = parent ++ [name] ∧
      d.get? l ≠ some .directory ∧ d' = d.emptied l := by
  rw [create, bind_eq_ok_iff] at h
  obtain ⟨p, hparse, h⟩ := h
  cases hlast : p.names.getLast? with
  | none =>
    rw [hlast] at h
    exact nomatch h
  | some name =>
    obtain ⟨names, hnames⟩ := List.getLast?_eq_some_iff.mp hlast
    rw [hlast] at h
    obtain ⟨parent, hfollow, h⟩ := bind_eq_ok_iff.mp h
    obtain ⟨hpass, h⟩ := bind_unit_eq_ok_iff.mp h
    rw [hnames, List.dropLast_concat] at hfollow
    by_cases hlastName : name = "." ∨ name = ".." ∨ p.slashed = true
    · rw [if_pos hlastName] at h
      exact nomatch h
    · rw [if_neg hlastName] at h
      simp only [not_or, Bool.not_eq_true] at hlastName
      obtain ⟨hdot, hdots, hslashed⟩ := hlastName
      obtain ⟨hsize, rfl, hplace⟩ := createIn_cases h
      refine ⟨parent, name, ?_, rfl, hplace⟩
      exact
        { follows := ⟨p, names, hparse, hslashed, hnames, hfollow⟩
          passes := hpass
          no_dots := ⟨hdot, hdots⟩
          size_le := hsize }

/-- On this disk a path leads to a file that holds `content`, and that is what is read there unless
reading is refused. At every other place is what there is on `d`, and the same is refused. -/
structure IsWritten (d d' : Disk) (text : String) (content : List Byte) : Prop where
  place : ∃ l, d'.locate text = .ok l ∧ d'.get? l = some (.file content) ∧
    (d.refusal? .reading l = none → d'.read text = .ok content) ∧ ∀ k, k ≠ l → d'.get? k = d.get? k
  home : d'.home = d.home
  refusals : d'.refusals = d.refusals

/-- **What was created and written is there and can be read back**, and nothing else has changed. -/
theorem isWritten_of_create (h : d.create text = .ok (d', l)) (hdevice : ¬ d.IsDevice text) :
    d' = d.put l (.file []) ∧ ∀ content, d.IsWritten (d.put l (.file content)) text content := by
  obtain ⟨parent, name, hleads, rfl, hplace, rfl⟩ := create_cases h
  rcases d.emptied_cases (parent ++ [name]) with ⟨kind, hkind⟩ | hput
  · exact absurd ⟨_, kind, hleads.locate (by rw [hkind]; rfl), hkind⟩ hdevice
  · refine ⟨hput, fun content => ?_⟩
    -- What was there was no directory, so no path led through it and none has changed.
    have hleads' := hleads.put hplace content
    have hfile := get?_put_self d (parent ++ [name]) (.file content)
    exact
      { place := ⟨parent ++ [name], hleads'.locate (by rw [hfile]; rfl), hfile,
          hleads'.read hfile, fun k hk => get?_put_of_ne d _ hk⟩
        home := rfl
        refusals := rfl }

end Chip8.Files.Disk
