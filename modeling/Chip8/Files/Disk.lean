import Chip8.Files.Path

/-!
# A disk

A disk is a finite table from locations to what is there, together with the working directory. A
location lists the names from the root down, and holds neither `.` nor `..`. There are no links, so
a location has one spelling.

Following a path goes name by name. Each name is looked up in what has been reached so far, and
that has to be a directory.

## Rights

At a location it may be refused to read, to write or to look for names, for lack of a right or for
any other reason. What is refused stands in a list of its own beside the table, and nothing that a
program does changes it. Rights are looked at where they are needed and no earlier. A directory in
which names may not be looked for is reported before a name in it that is too long, and whether a
directory may be written to matters only where a new file is to be made in it.

## Main definitions

* `Files.Location`, `Files.Device`, `Files.Entry`, `Files.Access`, `Files.Disk`
* `Files.Disk.get?`, `Files.Disk.put` — the table
* `Files.Disk.refusal?`, `Files.Disk.permit` — what is refused
* `Files.Disk.follow` — where a path leads
* `Files.Disk.read` — the content of a file
* `Files.Disk.create`, `Files.Disk.write` — an emptied or new file, and more bytes for it

## Main results

* `Files.Disk.get?_put` — what the table holds after a change
-/

namespace Chip8.Files

/-- The names from the root down. -/
abbrev Location := List String

/-- A special file, which keeps nothing of what is written to it. -/
inductive Device
  /-- Takes everything, and nothing can be read of it. -/
  | sink
  /-- Has no room for a single byte, and is read as zeros without end. -/
  | full
  deriving DecidableEq, Repr

/-- What is at a location. -/
inductive Entry
  | directory
  | file (content : List Byte)
  | device (kind : Device)
  deriving DecidableEq, Repr

/-- All that can be read at a place. Zeros without end do not fit into any memory. -/
def Entry.content : Entry → Except SystemFault (List Byte)
  | directory => .error .isDirectory
  | file content => .ok content
  | device .sink => .ok []
  | device .full => .error .outOfMemory

/-- What may be refused at a location. -/
inductive Access
  | reading
  /-- Writing to a file, or making a new one in a directory. -/
  | writing
  /-- Looking for a name in a directory. -/
  | entering
  deriving DecidableEq, Repr

/-- A disk, and the place in it from which paths are followed. -/
structure Disk where
  /-- The directory in which relative paths begin. -/
  home : Location := []
  table : List (Location × Entry) := [([], .directory)]
  /-- What is refused at a location, and why. -/
  refusals : List ((Location × Access) × SystemFault) := []
  deriving DecidableEq, Repr

namespace Disk

/-! ### The table -/

/-- What is at a location. -/
def get? (d : Disk) (l : Location) : Option Entry := d.table.lookup l

/-- The table with `e` at `l`, in place of what was there. -/
def putIn (l : Location) (e : Entry) : List (Location × Entry) → List (Location × Entry)
  | [] => [(l, e)]
  | (l', e') :: rest => if l' = l then (l, e) :: rest else (l', e') :: putIn l e rest

/-- The disk with `e` at `l`, in place of what was there. -/
def put (d : Disk) (l : Location) (e : Entry) : Disk := { d with table := putIn l e d.table }

theorem lookup_putIn (l k : Location) (e : Entry) (table : List (Location × Entry)) :
    (putIn l e table).lookup k = if k = l then some e else table.lookup k := by
  induction table with
  | nil =>
    simp only [putIn, List.lookup_cons, List.lookup_nil]
    by_cases h : k = l
    · simp [h]
    · simp [h, beq_eq_false_iff_ne.mpr h]
  | cons row rest ih =>
    obtain ⟨l', e'⟩ := row
    simp only [putIn]
    split <;> rename_i hl
    · subst hl
      simp only [List.lookup_cons]
      by_cases h : k = l'
      · simp [h]
      · simp [h, beq_eq_false_iff_ne.mpr h]
    · simp only [List.lookup_cons, ih]
      by_cases h : k = l'
      · subst h
        simp [hl]
      · simp [beq_eq_false_iff_ne.mpr h]

theorem get?_put (d : Disk) (l k : Location) (e : Entry) :
    (d.put l e).get? k = if k = l then some e else d.get? k :=
  lookup_putIn l k e d.table

/-! ### Rights -/

/-- Why something is refused at a location, if it is. -/
def refusal? (d : Disk) (access : Access) (l : Location) : Option SystemFault :=
  d.refusals.lookup (l, access)

/-- Goes on unless something is refused at a location. -/
def permit (d : Disk) (access : Access) (l : Location) : Except SystemFault Unit :=
  match d.refusal? access l with
  | some fault => .error fault
  | none => .ok ()

/-! ### Following paths -/

/-- Goes on if there is a directory at a location in which names may be looked for. -/
def pass (d : Disk) (l : Location) : Except SystemFault Unit :=
  if d.get? l = some .directory then d.permit .entering l else .error .notDirectory

/-- Where `name` leads from `l`. -/
def enter (d : Disk) (l : Location) (name : String) : Except SystemFault Location := do
  d.pass l
  if name = "." then .ok l
  else if name = ".." then .ok l.dropLast
  else if name.utf8ByteSize > Path.longestName then .error .nameTooLong
  else if (d.get? (l ++ [name])).isNone then .error .notFound
  else .ok (l ++ [name])

/-- Where a path begins. -/
def start (d : Disk) (p : Path) : Location := if p.absolute then [] else d.home

/-- Where names lead, one after the other. -/
def follow (d : Disk) (l : Location) (names : List String) : Except SystemFault Location :=
  names.foldlM d.enter l

/-! ### Reading and writing -/

/-- All that can be read at the place that a path leads to. -/
def read (d : Disk) (text : String) : Except SystemFault (List Byte) := do
  let p ← Path.parse text
  let l ← d.follow (d.start p) p.names
  match d.get? l with
  | none => .error .notFound
  | some e =>
    if p.slashed ∧ e ≠ .directory then .error .notDirectory
    else do
      d.permit .reading l
      e.content

/-- The disk with an empty file at a location. A device stays as it is. -/
def emptied (d : Disk) (l : Location) : Disk :=
  match d.get? l with
  | some (.device _) => d
  | _ => d.put l (.file [])

/-- The file at a location within a directory, emptied if it exists and new if it does not. A file
that exists has to allow it, and else its directory. -/
def createIn (d : Disk) (parent : Location) (name : String) :
    Except SystemFault (Disk × Location) :=
  let l := parent ++ [name]
  if name.utf8ByteSize > Path.longestName then .error .nameTooLong
  else if d.get? l = some .directory then .error .isDirectory
  else do
    d.permit .writing (if (d.get? l).isSome then l else parent)
    .ok (d.emptied l, l)

/-- Empties the file that a path leads to, or creates it. Its directory has to exist. -/
def create (d : Disk) (text : String) : Except SystemFault (Disk × Location) := do
  let p ← Path.parse text
  match p.names.getLast? with
  | none => .error .isDirectory
  | some name =>
    let parent ← d.follow (d.start p) p.names.dropLast
    d.pass parent
    if name = "." ∨ name = ".." ∨ p.slashed then .error .isDirectory
    else d.createIn parent name

/-- Adds bytes to the file at a location. -/
def write (d : Disk) (l : Location) (bytes : List Byte) : Except SystemFault Disk :=
  match d.get? l with
  | some (.file content) => .ok (d.put l (.file (content ++ bytes)))
  | some (.device .full) => if bytes.isEmpty then .ok d else .error .noSpace
  | some (.device .sink) => .ok d
  | some .directory => .error .isDirectory
  | none => .error .notFound

end Disk

end Chip8.Files
