import Chip8.Command.Run
import Chip8.Proofs.Files.Disk
import Chip8.Proofs.Listing.Delivery

/-!
# What a run leaves behind

A run reads a program, opens the output, checks the program and writes the listing, in this order,
and each of the first three can be the end of it. What it leaves behind depends on how far it came.
Only a run that came to the end has written anything. One that opened its output and was refused
then leaves it empty, and one that came less far leaves no trace.

The program is read as a whole before the output is opened. So the output may be the program file
itself, and no case of this file is about that one.

Why a file cannot be read or created does not matter either. It may be missing, be a directory, have
a path that is none, or refuse it; the disk says which, and the run passes that on.

## One equation for each way to end

Here the system is a `World`, and what a run does to it is a value. Every step of a run has one
equation, and `perform_of_unread`, `perform_of_unopened`, `perform_of_refused` and
`perform_of_listed` give the whole run in each of the four cases. What is promised is read off from
these.

Whether the output is standard output or a file matters only until it is open. What the rest of a
run relies on is `IsOpened`, which holds of both.

## Main definitions

* `Command.Request.NamesStandard` — the outputs that stand for standard output
* `Command.Request.Opens` — the output is standard output, or a file that can be created
* `Command.Request.HasReceived` — what the output has received, while all else is as it was
* `Command.Request.IsOpened` — what can be relied on once the output is open
* `Command.Request.IsCarriedOut` — what is promised of the run of a request

## Main results

* `Command.Request.perform_of_listed` and its like — the run of a request, case by case
* `Command.run_of_status` — a run that ends in a usage error does nothing
* `Command.run_isCarriedOut` — the headline: every request is carried out as promised
-/

namespace Chip8

open Files (Disk Location Output World)

/-! ### Steps -/

namespace Files.World

variable {α β : Type}

theorem bind_apply (x : StateM World α) (f : α → StateM World β) (w : World) :
    (x >>= f) w = f (x w).1 (x w).2 := rfl

theorem reportAll_apply (messages : List Log.Message) (w : World) :
    World.system.reportAll messages w = ((), { w with log := w.log ++ messages }) := by
  induction messages generalizing w with
  | nil =>
    show ((), w) = ((), { w with log := w.log ++ [] })
    rw [List.append_nil]
  | cons message messages ih =>
    show World.system.reportAll messages (w.report message) = _
    rw [ih, report]
    show ((), { w with log := w.log ++ [message] ++ messages }) = _
    rw [List.append_assoc]
    rfl

theorem create_of_error {w : World} {path : String} {fault : SystemFault}
    (h : w.disk.create path = .error fault) : w.create path = (.error fault, w) := by
  rw [create, h]

theorem create_of_ok {w : World} {path : String} {disk : Disk} {l : Location}
    (h : w.disk.create path = .ok (disk, l)) : w.create path = (.ok l, { w with disk }) := by
  rw [create, h]

theorem readProgram_of_error {w : World} {path : String} {fault : SystemFault}
    (h : w.disk.read path = .error fault) :
    World.system.readProgram path w = (.error { path, fault }, w) := by
  have hread : World.system.read path w = (.error fault, w) := congrArg (·, w) h
  rw [System.readProgram, bind_apply, hread]
  rfl

theorem readProgram_of_ok {w : World} {path : String} {program : List Byte}
    (h : w.disk.read path = .ok program) :
    World.system.readProgram path w =
      (.ok program, w.report (.loaded program.length path)) := by
  have hread : World.system.read path w = (.ok program, w) := congrArg (·, w) h
  rw [System.readProgram, bind_apply, hread]
  rfl

end Files.World

namespace Command

open Files.World (bind_apply readProgram_of_error readProgram_of_ok)

variable {r : Request} {d opened : Disk} {w : World} {output : Output Location}
  {program : List Byte} {fault : SystemFault}

namespace Request

/-! ### Opening the output -/

/-- The output is standard output: it is called by this name, or not named at all. -/
def NamesStandard (r : Request) : Prop := r.output = "" ∨ r.output = "stdout"

instance (r : Request) : Decidable r.NamesStandard :=
  inferInstanceAs (Decidable (r.output = "" ∨ r.output = "stdout"))

theorem isStandard_iff : r.isStandard = true ↔ r.NamesStandard := by
  rw [isStandard, Bool.or_eq_true, String.isEmpty_iff, beq_iff_eq]
  exact Iff.rfl

theorem destination_eq (r : Request) :
    r.destination = if r.NamesStandard then "stdout" else r.output := by
  simp only [destination, isStandard_iff]
  rfl

/-- The output is standard output, or a file that can be created. Devices are left out, since what
is written to them is not there to be read. -/
def Opens (r : Request) (d : Disk) : Prop :=
  r.NamesStandard ∨ (∃ created, d.create r.output = .ok created) ∧ ¬ d.IsDevice r.output

/-- The output has received `content`, which a file holds instead of what it held on the disk `d`.
All else is as it was on `d`, and nothing else is on standard output. -/
structure HasReceived (r : Request) (d : Disk) (w : World) (content : List Byte) : Prop where
  output : w.output = if r.NamesStandard then content else []
  disk : if r.NamesStandard then w.disk = d else d.IsWritten w.disk r.output content

/-- On the disk `d` the output of a request is opened as `output`, which leaves `opened`, and what
is written to it then is received. -/
structure IsOpened (r : Request) (d : Disk) (output : Output Location) (opened : Disk) : Prop where
  opens {w : World} : w.disk = d →
    r.openOutput World.system w = (.ok output, { w with disk := opened })
  empty {w : World} : w.disk = opened → w.output = [] → r.HasReceived d w []
  receives {w : World} (content : List Byte) : w.disk = opened → w.output = [] →
    ∃ w', w.write content output = (.ok (), w') ∧ w'.log = w.log ∧ r.HasReceived d w' content

theorem openOutput_of_standard (h : r.NamesStandard) (w : World) :
    r.openOutput World.system w = (.ok .standard, w) := by
  rw [openOutput, if_pos (isStandard_iff.mpr h)]
  rfl

theorem openOutput_of_file (h : ¬ r.NamesStandard) (w : World) :
    r.openOutput World.system w =
      ((w.create r.output).1.map .file, (w.create r.output).2) := by
  rw [openOutput, if_neg (mt isStandard_iff.mp h)]
  rfl

theorem isOpened_standard (h : r.NamesStandard) : r.IsOpened d .standard d where
  opens := by
    rintro w rfl
    exact openOutput_of_standard h w
  empty := by
    intro w hdisk houtput
    exact { output := by rw [if_pos h, houtput], disk := by rw [if_pos h, hdisk] }
  receives := by
    intro w content hdisk houtput
    refine ⟨_, rfl, rfl, ?_⟩
    exact
      { output := by
          rw [if_pos h]
          show w.output ++ content = content
          rw [houtput, List.nil_append]
        disk := by
          rw [if_pos h]
          exact hdisk }

theorem isOpened_file {l : Location} (h : ¬ r.NamesStandard)
    (hcreate : d.create r.output = .ok (opened, l)) (hdevice : ¬ d.IsDevice r.output) :
    r.IsOpened d (.file l) opened := by
  obtain ⟨rfl, hwritten⟩ := Disk.isWritten_of_create hcreate hdevice
  have hreceived {w : World} {content : List Byte} (hdisk : w.disk = d.put l (.file content))
      (houtput : w.output = []) : r.HasReceived d w content :=
    { output := by rw [if_neg h, houtput]
      disk := by
        rw [if_neg h, hdisk]
        exact hwritten content }
  exact
    { opens := by
        rintro w rfl
        rw [openOutput_of_file h, World.create_of_ok hcreate]
        rfl
      empty := hreceived
      receives := by
        intro w content hdisk houtput
        -- The file is empty now, so what is added to it is all it holds.
        have hwrite : w.disk.write l content = .ok (d.put l (.file content)) := by
          rw [hdisk, Disk.write, Disk.get?_put_self]
          show Except.ok ((d.put l (.file [])).put l (.file ([] ++ content))) = _
          rw [Disk.put_put, List.nil_append]
        refine ⟨{ w with disk := d.put l (.file content) }, ?_, rfl, hreceived rfl houtput⟩
        rw [World.write, hwrite] }

/-- **An output that can be opened receives what is written to it.** -/
theorem Opens.exists_isOpened (h : r.Opens d) : ∃ output opened, r.IsOpened d output opened := by
  by_cases hstandard : r.NamesStandard
  · exact ⟨.standard, d, isOpened_standard hstandard⟩
  · obtain ⟨⟨⟨opened, l⟩, hcreate⟩, hdevice⟩ := h.resolve_left hstandard
    exact ⟨.file l, opened, isOpened_file hstandard hcreate hdevice⟩

/-! ### The four ways to end -/

theorem perform_of_unread (h : w.disk.read r.romPath = .error fault) :
    r.perform World.system w = (.error (.unread { path := r.romPath, fault }), w) := by
  rw [perform, bind_apply, readProgram_of_error h]
  rfl

theorem perform_of_unopened (h : w.disk.read r.romPath = .ok program)
    (hfile : ¬ r.NamesStandard) (hcreate : w.disk.create r.output = .error fault) :
    r.perform World.system w =
      (.error (.unopened fault), w.report (.loaded program.length r.romPath)) := by
  have hopen : r.openOutput World.system (w.report (.loaded program.length r.romPath)) =
      (.error fault, w.report (.loaded program.length r.romPath)) := by
    have hcreate' : (w.report (.loaded program.length r.romPath)).disk.create r.output =
        .error fault := hcreate
    rw [openOutput_of_file hfile, World.create_of_error hcreate']
    rfl
  rw [perform, bind_apply, readProgram_of_ok h]
  simp only [bind_apply, hopen]
  rfl

/-- Once the output is open, what remains is to deliver the listing. -/
theorem perform_of_isOpened (h : d.read r.romPath = .ok program)
    (hopened : r.IsOpened d output opened) :
    r.perform World.system { disk := d } =
      r.deliver World.system program output
        { disk := opened, log := [.loaded program.length r.romPath] } := by
  rw [perform, bind_apply, readProgram_of_ok (w := { disk := d }) h]
  simp only [bind_apply]
  rw [hopened.opens rfl]
  rfl

theorem perform_of_refused (h : d.read r.romPath = .ok program)
    (hopened : r.IsOpened d output opened) {e : Listing.Error}
    (hcheck : Listing.check r.options program = { value := .error e }) :
    r.perform World.system { disk := d } =
      (.error (.unlisted r.romPath e),
        { disk := opened, log := [.loaded program.length r.romPath] }) := by
  rw [perform_of_isOpened h hopened, deliver, Listing.writeTo_of_check hcheck]
  rfl

theorem deliver_of_listed {ls : List Listing.Line} {w' : World}
    (hls : (Listing.lines r.options program).value = .ok ls)
    (hwrite : { w with log := w.log ++ (Listing.check r.options program).log }.write
      (Text.bytes (Listing.textOf ls)) output = (.ok (), w')) :
    r.deliver World.system program output w =
      (.ok (Listing.textOf ls).utf8ByteSize,
        w'.report (.wrote (Listing.textOf ls).utf8ByteSize r.destination)) := by
  obtain ⟨hresult, harrived, hlog⟩ :=
    Listing.writeTo_of_takesEverything hls Listing.takesEverything_empty
  have hsystem : World.system.write output (Text.bytes (Listing.textOf ls))
      { w with log := w.log ++ (Listing.check r.options program).log } = (.ok (), w') := hwrite
  rw [deliver, bind_apply, Files.World.reportAll_apply, hresult, harrived, hlog]
  simp only [bind_apply, hsystem]
  rfl

theorem perform_of_listed (h : d.read r.romPath = .ok program)
    (hopened : r.IsOpened d output opened) {ls : List Listing.Line}
    (hls : (Listing.lines r.options program).value = .ok ls) :
    ∃ w, r.perform World.system { disk := d } = (.ok (Listing.textOf ls).utf8ByteSize, w) ∧
      r.HasReceived d w (Text.bytes (Listing.textOf ls)) ∧
      w.log = .loaded program.length r.romPath :: (Listing.check r.options program).log ++
        [.wrote (Listing.textOf ls).utf8ByteSize r.destination] := by
  obtain ⟨w, hwrite, hlog, hreceived⟩ := hopened.receives
    (w := { disk := opened, log := .loaded program.length r.romPath ::
      (Listing.check r.options program).log }) (Text.bytes (Listing.textOf ls)) rfl rfl
  refine ⟨_, (perform_of_isOpened h hopened).trans (deliver_of_listed hls hwrite), ?_, ?_⟩
  -- The last report comes after the write, and it concerns neither the disk nor standard output.
  · exact { output := hreceived.output, disk := hreceived.disk }
  · show w.log ++ [_] = _
    rw [hlog]

/-! ### What is promised -/

/-- What is promised of the run of a request that began on the disk `d` and ended with `o` in the
world `w`. -/
structure IsCarriedOut (r : Request) (d : Disk) (o : Outcome) (w : World) : Prop where
  /-- A program that cannot be read is the end, and so is an output that cannot be opened. -/
  unread {fault : SystemFault} : d.read r.romPath = .error fault →
    o = .failed (.unread { path := r.romPath, fault }) ∧ o.status = 1 ∧ w.output = [] ∧ w.disk = d
  unopened {program : List Byte} {fault : SystemFault} : d.read r.romPath = .ok program →
    ¬ r.NamesStandard → d.create r.output = .error fault →
    o = .failed (.unopened fault) ∧ o.status = 1 ∧ w.output = [] ∧ w.disk = d
  /-- A program that is refused leaves an empty output. -/
  refused {program : List Byte} : d.read r.romPath = .ok program → r.Opens d →
    ¬ r.options.Accepts program →
    (∃ e, (Listing.disassemble r.options program).value = .error e ∧
      o = .failed (.unlisted r.romPath e)) ∧
    o.status = 1 ∧ w.output = [] ∧ r.HasReceived d w []
  /-- Else the output receives the text of the program as it was read, and the size that is reported
  is that of the text. -/
  listed {program : List Byte} : d.read r.romPath = .ok program → r.Opens d →
    r.options.Accepts program →
    ∃ text, (Listing.disassemble r.options program).value = .ok text ∧ o.status = 0 ∧
      r.HasReceived d w (Text.bytes text) ∧
      w.log = .loaded program.length r.romPath :: (Listing.check r.options program).log ++
        [.wrote text.utf8ByteSize (if r.NamesStandard then "stdout" else r.output)]

theorem run_of_perform_error {failure : Failure} {w' : World}
    (h : r.perform World.system w = (.error failure, w')) :
    (Invocation.disassemble r).run World.system w = (.failed failure, w') := by
  rw [Invocation.run, bind_apply, h]
  rfl

theorem run_of_perform_ok {n : Nat} {w' : World} (h : r.perform World.system w = (.ok n, w')) :
    (Invocation.disassemble r).run World.system w = (.done, w') := by
  rw [Invocation.run, bind_apply, h]
  rfl

/-- A request may fail, but it is never a usage error. -/
theorem status_run_ne (r : Request) (w : World) :
    ((Invocation.disassemble r).run World.system w).1.status ≠ 2 := by
  rcases hperform : r.perform World.system w with ⟨answer, w'⟩
  cases answer with
  | error failure =>
    rw [run_of_perform_error hperform]
    exact nofun
  | ok n =>
    rw [run_of_perform_ok hperform]
    exact nofun

theorem isCarriedOut_run (r : Request) (d : Disk) :
    r.IsCarriedOut d ((Invocation.disassemble r).run World.system { disk := d }).1
      ((Invocation.disassemble r).run World.system { disk := d }).2 where
  unread := by
    intro fault hread
    rw [run_of_perform_error (perform_of_unread (w := { disk := d }) hread)]
    exact ⟨rfl, rfl, rfl, rfl⟩
  unopened := by
    intro program fault hread hfile hcreate
    rw [run_of_perform_error (perform_of_unopened (w := { disk := d }) hread hfile hcreate)]
    exact ⟨rfl, rfl, rfl, rfl⟩
  refused := by
    intro program hread hopens hrefused
    obtain ⟨output, opened, hopened⟩ := hopens.exists_isOpened
    obtain ⟨e, hcheck⟩ := Listing.check_of_not_accepts hrefused
    rw [run_of_perform_error (perform_of_refused hread hopened hcheck)]
    exact ⟨⟨e, Listing.value_disassemble_of_check hcheck, rfl⟩, rfl, rfl, hopened.empty rfl rfl⟩
  listed := by
    intro program hread hopens haccepts
    obtain ⟨output, opened, hopened⟩ := hopens.exists_isOpened
    have hls := Listing.value_lines_of_accepts haccepts
    obtain ⟨w, hperform, hreceived, hlog⟩ := perform_of_listed hread hopened hls
    rw [run_of_perform_ok hperform, ← r.destination_eq]
    exact ⟨_, Listing.value_disassemble hls, rfl, hreceived, hlog⟩

end Request

/-- A run that ends in a usage error does nothing. -/
theorem run_of_status {arguments : List String}
    (h : (run World.system arguments w).1.status = 2) : (run World.system arguments w).2 = w := by
  rw [run] at h ⊢
  cases hread : readInvocation arguments with
  | error e => rfl
  | ok invocation =>
    rw [hread] at h
    cases invocation with
    | nothing => rfl
    | help subject => exact nomatch h
    | version => exact nomatch h
    | disassemble r => exact absurd h (r.status_run_ne w)

/-- **Every request is carried out as promised**, whether it is given as such or on a command line,
and a command line that asks for something else by mistake leaves everything as it was. -/
theorem run_isCarriedOut (d : Disk) :
    (∀ r : Request, r.IsCarriedOut d ((Invocation.disassemble r).run World.system { disk := d }).1
      ((Invocation.disassemble r).run World.system { disk := d }).2) ∧
    (∀ arguments r, readInvocation arguments = .ok (.disassemble r) →
      r.IsCarriedOut d (run World.system arguments { disk := d }).1
        (run World.system arguments { disk := d }).2) ∧
    ∀ arguments, (run World.system arguments { disk := d }).1.status = 2 →
      (run World.system arguments { disk := d }).2 = { disk := d } := by
  refine ⟨fun r => r.isCarriedOut_run d, fun arguments r hread => ?_, fun _ => run_of_status⟩
  rw [run, hread]
  exact r.isCarriedOut_run d

/-- A disk on which there is one program, which clears the screen. No new file can be made there. -/
def lockedDisk : Disk :=
  { table := [([], .directory), (["prog.ch8"], .file [0x00, 0xE0])]
    refusals := [(([], .writing), .denied)] }

/-- What lists that program. -/
def listingTo (output : String) : Request := { romPath := "prog.ch8", output, options := {} }

/-- A program is replaced by its own listing or listed to standard output, but it is not listed to a
file that cannot be made. Without a path nothing is done. -/
theorem run_isCarriedOut_overwriting :
    (∀ output ∈ ["prog.ch8", "stdout", "", "new.asm"],
      readInvocation ["d", "prog.ch8", "-o", output] = .ok (.disassemble (listingTo output)) ∧
      (listingTo output).IsCarriedOut lockedDisk
        (run World.system ["d", "prog.ch8", "-o", output] { disk := lockedDisk }).1
        (run World.system ["d", "prog.ch8", "-o", output] { disk := lockedDisk }).2) ∧
      (∃ text, (Listing.disassemble {} [0x00, 0xE0]).value = .ok text ∧
        (run World.system ["d", "prog.ch8", "-o", "prog.ch8"]
          { disk := lockedDisk }).2.disk.read "prog.ch8" = .ok (Text.bytes text) ∧
        ∀ output ∈ ["stdout", ""],
          (run World.system ["d", "prog.ch8", "-o", output] { disk := lockedDisk }).2.output =
              Text.bytes text ∧
            (run World.system ["d", "prog.ch8", "-o", output] { disk := lockedDisk }).2.disk =
              lockedDisk) ∧
      (run World.system ["d", "prog.ch8", "-o", "new.asm"] { disk := lockedDisk }).1 =
        .failed (.unopened .denied) ∧
      (run World.system ["d", "prog.ch8", "-o", "new.asm"] { disk := lockedDisk }).2.disk =
        lockedDisk ∧
      (run World.system ["d", "-o", "prog.ch8"] { disk := lockedDisk }).1.status = 2 ∧
      (run World.system ["d", "-o", "prog.ch8"] { disk := lockedDisk }).2 =
        { disk := lockedDisk } := by
  obtain ⟨-, hcommand, husage⟩ := run_isCarriedOut lockedDisk
  have hreads : ∀ output ∈ ["prog.ch8", "stdout", "", "new.asm"],
      readInvocation ["d", "prog.ch8", "-o", output] = .ok (.disassemble (listingTo output)) := by
    simp only [List.forall_mem_cons]
    exact ⟨rfl, rfl, rfl, rfl, nofun⟩
  have hcarriedOut := fun output houtput => hcommand _ _ (hreads output houtput)
  have hprogram : lockedDisk.read "prog.ch8" = .ok [0x00, 0xE0] := rfl
  have haccepts : ({} : Listing.Options).Accepts [0x00, 0xE0] := ⟨by decide, .inl rfl⟩
  have hdevice : ¬ lockedDisk.IsDevice "prog.ch8" := by
    rintro ⟨l, kind, hl, hkind⟩
    obtain rfl : ["prog.ch8"] = l := Except.ok.inj hl
    exact nomatch hkind
  have hfile : ¬ (listingTo "prog.ch8").NamesStandard := by decide
  have hnew : ¬ (listingTo "new.asm").NamesStandard := by decide
  obtain ⟨text, htext, -, hreceived, -⟩ :=
    (hcarriedOut "prog.ch8" (by decide)).listed hprogram (.inr ⟨⟨_, rfl⟩, hdevice⟩) haccepts
  obtain ⟨l, -, -, hread, -⟩ := ((if_neg hfile).mp hreceived.disk).place
  have hreading : lockedDisk.refusal? .reading l = none := by
    cases l <;> rfl
  have hstandard : ∀ output ∈ ["stdout", ""],
      (run World.system ["d", "prog.ch8", "-o", output] { disk := lockedDisk }).2.output =
          Text.bytes text ∧
        (run World.system ["d", "prog.ch8", "-o", output] { disk := lockedDisk }).2.disk =
          lockedDisk := by
    intro output houtput
    have hnames : (listingTo output).NamesStandard := by
      simpa [Request.NamesStandard, listingTo, or_comm] using houtput
    have hlisted := hcarriedOut output
      (List.mem_cons_of_mem _ (List.mem_append_left ["new.asm"] houtput))
    obtain ⟨text', htext', -, hreceived', -⟩ := hlisted.listed hprogram (.inl hnames) haccepts
    obtain rfl : text' = text := Except.ok.inj (htext'.symm.trans htext)
    exact ⟨hreceived'.output.trans (if_pos hnames), (if_pos hnames).mp hreceived'.disk⟩
  obtain ⟨hdenied, -, -, hdisk⟩ :=
    (hcarriedOut "new.asm" (by decide)).unopened hprogram hnew rfl
  exact ⟨fun output houtput => ⟨hreads output houtput, hcarriedOut output houtput⟩,
    ⟨text, htext, hread hreading, hstandard⟩, hdenied, hdisk, rfl, husage _ rfl⟩

end Command

end Chip8
