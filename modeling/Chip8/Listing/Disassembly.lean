import Chip8.Files.Path
import Chip8.Listing.Sweep
import Chip8.Log

/-!
# Listing an image

All ways of listing an image share one decision on whether it is listed at all. Its size is looked
at first, whatever else is wrong with it; then an odd last byte, as the options say. Nothing is
produced before the decision is made. A sweep alone skips the second part: it never reaches an odd
last byte.

## Main definitions

* `Listing.Error`, `Listing.Error.message`, `Listing.Error.cause?` — why an image is not listed
* `Listing.Options.limit` — the size of the largest image that is accepted
* `Listing.trailing?` — the odd last byte
* `Listing.checkSize`, `Listing.checkTrailing`, `Listing.check` — the decision
* `Listing.sweep`, `Listing.lines`, `Listing.disassemble` — an image as a sweep, as lines, as text

## Main results

* `Listing.trailing?_eq_none_iff` — only an image of odd length has an odd last byte
-/

namespace Chip8.Listing

/-! ### Refusals -/

/-- Why an image is not listed, or its listing not delivered. -/
inductive Error
  /-- The image has an odd last byte, and the options refuse that. -/
  | oddLength (address : Address) (byte : Byte)
  /-- The image passes the end of the address space. -/
  | tooLarge (size limit : Nat)
  /-- The listing could not be delivered. -/
  | undelivered (fault : SystemFault)
  deriving DecidableEq, Repr

namespace Error

/-- How the user is told, without the cause. -/
def message : Error → String
  | oddLength address byte =>
    "program image has an odd length, trailing byte 0x" ++ Hex.text .lower 2 byte.toNat ++
      " at 0x" ++ Hex.text .lower 4 address.toNat
  | tooLarge size limit =>
    "program image is too large (" ++ size.repr ++ " bytes), max size is " ++ limit.repr ++
      " bytes"
  | undelivered _ => "failed to write disassembly"

/-- What lies behind the error, if that is another refusal. -/
def cause? : Error → Option SystemFault
  | undelivered fault => some fault
  | _ => none

end Error

/-! ### The decision -/

/-- The number of addresses. -/
def addressSpace : Nat := 0x10000

/-- The room from the load address to the end of the address space. -/
def Options.limit (o : Options) : Nat := addressSpace - o.loadAddress.toNat

/-- The last byte of an image of odd length. -/
def trailing? : Image → Option Byte
  | [] => none
  | [b] => some b
  | _ :: _ :: rest => trailing? rest

theorem trailing?_eq_none_iff (image : Image) :
    trailing? image = none ↔ image.length % 2 = 0 := by
  fun_induction trailing? image with
  | case1 => simp
  | case2 b => simp
  | case3 a b rest ih =>
    rw [ih, List.length_cons, List.length_cons]
    omega

/-- Refuses an image that passes the end of the address space. -/
def checkSize (o : Options) (image : Image) : Except Error Unit :=
  if image.length > o.limit then .error (.tooLarge image.length o.limit) else .ok ()

/-- Deals with an odd last byte as the options say. -/
def checkTrailing (o : Options) (image : Image) : Logged (Except Error Unit) :=
  match trailing? image with
  | none => { value := .ok () }
  | some byte =>
    let address := BitVec.ofNat 16 (o.loadAddress.toNat + image.length - 1)
    match o.trailingByte with
    | .truncate => { value := .ok (), log := [.droppedByte byte address] }
    | .reject => { value := .error (.oddLength address byte) }

/-- Both checks, the size first. -/
def check (o : Options) (image : Image) : Logged (Except Error Unit) :=
  match checkSize o image with
  | .error e => { value := .error e }
  | .ok () => checkTrailing o image

/-! ### The results -/

/-- The sweep over the whole of an image, whether or not that fits the address space. -/
def Options.start (o : Options) (image : Image) : Sweep where
  rest := image
  address := o.loadAddress
  style := o.unknownStyle

/-- The sweep over an image. -/
def sweep (o : Options) (image : Image) : Except Error Sweep :=
  (checkSize o image).map fun () => o.start image

/-- The lines of an image, and what there is to say about them. -/
def lines (o : Options) (image : Image) : Logged (Except Error (List Line)) :=
  let checked := check o image
  match checked.value with
  | .error e => { value := .error e, log := checked.log }
  | .ok () =>
    let lines := (o.start image).toList
    { value := .ok lines
      log := checked.log ++ [.listed lines.length (lines.countP Line.isUnknown)] }

/-- The text of some lines, each closed by a line break. -/
def textOf (lines : List Line) : String := String.join (lines.map Line.ended)

/-- The text of an image. -/
def disassemble (o : Options) (image : Image) : Logged (Except Error String) :=
  let listed := lines o image
  { value := listed.value.map textOf, log := listed.log }

end Chip8.Listing
