import Chip8.Listing.Disassembly
import Chip8.Listing.Sink
import Chip8.Text

/-!
# Delivering a listing

A listing is delivered line by line, each line together with its line break as one chunk, and the
sink is flushed once all of them have arrived. If the image is not accepted, or a line is refused,
the sink is asked nothing further.

Unlike `lines`, a delivery does not report how many words it listed: it can end early, and then
that number would say nothing.

## Main definitions

* `Listing.Delivery`
* `Listing.writeTo` — delivers the listing of an image
-/

namespace Chip8.Listing

/-- How a delivery went. -/
structure Delivery where
  /-- The number of bytes delivered, if all went well. -/
  result : Except Error Nat
  events : List Event := []
  log : List Log.Message := []

/-- A line as the bytes it is delivered as. -/
def Line.chunk (l : Line) : List Byte := Text.bytes l.ended

/-- Delivers chunks and flushes the sink behind them. -/
def Sink.deliver (sink : Sink) (chunks : List (List Byte)) : Delivery :=
  let attempt := offerChunks sink.answers chunks
  match attempt.fault with
  | some fault => { result := .error (.undelivered fault), events := attempt.events }
  | none =>
    { result := match sink.flushFault with
        | some fault => .error (.undelivered fault)
        | none => .ok (chunks.foldl (fun delivered chunk => delivered + chunk.length) 0)
      events := attempt.events ++ [.flush] }

/-- Delivers the listing of an image to a sink. -/
def writeTo (o : Options) (image : Image) (sink : Sink) : Delivery :=
  let checked := check o image
  match checked.value with
  | .error e => { result := .error e, log := checked.log }
  | .ok () =>
    { sink.deliver ((o.start image).toList.map Line.chunk) with log := checked.log }

end Chip8.Listing
