import Chip8.Files.Path

/-!
# Delivering bytes to a sink

A sink is offered bytes and answers each offer. It may take only some of them, take none because
something got in between, or refuse. It is described by the answers it will give, in order; once
they run out it takes everything. That is enough for any sink a finite delivery can meet.

A chunk is delivered by offering what is left of it until nothing is. An interrupted offer is made
again. An offer of which nothing at all is taken would never end, so it counts as a refusal. Chunks
are delivered one after the other, and the first refusal ends the delivery.

What happened is kept as a list of events, from which the bytes that arrived can be read.

## Main definitions

* `Listing.Answer`, `Listing.Sink`
* `Listing.Event`, `Listing.Event.arrived`, `Listing.arrived`
* `Listing.Attempt` — a delivery up to now
* `Listing.offerChunk`, `Listing.offerChunks`
-/

namespace Chip8.Listing

/-- The answer to one offer. -/
inductive Answer
  /-- Takes that many bytes, or all there are if there are fewer. -/
  | take (count : Nat)
  | takeAll
  /-- Takes nothing this time. -/
  | interrupted
  | refuse (fault : SystemFault)
  deriving DecidableEq, Repr

/-- Something that bytes are delivered to, described by how it will answer. -/
structure Sink where
  /-- The answers to the first offers. Later ones are taken whole. -/
  answers : List Answer := []
  /-- What is wrong with the final flush, if anything. -/
  flushFault : Option SystemFault := none
  deriving DecidableEq, Repr

/-! ### What happened -/

/-- One thing that was asked of a sink. -/
inductive Event
  | offer (bytes : List Byte) (answer : Answer)
  | flush
  deriving DecidableEq, Repr

/-- The bytes that arrived by an event. -/
def Event.arrived : Event → List Byte
  | offer bytes (.take count) => bytes.take count
  | offer bytes .takeAll => bytes
  | offer _ .interrupted => []
  | offer _ (.refuse _) => []
  | flush => []

/-- All bytes that arrived. -/
def arrived (events : List Event) : List Byte := events.flatMap Event.arrived

theorem arrived_append (a b : List Event) : arrived (a ++ b) = arrived a ++ arrived b :=
  List.flatMap_append

/-! ### Delivering -/

/-- A delivery up to now. -/
structure Attempt where
  events : List Event
  /-- The answers that have not been given yet. -/
  answers : List Answer
  /-- The refusal that ended it. -/
  fault : Option SystemFault
  deriving DecidableEq, Repr

/-- The attempt that began with `events`. -/
def Attempt.after (events : List Event) (a : Attempt) : Attempt :=
  { a with events := events ++ a.events }

/-- Delivers one chunk to a sink that gives the answers listed. -/
def offerChunk : List Answer → List Byte → Attempt
  | answers, [] => { events := [], answers, fault := none }
  | [], chunk => { events := [.offer chunk .takeAll], answers := [], fault := none }
  | .takeAll :: answers, chunk => { events := [.offer chunk .takeAll], answers, fault := none }
  | .take 0 :: answers, chunk =>
    { events := [.offer chunk (.take 0)], answers, fault := some .nothingTaken }
  | .take (n + 1) :: answers, chunk =>
    (offerChunk answers (chunk.drop (n + 1))).after [.offer chunk (.take (n + 1))]
  | .interrupted :: answers, chunk =>
    (offerChunk answers chunk).after [.offer chunk .interrupted]
  | .refuse fault :: answers, chunk =>
    { events := [.offer chunk (.refuse fault)], answers, fault := some fault }

/-- Delivers chunks in order, up to the first refusal. -/
def offerChunks (answers : List Answer) : List (List Byte) → Attempt
  | [] => { events := [], answers, fault := none }
  | chunk :: chunks =>
    let first := offerChunk answers chunk
    match first.fault with
    | some _ => first
    | none => (offerChunks first.answers chunks).after first.events

end Chip8.Listing
