import Monhop.Transport.Receiver

/-! # Receivers that share a gate

One receiver per peer slot, each behind its slot's guard, and the sequenced responses they
send.  A set takes the gate's trigger and hands it to the slot the floor names.
-/

namespace Monhop.Transport

open Monhop.Core Protocol Function

/-! ## Responses -/

/-- The counters a receiver's responses are sequenced with. -/
structure OutputSequences where
  control : Nat
  input : Nat
  epoch : SessionEpoch

namespace OutputSequences

variable {F : Type}

/-- The input counter restarts with the receiver's epoch. -/
def follow (sequences : OutputSequences) (epoch : SessionEpoch) : OutputSequences :=
  if epoch ≠ sequences.epoch then { sequences with epoch, input := 0 } else sequences

/-- Heartbeats on the control epoch's own counter, anything else on the input epoch's.
No frame once the counter would wrap. -/
def frame (sequences : OutputSequences) (message : Message F) (receiver : InputReceiver F) :
    Option (Frame F) × OutputSequences :=
  if message.isHeartbeat then
    match checkedSucc sequences.control with
    | none => (none, sequences)
    | some next =>
      (some (.new receiver.controlEpoch sequences.control message), { sequences with control := next })
  else
    let sequences := sequences.follow receiver.epoch
    match checkedSucc sequences.input with
    | none => (none, sequences)
    | some next =>
      (some (.new receiver.epoch sequences.input message), { sequences with input := next })

end OutputSequences

/-! ## Slots -/

inductive SlotFailure where
  /-- Not a group slot, or no receiver runs in it. -/
  | unknownSlot
  /-- A receiver already runs in the slot. -/
  | occupied
  | receiver (failure : ReceiverFailure)
  /-- A response sequence would wrap; the slot's receiver is stopped. -/
  | sequenceExhausted

abbrev SlotResult (F : Type) := Except SlotFailure (Option (Frame F))

structure Slot (F : Type) where
  receiver : InputReceiver F
  sequences : OutputSequences

/-- Every peer's receiver on one gate and floor. -/
structure ReceiverSet (F : Type) where
  slots : Fin maxGroupPeers → Option (Slot F)
  world : World F

/-- Slot 1 is index 0; `NONE` has none. -/
def slotIndex (slot : FloorPeer) : Option (Fin maxGroupPeers) :=
  if bounds : 1 ≤ slot.raw ∧ slot.raw - 1 < maxGroupPeers then some ⟨slot.raw - 1, bounds.2⟩ else none

/-- Sequences a response; once its counter is exhausted the receiver is stopped. -/
def respond {F : Type} (response : Option (Message F)) (sequences : OutputSequences)
    (session : Session F) : SlotResult F × OutputSequences × Session F :=
  match response with
  | none => (.ok none, sequences, session)
  | some message =>
    match sequences.frame message session.receiver with
    | (some frame, sequences) => (.ok (some frame), sequences, session)
    | (none, sequences) =>
      (.error .sequenceExhausted, sequences, ((Session.stop .peerStopped).exec session).2)

namespace ReceiverSet

variable {F : Type}

def new (world : World F) : ReceiverSet F := { slots := fun _ => none, world }

variable (set : ReceiverSet F)

def entry (slot : FloorPeer) : Option (Fin maxGroupPeers × Slot F) := do
  let index ← slotIndex slot
  let entry ← set.slots index
  pure (index, entry)

/-- A slot's receiver behind its guard. -/
def session (slot : FloorPeer) (entry : Slot F) : Session F :=
  { receiver := entry.receiver, port := .guarded slot, world := set.world }

/-- The set once a slot's receiver ran. -/
def store (index : Fin maxGroupPeers) (session : Session F)
    (sequences : OutputSequences) : ReceiverSet F :=
  { slots := update set.slots index (some ⟨session.receiver, sequences⟩)
    world := session.world }

/-- Runs one slot's receiver and sequences what it answers. -/
def drive (slot : FloorPeer)
    (program : ReceiverProgram F (Option (Message F))) : SlotResult F × ReceiverSet F :=
  match set.entry slot with
  | none => (.error .unknownSlot, set)
  | some (index, entry) =>
    match program.exec (set.session slot entry) with
    | (.error failure, session) => (.error (.receiver failure), set.store index session entry.sequences)
    | (.ok response, session) =>
      let (result, sequences, session) := respond response entry.sequences session
      (result, set.store index session sequences)

/-- Runs `receiver`, fresh from startup, for `slot` on this set's gate. -/
def add (slot : FloorPeer) (receiver : InputReceiver F)
    (localLower enabled : Bool) (nextHeartbeatOut : Nat) : Except SlotFailure Unit × ReceiverSet F :=
  match slotIndex slot with
  | none => (.error .unknownSlot, set)
  | some index =>
    if (set.slots index).isSome then (.error .occupied, set)
    else
      let receiver := (receiver.withFloor localLower enabled).sharedFor slot
      let sequences := { control := nextHeartbeatOut, input := 0, epoch := receiver.epoch }
      (.ok (), { set with slots := update set.slots index (some ⟨receiver, sequences⟩) })

/-- Stops the slot's receiver and empties the slot once nothing it injected awaits release. -/
def remove (slot : FloorPeer) : Bool × ReceiverSet F :=
  match set.entry slot with
  | none => (true, set)
  | some (index, entry) =>
    let session := ((Session.stop .peerStopped).exec (set.session slot entry)).2
    if session.receiver.cleanupPending then (false, set.store index session entry.sequences)
    else (true, { slots := update set.slots index none, world := session.world })

def receive [Scalar F] (slot : FloorPeer) (frame : Frame F) (now : Duration) :
    SlotResult F × ReceiverSet F :=
  set.drive slot (Session.receive frame now)

def tick (slot : FloorPeer) (now : Duration) : SlotResult F × ReceiverSet F :=
  set.drive slot (Session.tick now)

def flush (slot : FloorPeer) : Except SlotFailure Unit × ReceiverSet F :=
  let (result, set) := set.drive slot (Session.flush >>= fun _ => pure none)
  (result.map fun _ => (), set)

/-- Answers a take-back, unless the receiver has failed. -/
def answerTakeBack (generation : Nat) : ReceiverProgram F (Option (Message F)) := do
  let receiver ← Session.receiverState
  match receiver.failure with
  | some failure => throw failure
  | none => Session.yieldToLocal generation

/-- Hands a trigger to the slot the floor names, if a receiver runs in it. -/
def handTrigger (generation : Nat) : Option (FloorPeer × SlotResult F) × ReceiverSet F :=
  let owner := set.world.gate.floor.peer
  match set.entry owner with
  | none => (none, set)
  | some _ =>
    let (result, set) := set.drive owner (answerTakeBack generation)
    (some (owner, result), set)

/-- Takes the gate's trigger exactly once. -/
def takeBack : Option (FloorPeer × SlotResult F) × ReceiverSet F :=
  match set.world.advance.2.takeTriggered with
  | (none, world) => (none, { set with world })
  | (some generation, world) => { set with world := world.advance.2 }.handTrigger generation

end ReceiverSet
end Monhop.Transport
