import Monhop.Core.CaptureWords
import Monhop.Library.Transition

/-! # The lock-free capture ring

The queue of `Monhop.Core.Capture` as the two threads run it: one producer and one consumer
on 512 slots, each access to a shared word one atomic step.  A slot's publish word says whose
turn it is; the payload words are written and read one at a time.

Beside the shared words and the two program counters, a state keeps what happened: the records
published, how many of them the consumer took out, and those a pop returned.
-/

namespace Monhop.Core

open Function
open Library (Lts)
open Protocol (FloatBits)

/-! ## Program counters -/

/-- Where `try_push_tagged` stands: what it does next. -/
inductive ProducerAt (F : Type) where
  | idle
  /-- Loads the stop word for the first time. -/
  | entered (record : CapturedEvent F)
  /-- Loads it again, the record having passed its checks. -/
  | admitted (record : CapturedEvent F)
  /-- Loads the publish word of its slot. -/
  | looking (record : CapturedEvent F)
  /-- Stores the payload words still to go, then the publish word. -/
  | writing (record : CapturedEvent F) (left : List SlotWord)
  /-- Loads the stop word for the answer. -/
  | published
  /-- Records a reason to stop unless one is recorded. -/
  | stopping (reason : StopReason)
  /-- Loads the reason that was recorded. -/
  | refusing

/-- Where `try_pop_tagged` stands. -/
inductive ConsumerAt (F : Type) where
  | idle
  /-- Loads the stop word. -/
  | entered
  /-- Loads the publish word of its slot. -/
  | looking
  /-- Loads the payload words still to go, then stores the publish word. -/
  | reading (loaded : SlotWord → Nat) (left : List SlotWord)
  /-- Loads the stop word before it hands the record over. -/
  | returning (record : CapturedEvent F)
  | stopping (reason : StopReason)
  | refusing

/-! ## State -/

structure CaptureRing (F : Type) where
  stopped : Option StopReason
  publish : Nat → Nat
  words : Nat → SlotWord → Nat
  tail : Nat
  routingRevision : Nat
  remote : Bool
  producer : ProducerAt F
  head : Nat
  consumer : ConsumerAt F
  /-- Every record published, oldest first. -/
  recorded : List (CapturedEvent F)
  /-- How many of them the consumer took out of their slots. -/
  taken : Nat
  /-- What pops returned, oldest first. -/
  popped : List (CapturedEvent F)

/-- A word after `step` more, as the atomics wrap. -/
def wrappingAdd (word step : Nat) : Nat := (word + step) % 2 ^ 64

def slotIndex (position : Nat) : Nat := position % captureQueueCapacity

namespace CaptureRing

variable {F : Type}

/-- A fresh channel: slot `index` is free for position `index`. -/
def new : CaptureRing F :=
  { stopped := none, publish := id, words := fun _ _ => 0, tail := 0, routingRevision := 0
    remote := false, producer := .idle, head := 0, consumer := .idle, recorded := [], taken := 0
    popped := [] }

variable (ring : CaptureRing F)

def stop (reason : StopReason) : CaptureRing F :=
  { ring with stopped := ring.stopped <|> some reason }

variable (record : CapturedEvent F)

def acceptsRoute : Bool :=
  match record.event with
  | .routeChanged remote revision =>
    decide (revision > ring.routingRevision) && record.routingRevision == revision &&
      record.remote == remote
  | _ => record.routingRevision == ring.routingRevision && record.remote == ring.remote

/-- The producer's route after a record of its own. -/
def routeAfter : Nat × Bool :=
  match record.event with
  | .routeChanged remote revision => (revision, remote)
  | _ => (ring.routingRevision, ring.remote)

/-- The publish word is stored and the producer moves on. -/
def publishRecord : CaptureRing F :=
  { ring with
    publish := update ring.publish (slotIndex ring.tail) (wrappingAdd ring.tail 1)
    tail := wrappingAdd ring.tail 1
    routingRevision := (ring.routeAfter record).1
    remote := (ring.routeAfter record).2
    producer := .published
    recorded := ring.recorded ++ [record] }

/-- The slot is given back and the consumer moves on. -/
def release : CaptureRing F :=
  { ring with
    publish := update ring.publish (slotIndex ring.head)
      (wrappingAdd ring.head captureQueueCapacity)
    head := wrappingAdd ring.head 1
    taken := ring.taken + 1 }

section
variable [Scalar F] [FloatBits F]

def storeWord (word : SlotWord) : CaptureRing F :=
  { ring with
    words := update ring.words (slotIndex ring.tail)
      (update (ring.words (slotIndex ring.tail)) word (record.words word)) }

/-- One atomic step of `try_push_tagged`. -/
def produce : Option (CaptureRing F) :=
  match ring.producer with
  | .idle => none
  | .entered record =>
    some <|
      if ring.stopped.isSome then { ring with producer := .idle }
      else if !record.event.isValid || !ring.acceptsRoute record then
        { ring with producer := .stopping .invalidInput }
      else { ring with producer := .admitted record }
  | .admitted record =>
    some <|
      if ring.stopped.isSome then { ring with producer := .idle }
      else { ring with producer := .looking record }
  | .looking record =>
    some <|
      if ring.publish (slotIndex ring.tail) ≠ ring.tail then
        { ring with producer := .stopping .queueFull }
      else { ring with producer := .writing record SlotWord.ALL }
  | .writing record (word :: left) =>
    some { ring.storeWord record word with producer := .writing record left }
  | .writing record [] => some (ring.publishRecord record)
  | .stopping reason => some { ring.stop reason with producer := .refusing }
  | .published | .refusing => some { ring with producer := .idle }

/-- What the consumer makes of the words it loaded. -/
def decoded (loaded : SlotWord → Nat) : ConsumerAt F :=
  match CapturedEvent.decode loaded with
  | some record => .returning record
  | none => .stopping .nativeFailure

/-- One atomic step of `try_pop_tagged`. -/
def consume : Option (CaptureRing F) :=
  match ring.consumer with
  | .idle => none
  | .entered =>
    some <|
      if ring.stopped.isSome then { ring with consumer := .idle }
      else { ring with consumer := .looking }
  | .looking =>
    some <|
      if ring.publish (slotIndex ring.head) ≠ wrappingAdd ring.head 1 then
        { ring with consumer := .idle }
      else { ring with consumer := .reading (fun _ => 0) SlotWord.ALL }
  | .reading loaded (word :: left) =>
    some { ring with
      consumer :=
        .reading (update loaded word (ring.words (slotIndex ring.head) word)) left }
  | .reading loaded [] => some { ring.release with consumer := decoded loaded }
  | .returning record =>
    some <|
      -- once stopped, a queued record is never returned
      if ring.stopped.isSome then { ring with consumer := .idle }
      else { ring with consumer := .idle, popped := ring.popped ++ [record] }
  | .stopping reason => some { ring.stop reason with consumer := .refusing }
  | .refusing => some { ring with consumer := .idle }

end
end CaptureRing

/-! ## Runs -/

inductive RingLabel (F : Type) where
  /-- The hook thread calls `try_push_tagged`. -/
  | push (record : CapturedEvent F)
  | produce
  /-- The session calls `try_pop_tagged`. -/
  | pop
  | consume
  /-- Any holder of the shared stop records a reason. -/
  | stop (reason : StopReason)

inductive CaptureRing.Step {F : Type} [Scalar F] [FloatBits F] :
    CaptureRing F → RingLabel F → CaptureRing F → Prop where
  | push (ring : CaptureRing F) (record : CapturedEvent F) (idle : ring.producer = .idle)
      (formed : record.Formed) : Step ring (.push record) { ring with producer := .entered record }
  | produce (ring later : CaptureRing F) (stepped : ring.produce = some later) :
      Step ring .produce later
  | pop (ring : CaptureRing F) (idle : ring.consumer = .idle) :
      Step ring .pop { ring with consumer := .entered }
  | consume (ring later : CaptureRing F) (stepped : ring.consume = some later) :
      Step ring .consume later
  | stop (ring : CaptureRing F) (reason : StopReason) : Step ring (.stop reason) (ring.stop reason)

def ringLts (F : Type) [Scalar F] [FloatBits F] : Lts (CaptureRing F) (RingLabel F) where
  init ring := ring = .new
  step := CaptureRing.Step

end Monhop.Core
