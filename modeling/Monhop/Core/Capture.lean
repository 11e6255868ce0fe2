import Monhop.Core.Pointer

/-! # The capture queue

The bounded queue between the hook thread and the session: records are tagged with the
route that was active when they were admitted, and the first terminal condition is kept
for good.  The slots of the lock-free ring are a list here; a slot is free exactly when
fewer than the capacity are in the list.
-/

namespace Monhop.Core

def captureQueueCapacity : Nat := 512

/-- A suppression lease may be renewed for at most this long. -/
def maxSuppressionTtl : Duration := .fromMillis 120

/-- A seam stays a wall for this long after a decline. -/
def declineRetryAfter : Duration := .fromMillis 50

inductive CaptureEvent (F : Type) where
  | key (usage : HidUsage) (pressed : Bool) (isRepeat : Bool) (modifiers : ModifierState)
  | button (button : MouseButton) (pressed : Bool) (time : Duration)
  | absoluteMotion (x y : Int)
  | relativeMotion (dx dy : Int) (gain : F)
  | scroll (horizontal vertical : Int)
  | logicalAbsoluteMotion (x y : F)
  | logicalRelativeMotion (dx dy : F)
  | logicalScroll (horizontal vertical : F)
  /-- The cutover barrier: the producer admits it before events for the new route. -/
  | routeChanged (remote : Bool) (revision : Nat)
  | gesture (kind : GestureKind) (phase : Option GesturePhase) (value : F)
  | systemGesture (gesture : SystemGesture)
  deriving DecidableEq

/-- Whether the event has a representable physical value. -/
def CaptureEvent.isValid {F : Type} [Scalar F] : CaptureEvent F → Bool
  | .key usage _ _ _ => usage.isValid
  | .button _ _ _ | .absoluteMotion _ _ => true
  | .relativeMotion dx dy gain =>
    (dx != 0 || dy != 0) && Scalar.isFinite gain && Scalar.le 0 gain
  | .scroll horizontal vertical => horizontal != 0 || vertical != 0
  | .logicalAbsoluteMotion x y => Scalar.isFinite x && Scalar.isFinite y
  | .logicalRelativeMotion dx dy =>
    Scalar.isFinite dx && Scalar.isFinite dy && (!Scalar.same dx 0 || !Scalar.same dy 0)
  | .logicalScroll horizontal vertical =>
    Scalar.isFinite horizontal && Scalar.isFinite vertical &&
      (!Scalar.same horizontal 0 || !Scalar.same vertical 0)
  | .routeChanged _ _ | .systemGesture _ => true
  | .gesture kind phase value => (PointerGesture.fromParts kind phase value).isOk

/-- The first terminal condition observed by capture. -/
inductive StopReason where
  | requested
  | queueFull
  | queueContended
  | consumerDropped
  | leaseExpired
  | clockRegression
  | invalidInput
  | emergencyEscape
  | nativeFailure
  | displaysChanged
  deriving DecidableEq

/-- An event tagged with the hook thread's route that was active when it was admitted. -/
structure CapturedEvent (F : Type) where
  event : CaptureEvent F
  routingRevision : Nat
  remote : Bool
  /-- The floor's generation when the event was captured; 0 without a take-back gate. -/
  floorGeneration : Nat
  deriving DecidableEq

/-- The queue with its producer's route and the shared stop. -/
structure CaptureChannel (F : Type) where
  queue : List (CapturedEvent F)
  routingRevision : Nat
  remote : Bool
  stopped : Option StopReason

namespace CaptureChannel

variable {F : Type}

def new : CaptureChannel F :=
  { queue := [], routingRevision := 0, remote := false, stopped := none }

variable (channel : CaptureChannel F)

def isStopped : Bool := channel.stopped.isSome

/-- Records the reason only when no terminal reason has been recorded. -/
def stop (reason : StopReason) : CaptureChannel F :=
  { channel with stopped := channel.stopped <|> some reason }

def acceptsRoute (record : CapturedEvent F) : Bool :=
  match record.event with
  | .routeChanged remote revision =>
    decide (revision > channel.routingRevision) && record.routingRevision == revision &&
      record.remote == remote
  | _ => record.routingRevision == channel.routingRevision && record.remote == channel.remote

/-- The queue with the record published, and the producer's route after it. -/
def publish (record : CapturedEvent F) : CaptureChannel F :=
  let channel := { channel with queue := channel.queue ++ [record] }
  match record.event with
  | .routeChanged remote revision => { channel with remote, routingRevision := revision }
  | _ => channel

variable [Scalar F]

/-- Enqueues one event; the result says whether it was admitted. -/
def tryPushTagged (record : CapturedEvent F) :
    Bool × CaptureChannel F :=
  if channel.isStopped then (false, channel)
  else if !record.event.isValid || !channel.acceptsRoute record then
    (false, channel.stop .invalidInput)
  else if captureQueueCapacity ≤ channel.queue.length then (false, channel.stop .queueFull)
  else (true, channel.publish record)

/-- Removes one event; once stopped, no queued payload is returned. -/
def tryPopTagged : Option (CapturedEvent F) × CaptureChannel F :=
  if channel.isStopped then (none, channel)
  else
    match channel.queue with
    | [] => (none, channel)
    | record :: queue => (some record, { channel with queue })

end CaptureChannel
end Monhop.Core
