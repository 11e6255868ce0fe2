import Monhop.Protocol.Frame

/-! # Frame admission

The sequence gate keeps the reliable, motion and heartbeat sequence spaces of the active
epoch apart; the rate limiter is a token bucket on caller-supplied milliseconds.
-/

namespace Monhop.Protocol

inductive SequenceGateError where
  | notHeartbeat
  | epochNotActivated
  | epochNotNew
  | epochMismatch
  | staleOrReplay
  deriving DecidableEq

structure SequenceGate where
  activeEpoch : Option SessionEpoch
  reliableSequence : Option Nat
  motionSequence : Option Nat
  /-- Heartbeats keep their own sequence space; gaps are allowed, never replays. -/
  heartbeatSequence : Option Nat

namespace SequenceGate

def default : SequenceGate :=
  { activeEpoch := none, reliableSequence := none, motionSequence := none
    heartbeatSequence := none }

/-- Continues the heartbeat space from a previous phase of the same session. -/
def seedHeartbeat (gate : SequenceGate) (last : Option Nat) : SequenceGate :=
  { gate with heartbeatSequence := last }

/-- Activating a later epoch invalidates every delayed packet from prior sessions. -/
def activateEpoch (gate : SequenceGate) (epoch : SessionEpoch) :
    Except SequenceGateError Unit × SequenceGate :=
  if gate.activeEpoch.any (epoch.get ≤ ·.get) then (.error .epochNotNew, gate)
  else (.ok (), { default with activeEpoch := some epoch })

def checkEpoch {F : Type} (gate : SequenceGate) (frame : Frame F) : Except SequenceGateError Unit :=
  match gate.activeEpoch with
  | none => .error .epochNotActivated
  | some active => if active ≠ frame.epoch then .error .epochMismatch else .ok ()

/-- The sequence space after a newer sequence number. -/
def advance (last : Option Nat) (sequence : Nat) : Except SequenceGateError Unit × Option Nat :=
  if last.any (sequence ≤ ·) then (.error .staleOrReplay, last) else (.ok (), some sequence)

def accept {F : Type} (gate : SequenceGate) (frame : Frame F) :
    Except SequenceGateError Unit × SequenceGate :=
  match gate.checkEpoch frame with
  | .error error => (.error error, gate)
  | .ok () =>
    match frame.delivery with
    | .reliable =>
      let (result, reliableSequence) := advance gate.reliableSequence frame.sequence
      (result, { gate with reliableSequence })
    | .motionDatagram =>
      let (result, motionSequence) := advance gate.motionSequence frame.sequence
      (result, { gate with motionSequence })

/-- Admits a heartbeat newer than the last one, gaps allowed. -/
def acceptHeartbeat {F : Type} (gate : SequenceGate) (frame : Frame F) :
    Except SequenceGateError Unit × SequenceGate :=
  if !frame.message.isHeartbeat then (.error .notHeartbeat, gate)
  else
    match gate.checkEpoch frame with
    | .error error => (.error error, gate)
    | .ok () =>
      let (result, heartbeatSequence) := advance gate.heartbeatSequence frame.sequence
      (result, { gate with heartbeatSequence })

end SequenceGate

inductive RateLimitError where
  | clockMovedBackwards
  | exceeded

/-- A token bucket that holds at most one second of event credit. -/
structure RateLimiter where
  ratePerSecond : Nat
  creditsMilli : Nat
  lastTimestampMs : Option Nat

inductive RateLimitConfigError where
  | zeroRate
  | rateTooHigh
  deriving DecidableEq

def maxEventsPerSecond : Nat := 100000

namespace RateLimiter

def full (ratePerSecond : Nat) : RateLimiter :=
  { ratePerSecond, creditsMilli := ratePerSecond * 1000, lastTimestampMs := none }

def new (ratePerSecond : Nat) : Except RateLimitConfigError RateLimiter :=
  if ratePerSecond = 0 then .error .zeroRate
  else if ratePerSecond > maxEventsPerSecond then .error .rateTooHigh
  else .ok (full ratePerSecond)

/-- The credit a later timestamp refills, both sums saturating at 64 bits. -/
def refilled (limiter : RateLimiter) (last timestampMs : Nat) : Nat :=
  let refill := min ((timestampMs - last) * limiter.ratePerSecond) u64Max
  min (min (limiter.creditsMilli + refill) u64Max) (limiter.ratePerSecond * 1000)

def spend (limiter : RateLimiter) (creditsMilli timestampMs : Nat) :
    Except RateLimitError Unit × RateLimiter :=
  if creditsMilli < 1000 then
    (.error .exceeded, { limiter with creditsMilli, lastTimestampMs := some timestampMs })
  else
    (.ok (), { limiter with creditsMilli := creditsMilli - 1000, lastTimestampMs := some timestampMs })

def allowAt (limiter : RateLimiter) (timestampMs : Nat) : Except RateLimitError Unit × RateLimiter :=
  match limiter.lastTimestampMs with
  | some last =>
    if timestampMs < last then (.error .clockMovedBackwards, limiter)
    else limiter.spend (limiter.refilled last timestampMs) timestampMs
  | none => limiter.spend limiter.creditsMilli timestampMs

end RateLimiter
end Monhop.Protocol
