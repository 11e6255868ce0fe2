import Monhop.Core.Pointer

/-! # Frames

A frame carries one message in a session epoch with a sequence number, for one direction
of the connection.
-/

namespace Monhop.Protocol

open Monhop.Core

def u64Max : Nat := 2 ^ 64 - 1

/-- A count that saturates. -/
def saturatingSucc (most count : Nat) : Nat := if count < most then count + 1 else count

/-- The next counter value; `none` would overflow. -/
def checkedSucc (value : Nat) : Option Nat :=
  if value < u64Max then some (value + 1) else none

theorem checkedSucc_eq_some {value next : Nat} :
    checkedSucc value = some next ↔ value < u64Max ∧ next = value + 1 := by
  by_cases below : value < u64Max
  · simp [checkedSucc, below, eq_comm]
  · simp [checkedSucc, below]

/-- A session epoch is never zero. -/
structure SessionEpoch where
  get : Nat
  positive : 0 < get
  deriving DecidableEq

inductive EpochError where
  | zero

namespace SessionEpoch

def new (value : Nat) : Except EpochError SessionEpoch :=
  if positive : 0 < value then .ok ⟨value, positive⟩ else .error .zero

end SessionEpoch

inductive Motion (F : Type) where
  /-- An absolute logical virtual-desktop position. -/
  | absolute (position : Point F)
  /-- A relative logical movement delta from the current destination cursor. -/
  | relative (delta : Point F)
  deriving DecidableEq

structure Button where
  button : MouseButton
  isDown : Bool
  /-- The source's count for this press and its release. -/
  clickCount : Nat
  deriving DecidableEq

structure Scroll (F : Type) where
  horizontal : F
  vertical : F
  deriving DecidableEq

structure Key where
  usage : HidUsage
  isDown : Bool
  isRepeat : Bool
  modifiers : ModifierState
  deriving DecidableEq

inductive DisconnectCode where
  | requested
  | transportLost
  | protocolViolation
  | sessionExpired
  deriving DecidableEq

inductive ErrorCode where
  | malformedFrame
  | unsupportedVersion
  | sessionExpired
  | rateLimited
  | protocolViolation
  deriving DecidableEq

/-- Why the inbound half refused an activation; it never injects on this path. -/
inductive DeclineReason where
  | contended
  | busy
  | disabled
  deriving DecidableEq

/-- The mutually authenticated authority requested for a session. -/
inductive SessionPurpose where
  | share
  /-- Topology and arrangement exchange only. -/
  | setup
  deriving DecidableEq

/-- Which directions a paired session may carry input. -/
structure ControlPermissions where
  lowerControlsHigher : Bool
  higherControlsLower : Bool
  deriving DecidableEq

def ControlPermissions.BOTH : ControlPermissions :=
  { lowerControlsHigher := true, higherControlsLower := true }

structure SessionSetup where
  purpose : SessionPurpose
  control : ControlPermissions
  deriving DecidableEq

/-- A byte array of a fixed size. -/
abbrev ByteArrayOf (size : Nat) := { bytes : List UInt8 // bytes.length = size }

structure Hello where
  deviceId : DeviceId
  platform : Platform
  protocolVersion : Nat
  capabilities : Nat
  /-- Digest of the sender's saved agreement. -/
  agreement : ByteArrayOf 32
  deriving DecidableEq

/-- A 32-bit floating-point number by its bit pattern. -/
structure Single where
  bits : Nat
  deriving DecidableEq

structure DisplayDescription (F : Type) where
  id : DisplayId
  name : String
  nativeWidth : Nat
  nativeHeight : Nat
  logicalOrigin : Point F
  logicalSize : Point F
  scaleFactor : Single
  isPrimary : Bool
  /-- Present when the platform read the monitor's identity. -/
  monitor : Option MonitorIdentity
  deriving DecidableEq

structure DisplayTopology (F : Type) where
  displays : List (DisplayDescription F)
  deriving DecidableEq

inductive Message (F : Type) where
  | hello (hello : Hello)
  | sessionSetup (setup : SessionSetup)
  | sessionReady
  | displayTopology (topology : DisplayTopology F)
  | motion (motion : Motion F)
  | button (button : Button)
  | scroll (scroll : Scroll F)
  | gesture (gesture : PointerGesture F)
  | systemGesture (gesture : SystemGesture)
  | key (key : Key)
  | modifiers (modifiers : ModifierState)
  | activateDisplay (displayId : DisplayId)
  /-- Anchors the destination pointer before subsequent reliable input is delivered. -/
  | activateDisplayAt (displayId : DisplayId) (position : Point F) (controlAsCommand : Bool)
  | activationAck (displayId : DisplayId)
  /-- Answers an activation without injecting; consumes that epoch like an ack. -/
  | activationDeclined (displayId : DisplayId) (reason : DeclineReason)
  | releaseAll
  | releaseAck
  /-- Local input has already been restored; this never itself moves the pointer. -/
  | takeBack
  | ping (token : Nat)
  | pong (token : Nat)
  | disconnect (code : DisconnectCode)
  | error (code : ErrorCode)
  deriving DecidableEq

inductive DeliveryClass where
  | reliable
  | motionDatagram
  deriving DecidableEq

namespace Message

variable {F : Type}

def delivery : Message F → DeliveryClass
  | .motion (.absolute _) => .motionDatagram
  | _ => .reliable

/-- A heartbeat, in its own sequence space. -/
def isHeartbeat : Message F → Bool
  | .ping _ | .pong _ => true
  | _ => false

def isReleaseAll : Message F → Bool
  | .releaseAll => true
  | _ => false

def isReleaseAck : Message F → Bool
  | .releaseAck => true
  | _ => false

theorem isReleaseAck_eq_false {message : Message F} (other : message ≠ .releaseAck) :
    message.isReleaseAck = false := by
  cases message <;> first | rfl | exact absurd rfl other

end Message

/-- Which directional half of the connection a frame belongs to. -/
inductive FrameScope where
  | connection
  | lowerControlsHigher
  | higherControlsLower
  deriving DecidableEq

structure Frame (F : Type) where
  epoch : SessionEpoch
  sequence : Nat
  message : Message F
  scope : FrameScope
  deriving DecidableEq

/-- A frame of the whole connection. -/
def Frame.new {F : Type} (epoch : SessionEpoch) (sequence : Nat) (message : Message F) : Frame F :=
  { epoch, sequence, message, scope := .connection }

def Frame.withScope {F : Type} (frame : Frame F) (scope : FrameScope) : Frame F :=
  { frame with scope }

def Frame.delivery {F : Type} (frame : Frame F) : DeliveryClass := frame.message.delivery

end Monhop.Protocol
