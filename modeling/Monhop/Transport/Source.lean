import Monhop.Core.Clicks
import Monhop.Core.Floor
import Monhop.Core.Ownership
import Monhop.Core.Topology
import Monhop.Protocol.Admission
import Monhop.Transport.Health
import Monhop.Transport.Quality
import Monhop.Transport.SourceKeys

/-! # The source controller

The controlling half of a session routes captured input either to this computer or to the
peer, and asks its callers for frames and native route changes.  A call is a `Turn`: the
controller with the effects it has asked for so far and the floor it shares.

This module holds the controller's state and the operations its calls are made of: sending,
failing, holding, returning and the bookkeeping at the end of every call.  Peer health
travels in the session's base epoch; activations open epochs of their own.
-/

namespace Monhop.Transport

open Monhop.Core Protocol

/-- Maximum effects produced by one call. -/
def maxSourceEffects : Nat := 16

/-! ## Inputs, effects and failures -/

/-- A platform event in source-controller units. -/
inductive NormalizedInput (F : Type) where
  | key (usage : HidUsage) (pressed isRepeat : Bool) (modifiers : ModifierState)
  | button (button : MouseButton) (pressed : Bool) (stamp : Duration)
  | absoluteMotion (position : Point F)
  | relativeMotion (delta : Point F) (gain : F)
  | scroll (horizontal vertical : F)
  | gesture (gesture : PointerGesture F)
  | systemGesture (gesture : SystemGesture)
  /-- Native-capture FIFO barrier for a new route. -/
  | routeChanged (remote : Bool) (revision : Nat)

/-- A normalized event with the native capture route that admitted it. -/
structure TaggedInput (F : Type) where
  event : NormalizedInput F
  routingRevision : Nat
  remote : Bool
  floorGeneration : Nat

/-- An opaque request identity for one native route command; it is not a capture ticket. -/
structure RouteRequest where
  raw : Nat
  deriving DecidableEq

inductive SourceEffect (F : Type) where
  /-- Send this already-sequenced frame on the reliable stream. -/
  | remoteFrame (frame : Frame F)
  /-- Acquire remote suppression and enqueue the remote route barrier. -/
  | activateRemote (request : RouteRequest)
  /-- Release remote suppression, place the local cursor and enqueue the local route
  barrier. -/
  | restoreLocalAt (request : RouteRequest) (display : DisplayId) (position : Point F)

/-- The pointer leaving one peer's display straight for a third peer's. -/
structure Handover (F : Type) where
  target : PointerTarget
  entry : Point F
  toEdge : Edge
  /-- Motion since the crossing, in the entered display's units. -/
  carried : Point F
  atButton : Option (Point F)
  returnTarget : PointerTarget
  returnPosition : Point F
  /-- Returning for the peer that handed over. -/
  claim : FloorSnapshot
  /-- The free floor generation the trip began from. -/
  claimedFrom : Nat
  routeRevision : Nat

/-- Construction failures. -/
inductive SourceConfigError where
  | unknownLocalDisplay
  | localDisplayBelongsToAnotherMachine
  | ownership
  | unknownPeer

/-- A sticky source-controller failure. -/
inductive SourceFailure where
  | clockRegression
  | peerHealth (error : HealthError)
  | invalidCapturedInput
  | invalidKeyState
  | routeMismatch
  | unexpectedRouteBarrier
  | invalidActivationAcknowledgement
  | invalidReleaseAcknowledgement
  | invalidRemoteFrame
  | rateLimited
  | nativeControl
  | topology
  | ownership
  | protocolEpochExhausted
  | sequenceExhausted
  | routeRequestExhausted
  | effectCapacityExceeded
  /-- The peer's link ended while the rest of the group runs on. -/
  | linkEnded

structure SourceOutcome (F : Type) where
  effects : List (SourceEffect F)
  failure : Option SourceFailure
  handover : Option (Handover F)

/-! ## The states -/

/-- A request to the peer whose acknowledgement has not come. -/
structure Activation (F : Type) where
  target : PointerTarget
  entry : Point F
  returnTarget : PointerTarget
  returnPosition : Point F
  ownershipEpoch : Nat
  captureAlreadyRemote : Bool
  /-- Motion since the handover began, in the target's units. -/
  carried : Point F
  /-- `carried` when a button first changed in flight. -/
  atButton : Option (Point F)
  /-- Taken over from another peer's controller. -/
  handover : Bool

/-- A remote route command whose barrier has not come. -/
structure RemoteBarrier (F : Type) where
  target : PointerTarget
  position : Point F
  carried : Point F
  returnTarget : PointerTarget
  returnPosition : Point F
  request : RouteRequest
  ticket : Option Nat

structure RemoteStay (F : Type) where
  target : PointerTarget
  position : Point F
  returnTarget : PointerTarget
  returnPosition : Point F

structure HandoverTarget (F : Type) where
  target : PointerTarget
  entry : Point F
  toEdge : Edge
  atButton : Option (Point F)

/-- A `ReleaseAll` whose acknowledgement has not come. -/
structure ReleaseWait (F : Type) where
  home : PointerTarget
  homePosition : Point F
  /-- Motion since an edge return began; `none` for a return that lands exactly. -/
  carried : Option (Point F)
  ownershipEpoch : Option Nat
  /-- The acknowledgement hands the pointer to a third peer instead of restoring. -/
  handover : Option (HandoverTarget F)

/-- A local route command whose barrier has not come. -/
structure LocalBarrier (F : Type) where
  home : PointerTarget
  position : Point F
  request : RouteRequest
  ticket : Option Nat

inductive State (F : Type) where
  | localInput (target : PointerTarget) (cursor : Option (Point F))
  | awaitActivation (wait : Activation F)
  | awaitRemoteBarrier (wait : RemoteBarrier F)
  | remote (stay : RemoteStay F)
  | awaitRelease (wait : ReleaseWait F)
  | awaitLocalBarrier (wait : LocalBarrier F)
  | failed

/-- Observable routing mode. -/
inductive SourceMode where
  | localInput
  | awaitActivationAcknowledgement
  | awaitRemoteCaptureBarrier
  | remote
  | awaitRemoteReleaseAcknowledgement
  | awaitLocalCaptureBarrier
  | failed
  deriving DecidableEq

namespace State

variable {F : Type}

def mode : State F → SourceMode
  | localInput _ _ => .localInput
  | awaitActivation _ => .awaitActivationAcknowledgement
  | awaitRemoteBarrier _ => .awaitRemoteCaptureBarrier
  | remote _ => .remote
  | awaitRelease _ => .awaitRemoteReleaseAcknowledgement
  | awaitLocalBarrier _ => .awaitLocalCaptureBarrier
  | failed => .failed

end State

/-- Motion summed with older motion fading. -/
structure RecentMotion (F : Type) where
  sum : Point F
  stamp : Duration

/-- Outward push held against one linked edge. -/
structure EdgePush (F : Type) where
  display : DisplayId
  edge : Edge
  /-- When the run began and last pushed; unset until pushing motion starts one. -/
  run : Option (Duration × Duration)
  /-- Outward relative travel this run, in the controlling mouse's own units. -/
  travel : F
  /-- Depth past the edge line that absolute samples gained this run. -/
  reach : F
  /-- The last absolute sample, which the next one's step is measured from. -/
  sample : Option (Point F)
  /-- Where the absolute samples have been heading. -/
  heading : RecentMotion F

/-- One push per axis, so a corner's two linked edges push independently. -/
structure EdgePushes (F : Type) where
  horizontal : Option (EdgePush F)
  vertical : Option (EdgePush F)

def EdgePushes.none {F : Type} : EdgePushes F := { horizontal := .none, vertical := .none }

structure CaptureRoute where
  remote : Bool
  revision : Nat
  /-- This controller issued the route, so only it may restore it. -/
  owned : Bool

/-- A declined seam: from and to which display, when pressing began and was last seen. -/
structure Declined where
  source : DisplayId
  target : DisplayId
  since : Option Duration
  last : Duration

/-! ## The controller -/

/-- What a session's setup and its owner give the controller. -/
structure SourceSetup (F : Type) where
  enabled : Bool
  peerOffset : Point F
  topology : Topology F
  /-- The one machine this controller's link reaches. -/
  peer : Option DeviceId
  slot : FloorPeer
  /-- Third peers whose controllers can take a handover right now. -/
  reachable : List DeviceId
  home : PointerTarget
  baseEpoch : SessionEpoch

/-- What the controller follows of the pointer, the seams and the link's quality. -/
structure SourceTracking (F : Type) where
  freeGeneration : Nat
  rebasePointer : Bool
  /-- This computer's own trip ended at a verified cursor. -/
  anchoredReturn : Bool
  /-- Native capture refuses suppression while input held since its start is down. -/
  captureReady : Bool
  declined : Option Declined
  /-- Display and edge the last crossing entered through. -/
  entryGuard : Option (DisplayId × Edge)
  edgePushes : EdgePushes F
  recentMotion : RecentMotion F
  clicks : ClickCounter F
  quality : LinkMonitor F

/-- What the controller owes the peer, native capture and the floor. -/
structure SourceDuties (F : Type) where
  floorClaim : Option FloorSnapshot
  takeBack : Bool
  /-- Set by the release acknowledgement that completes a handover, taken by `outcome`. -/
  handover : Option (Handover F)
  ownership : PointerOwnership
  state : State F
  inputEpoch : SessionEpoch
  outboundInputSequence : Nat
  outboundControlSequence : Nat
  inboundInputEpoch : Option SessionEpoch
  inboundInputSequence : Option Nat
  /-- Newer than the last heartbeat counts, gaps are fine. -/
  inboundHeartbeats : SequenceGate
  captureRoute : CaptureRoute
  nextRouteRequest : Nat
  failedRouteRequest : Option RouteRequest
  keys : KeyTable
  buttons : ButtonTable
  health : PeerHealth
  /-- Motion waiting for its slot while the link is degraded or bad. -/
  pacer : MotionPacer F
  remoteLimiter : RateLimiter
  lastNow : Duration
  remoteTarget : Option PointerTarget
  failure : Option SourceFailure
  /-- Set while the peer has been silent past the retreat point and its barrier is
  unacknowledged. -/
  heldSince : Option Duration
  /-- ReleaseAll frames the receiver still owes an acknowledgement for during a hold. -/
  releaseAcksPending : Nat
  holdPongSeen : Bool
  barrierSentAt : Duration
  holds : Nat
  heldMax : Duration

structure SourceController (F : Type) extends SourceSetup F, SourceTracking F, SourceDuties F

/-! ## A call -/

/-- The user's settings and the cursor's confinement, as a call reads them. -/
structure SourceSettings where
  controlAsCommand : Bool
  pointerSpeed : Int
  pointerConfined : Bool

/-- What a call does, in order. -/
inductive SourceEvent (F : Type) where
  /-- An effect, with the position then waiting in the pacer. -/
  | asked (effect : SourceEffect F) (waiting : Option (Point F))
  /-- A frame of the peer taken in its order. -/
  | accepted (frame : Frame F)
  /-- A swap this controller made on the floor. -/
  | swapped (source target : FloorSnapshot)
  | held (now : Duration)
  | resumed (now : Duration)

def SourceEvent.effect? {F : Type} : SourceEvent F → Option (SourceEffect F)
  | .asked effect _ => some effect
  | _ => none

/-- One call in progress.  The receiving half, the other controllers and their owner act on
the floor between any two accesses: the script is what they leave before each of the next
ones. -/
structure Turn (F : Type) where
  source : SourceController F
  floor : FloorSnapshot
  script : List FloorSnapshot
  settings : SourceSettings
  trace : List (SourceEvent F)

/-! ## What the controller answers about itself -/

namespace SourceController

variable {F : Type}
variable (source : SourceController F)

def mode : SourceMode := source.state.mode

def isFailed : Bool := source.failure.isSome

def isHeld : Bool := source.heldSince.isSome

def isLocal : Bool := source.mode == .localInput

def remoteMayHold : Bool :=
  source.remoteTarget.isSome ||
    match source.state with
    | .awaitActivation _ | .awaitRemoteBarrier _ | .remote _ | .awaitRelease _ => true
    | _ => false

def nativeMayBeRemote : Bool :=
  source.captureRoute.remote && source.captureRoute.owned ||
    match source.state with
    | .awaitRemoteBarrier _ | .remote _ | .awaitRelease _ | .awaitLocalBarrier _ => true
    | _ => false

def clearRemoteDelivery : SourceController F :=
  { source with keys := source.keys.clearRemote, buttons := source.buttons.clearRemote }

/-- A handover in flight whose captured relative motion the pointer carries on with. -/
def carriesPendingMotion : Bool :=
  match source.state with
  | .awaitActivation wait => !wait.captureAlreadyRemote || wait.handover
  | .awaitRemoteBarrier _ => true
  | .awaitRelease wait => wait.carried.isSome
  | _ => false

/-- Captured under this computer's own floor, from the free floor it last left to its
claim. -/
def claimedGeneration (generation : Nat) : Bool :=
  source.floorClaim.any fun claim =>
    decide (source.freeGeneration ≤ generation) && decide (generation ≤ claim.generation)

/-- The pointer landed, or began its return home: pushes end and the heading starts over. -/
def landed [Scalar F] (source : SourceController F) : SourceController F :=
  { source with edgePushes := .none, recentMotion := { sum := .origin, stamp := 0 } }

/-- Remote input that has heard nothing fresh comes home while the native lease is valid. -/
def shouldRetreat (now : Duration) : Bool :=
  (source.remoteMayHold || source.nativeMayBeRemote) &&
    decide (now - source.health.lastResponse ≥ retreatAfter)

def displayOrigin [Scalar F] (target : PointerTarget) : Point F :=
  match source.topology.display target.display with
  | .ok display => display.origin
  | .error _ => .origin

def failureRestoreTarget [Scalar F] : PointerTarget × Point F :=
  match source.state with
  | .localInput target cursor => (target, cursor.getD (source.displayOrigin target))
  | .awaitActivation wait => (wait.returnTarget, wait.returnPosition)
  | .awaitRemoteBarrier wait => (wait.returnTarget, wait.returnPosition)
  | .remote stay => (stay.returnTarget, stay.returnPosition)
  | .awaitRelease wait => (wait.home, wait.homePosition)
  | .awaitLocalBarrier wait => (wait.home, wait.position)
  | .failed => (source.home, source.displayOrigin source.home)

/-! ## Epochs, sequences and ownership -/

def activateInputEpoch (epoch : SessionEpoch) : Bool × SourceController F :=
  if source.inboundInputEpoch.any fun active => decide (epoch.get ≤ active.get) then (false, source)
  else (true, { source with inboundInputEpoch := some epoch, inboundInputSequence := none })

def acceptInputSequence (sequence : Nat) : Bool × SourceController F :=
  if source.inboundInputEpoch ≠ some source.inputEpoch ∨
      source.inboundInputSequence.any (fun last => decide (sequence ≤ last)) = true then
    (false, source)
  else (true, { source with inboundInputSequence := some sequence })

def nextInputEpoch : Option SessionEpoch :=
  match checkedSucc source.inputEpoch.get with
  | none => none
  | some value => (SessionEpoch.new value).toOption

/-- Records the retreat as a timeout and settles on the restore target at once. -/
def recoverOwnershipAt (ownership : PointerOwnership) (target : PointerTarget) :
    Bool × PointerOwnership :=
  match ownership.onTimeout with
  | (.error _, ownership) => (false, ownership)
  | (.ok plan, ownership) =>
    match ownership.completeRecovery plan.epoch with
    | (.error _, ownership) => (false, ownership)
    | (.ok (), ownership) =>
      match ownership.beginTransition target with
      | (.ok (.beginTransition _ _ epoch), ownership) =>
        let (acknowledged, ownership) := ownership.acknowledgeTransition { target, epoch }
        (acknowledged.isOk, ownership)
      | (.error .sameTarget, ownership) => (true, ownership)
      | (_, ownership) => (false, ownership)

end SourceController

/-! ## Sending and failing -/

namespace Turn

variable {F : Type}

def update (turn : Turn F) (change : SourceController F → SourceController F) : Turn F :=
  { turn with source := change turn.source }

def record (turn : Turn F) (event : SourceEvent F) : Turn F :=
  { turn with trace := turn.trace ++ [event] }

def isFailed (turn : Turn F) : Bool := turn.source.isFailed

def effects (turn : Turn F) : List (SourceEffect F) := turn.trace.filterMap SourceEvent.effect?

def hasRoom (turn : Turn F) : Bool := decide (turn.effects.length < maxSourceEffects)

/-- The turn with an effect more, unless the array is full. -/
def push (turn : Turn F) (effect : SourceEffect F) : Turn F :=
  if turn.hasRoom then turn.record (.asked effect turn.source.pacer.waiting) else turn

/-- A failing call still releases what the peer may hold. -/
def failRelease (turn : Turn F) (remoteMayHold : Bool) : Turn F :=
  if remoteMayHold then
    match checkedSucc turn.source.outboundInputSequence with
    | none => turn
    | some next =>
      (turn.update fun source => { source with outboundInputSequence := next }).push
        (.remoteFrame (.new turn.source.inputEpoch turn.source.outboundInputSequence .releaseAll))
  else turn

/-- A failing call still brings native input home. -/
def failRestore (turn : Turn F) (nativeMayBeRemote : Bool) (restore : PointerTarget × Point F) :
    Turn F :=
  if nativeMayBeRemote then
    match checkedSucc turn.source.nextRouteRequest with
    | none => turn
    | some next =>
      let request : RouteRequest := ⟨turn.source.nextRouteRequest⟩
      (turn.update fun source =>
        { source with nextRouteRequest := next, failedRouteRequest := some request }).push
        (.restoreLocalAt request restore.1.display restore.2)
  else turn

/-- The peer holds nothing of this computer any more. -/
def forgetRemote (turn : Turn F) : Turn F :=
  turn.update fun source => { source with remoteTarget := none }.clearRemoteDelivery

variable [Scalar F]
variable (turn : Turn F)

/-- What `fail` makes of the controller before its cleanup is asked for. -/
def stop (failure : SourceFailure) : Turn F :=
  turn.update fun source =>
    { source with
      failure := some failure, state := .failed, entryGuard := none
      pacer := source.pacer.discard, edgePushes := .none
      ownership := source.ownership.onTimeout.2 }

def fail (failure : SourceFailure) : Turn F :=
  if turn.isFailed then turn
  else
    let remoteMayHold := turn.source.remoteMayHold
    let nativeMayBeRemote := turn.source.nativeMayBeRemote
    let restore := turn.source.failureRestoreTarget
    ((turn.stop failure).failRelease remoteMayHold).forgetRemote.failRestore nativeMayBeRemote
      restore

def pushEffect (effect : SourceEffect F) : Bool × Turn F :=
  if turn.hasRoom then (true, turn.push effect) else (false, turn.fail .effectCapacityExceeded)

def sendInput (message : Message F) : Turn F :=
  match checkedSucc turn.source.outboundInputSequence with
  | none => turn.fail .sequenceExhausted
  | some next =>
    ((turn.update fun source => { source with outboundInputSequence := next }).pushEffect
      (.remoteFrame (.new turn.source.inputEpoch turn.source.outboundInputSequence message))).2

def pushControl (message : Message F) : Turn F :=
  match checkedSucc turn.source.outboundControlSequence with
  | none => turn.fail .sequenceExhausted
  | some next =>
    ((turn.update fun source => { source with outboundControlSequence := next }).pushEffect
      (.remoteFrame (.new turn.source.baseEpoch turn.source.outboundControlSequence message))).2

/-- False when sending the waiting motion failed the controller. -/
def flushMotion : Bool × Turn F :=
  match turn.source.pacer.flush turn.source.lastNow with
  | (none, pacer) => (true, turn.update fun source => { source with pacer })
  | (some position, pacer) =>
    let turn := (turn.update fun source => { source with pacer }).sendInput
      (.motion (.absolute position))
    (!turn.isFailed, turn)

/-- Absolute motion waits for its slot while the link is degraded. -/
def pushMotion (position : Point F) : Turn F :=
  match turn.source.pacer.offer position turn.source.quality.quality.motionInterval
      turn.source.lastNow with
  | (none, pacer) => turn.update fun source => { source with pacer }
  | (some position, pacer) =>
    (turn.update fun source => { source with pacer }).sendInput (.motion (.absolute position))

/-- Any other input first sends the motion waiting before it. -/
def pushInput (message : Message F) : Turn F :=
  match message with
  | .motion (.absolute position) => turn.pushMotion position
  | message =>
    match turn.flushMotion with
    | (true, turn) => turn.sendInput message
    | (false, turn) => turn

def allocateRouteRequest : Option RouteRequest × Turn F :=
  match checkedSucc turn.source.nextRouteRequest with
  | none => (none, turn.fail .routeRequestExhausted)
  | some next =>
    (some ⟨turn.source.nextRouteRequest⟩,
      turn.update fun source => { source with nextRouteRequest := next })

/-! ## Time, health and holds -/

def observeTime (now : Duration) : Bool × Turn F :=
  if now < turn.source.lastNow then (false, turn.fail .clockRegression)
  else (true, turn.update fun source => { source with lastNow := now })

def sendHoldBarrier (now : Duration) : Turn F :=
  let turn := turn.pushInput .releaseAll
  if turn.isFailed then turn
  else
    turn.update fun source =>
      { source with
        releaseAcksPending := saturatingSucc u32Max source.releaseAcksPending, barrierSentAt := now }

/-- The last of a hold's changes. -/
def markHeld (now : Duration) : Turn F :=
  (turn.update fun source =>
    { source with
      heldSince := some now, edgePushes := .none, holdPongSeen := false
      holds := saturatingSucc u32Max source.holds }).record (.held now)

/-- Asks native capture to come home; false when that failed the controller. -/
def restoreLocal (target : PointerTarget) (position : Point F) : Bool × Turn F :=
  match turn.allocateRouteRequest with
  | (none, turn) => (false, turn)
  | (some request, turn) =>
    match turn.pushEffect (.restoreLocalAt request target.display position) with
    | (false, turn) => (false, turn)
    | (true, turn) =>
      (true, turn.update fun source =>
        { source with
          state := .awaitLocalBarrier { home := target, position, request, ticket := none } })

/-- Brings input home after a hold's barrier went out. -/
def retreatHome (restorePending nativeMayBeRemote : Bool)
    (restore : PointerTarget × Point F) (now : Duration) : Turn F :=
  -- a native restore already in flight completes the return
  if restorePending then turn.markHeld now
  else if nativeMayBeRemote then
    match turn.restoreLocal restore.1 restore.2 with
    | (false, turn) => turn
    | (true, turn) => turn.markHeld now
  else
    (turn.update fun source =>
      { source with state := .localInput restore.1 (some restore.2) }).markHeld now

/-- Counts the acknowledgements of what was sent before the barrier. -/
def owe (ownership : PointerOwnership) (owed : Nat) : Turn F :=
  turn.update fun source =>
    { source with
      ownership, releaseAcksPending := min (source.releaseAcksPending + owed) u32Max }

/-- Sends the barrier and brings input home. -/
def retreat (now : Duration) : Turn F :=
  let restorePending := turn.source.mode == .awaitLocalCaptureBarrier
  let nativeMayBeRemote := turn.source.nativeMayBeRemote
  let restore := turn.source.failureRestoreTarget
  -- a ReleaseAll the ordinary return path already sent is acknowledged before the barrier
  let owed := if turn.source.mode = .awaitRemoteReleaseAcknowledgement then 1 else 0
  match SourceController.recoverOwnershipAt turn.source.ownership restore.1 with
  | (false, ownership) => (turn.update fun source => { source with ownership }).fail .ownership
  | (true, ownership) =>
    let turn := (turn.owe ownership owed).sendHoldBarrier now
    if turn.isFailed then turn
    else turn.forgetRemote.retreatHome restorePending nativeMayBeRemote restore now

/-- The peer went silent: release everything it may hold, bring the pointer home, send the
barrier, and wait for the link instead of ending the session. -/
def hold (now : Duration) : Turn F :=
  match turn.source.health.hold now with
  | (.error error, health) =>
    (turn.update fun source => { source with health }).fail (.peerHealth error)
  | (.ok (), health) =>
    (turn.update fun source =>
      { source with health, quality := (source.quality.held now).2 }).retreat now

def checkHealth (now : Duration) : Bool × Turn F :=
  if turn.source.isHeld then (true, turn)
  else
    match turn.source.health.check now with
    | (.ok (), health) => (true, turn.update fun source => { source with health })
    | (.error .deadlineExpired, health) =>
      let turn := (turn.update fun source => { source with health }).hold now
      (!turn.isFailed, turn)
    | (.error error, health) =>
      (false, (turn.update fun source => { source with health }).fail (.peerHealth error))

/-- The hold ends once the receiver has consumed the barrier and answered a challenge sent
after the hold began. -/
def tryResume (now : Duration) : Turn F :=
  match turn.source.heldSince with
  | none => turn
  | some since =>
    if turn.source.releaseAcksPending > 0 || !turn.source.holdPongSeen then turn
    else
      match turn.source.health.resume now with
      | (.error error, health) =>
        turn.update fun source =>
          { source with health, failure := source.failure.or (some (.peerHealth error)) }
      | (.ok (), health) =>
        (turn.update fun source =>
          { source with
            health, heldMax := max source.heldMax (now - since), heldSince := none
            holdPongSeen := false }).record (.resumed now)

/-! ## The floor and returns -/

section

omit [Scalar F]

/-- The floor the next access finds. -/
def arrive : Turn F :=
  match turn.script with
  | [] => turn
  | floor :: script => { turn with floor, script }

def floorSnapshot : FloorSnapshot × Turn F := (turn.arrive.floor, turn.arrive)

def swapped (floor : FloorSnapshot) : Turn F :=
  { turn with floor }.record (.swapped turn.floor floor)

def floorCall (operation : FloorOp) : Except FloorSnapshot FloorSnapshot × Turn F :=
  match operation.run turn.arrive.floor with
  | .ok floor => (.ok floor, turn.arrive.swapped floor)
  | .error found => (.error found, turn.arrive)

end

def localCrossingAllowed : Bool × Turn F :=
  let (floor, turn) := turn.floorSnapshot
  if floor.state ≠ .free then (false, turn)
  else
    let turn :=
      if floor.generation ≠ turn.source.freeGeneration then
        turn.update fun source =>
          { source with freeGeneration := floor.generation, rebasePointer := true }
      else turn
    (turn.source.enabled && !turn.source.rebasePointer, turn)

def dropClaim : Turn F :=
  turn.update fun source => { source with anchoredReturn := false, floorClaim := none }

def releaseFloor : Turn F :=
  match turn.source.floorClaim with
  | none => turn.dropClaim
  | some owned =>
    match turn.dropClaim.floorCall (.transition owned .free) with
    | (.ok free, after) =>
      -- no inbound claim came between, so the pointer needs no rebase from a poll
      if turn.source.anchoredReturn then
        after.update fun source => { source with freeGeneration := free.generation }
      else after
    | (.error _, after) => (after.floorCall (.release .outbound owned.generation)).2

/-- Moves a held claim to `Returning`; false when that failed the controller. -/
def returnFloor : Bool × Turn F :=
  match turn.source.floorClaim with
  | none => (true, turn)
  | some owned =>
    match turn.floorCall (.transition owned .returning) with
    | (.ok returning, turn) =>
      (true, turn.update fun source => { source with floorClaim := some returning })
    | (.error _, turn) => (false, turn.fail .ownership)

/-- Opens an ownership transition and yields its epoch; a refusal fails the session. -/
def beginOwnershipTransition (target : PointerTarget) : Option Nat × Turn F :=
  match turn.source.ownership.beginTransition target with
  | (.ok (.beginTransition _ _ epoch), ownership) =>
    (some epoch, turn.update fun source => { source with ownership })
  | (_, ownership) => (none, (turn.update fun source => { source with ownership }).fail .ownership)

/-- `entryGuard` is the home edge an edge return lands on; with `handover` the
acknowledgement hands the pointer on instead of restoring it. -/
def beginReturnTo (home : PointerTarget) (homePosition : Point F)
    (entryGuard : Option (DisplayId × Edge)) (handover : Option (HandoverTarget F)) : Turn F :=
  match turn.returnFloor with
  | (false, turn) => turn
  | (true, turn) =>
    match turn.beginOwnershipTransition home with
    | (none, turn) => turn
    | (some ownershipEpoch, turn) =>
      let turn := turn.pushInput .releaseAll
      if turn.isFailed then turn
      else
        turn.update fun source =>
          { source.landed with
            entryGuard
            state := .awaitRelease
              { home, homePosition
                carried := if entryGuard.isSome || handover.isSome then some .origin else none
                ownershipEpoch := some ownershipEpoch, handover } }

/-- A take-back brings the pointer home once the pointer is there to bring. -/
def settleTakeBack : Turn F :=
  if turn.source.takeBack then
    match turn.source.state with
    | .remote stay =>
      (turn.update fun source => { source with takeBack := false }).beginReturnTo stay.returnTarget
        stay.returnPosition none none
    | .localInput _ _ => turn.update fun source => { source with takeBack := false }
    | _ => turn
  else turn

/-- At home with nothing owed, the floor is given back. -/
def settleFloor : Turn F :=
  if turn.source.isLocal && turn.source.releaseAcksPending == 0 then turn.releaseFloor else turn

def outcome : SourceOutcome F × Turn F :=
  let turn := if turn.isFailed then turn else turn.settleTakeBack.settleFloor
  ({ effects := turn.effects, failure := turn.source.failure, handover := turn.source.handover },
    turn.update fun source => { source with anchoredReturn := false, handover := none })

end Turn
end Monhop.Transport
