import Monhop.Transport.SourcePointer

/-! # The source controller's calls

Everything the controller's owner may call: captured records, frames from the peer, ticks,
route tickets and refusals, handovers, routes issued by other controllers.  Every call ends
in `outcome`.  A failed controller answers every call with its failure.
-/

namespace Monhop.Transport

open Monhop.Core Protocol

section Calls
variable {F : Type} [Scalar F]

/-- The usages of the eight modifiers, in table order. -/
def modifierUsages : List Nat := [0xe0, 0xe1, 0xe2, 0xe3, 0xe4, 0xe5, 0xe6, 0xe7]

def isModifierIndex (index : Nat) : Bool := decide (0xe0 ≤ index) && decide (index ≤ 0xe7)

/-- The other usages of the key table. -/
def ordinaryUsages : List Nat := (List.range 256).filter fun index => !isModifierIndex index

variable (source : SourceController F)

namespace SourceController

/-! ## Construction and settings -/

def heartbeatGate (epoch : SessionEpoch) (last : Option Nat) : SequenceGate :=
  { SequenceGate.default with activeEpoch := some epoch }.seedHeartbeat last

/-- A controller at home, before anything happened. -/
def fresh (topology : Topology F) (home : PointerTarget) (ownership : PointerOwnership)
    (peer : Option DeviceId) (sessionEpoch : SessionEpoch) (nextControlSequence : Nat)
    (now : Duration) : SourceController F :=
  { enabled := true, peerOffset := .origin, topology, peer, slot := .SOLE, reachable := [], home
    baseEpoch := sessionEpoch
    freeGeneration := 1, rebasePointer := false, anchoredReturn := false, captureReady := true
    declined := none, entryGuard := none, edgePushes := .none, recentMotion := .default
    clicks := .default, quality := .default
    floorClaim := none, takeBack := false, handover := none, ownership
    state := .localInput home none, inputEpoch := sessionEpoch, outboundInputSequence := 0
    outboundControlSequence := nextControlSequence, inboundInputEpoch := none
    inboundInputSequence := none
    inboundHeartbeats := heartbeatGate sessionEpoch
      (if nextControlSequence = 0 then none else some (nextControlSequence - 1))
    captureRoute := { remote := false, revision := 0, owned := true }
    nextRouteRequest := 1, failedRouteRequest := none, keys := .up, buttons := .up
    health := .new now, pacer := .default, remoteLimiter := .full 20000, lastNow := now
    remoteTarget := none, failure := none, heldSince := none, releaseAcksPending := 0
    holdPongSeen := false, barrierSentAt := 0, holds := 0, heldMax := 0 }

/-- A pairwise topology names its peer; a group's must be named with `withPeer`. -/
def solePeer (topology : Topology F) (localMachine : DeviceId) : Option DeviceId :=
  let others := (topology.displays.map Display.machine).filter fun machine => machine != localMachine
  match others with
  | [] => none
  | first :: rest => if rest.all fun machine => machine == first then some first else none

def new (topology : Topology F) (localMachine : DeviceId) (localDisplay : DisplayId)
    (sessionEpoch : SessionEpoch) (nextControlSequence : Nat) (now : Duration) :
    Except SourceConfigError (SourceController F) :=
  match topology.display localDisplay with
  | .error _ => .error .unknownLocalDisplay
  | .ok display =>
    if display.machine ≠ localMachine then .error .localDisplayBelongsToAnotherMachine
    else
      let home := { machine := localMachine, display := localDisplay }
      match PointerOwnership.new localMachine home with
      | .error _ => .error .ownership
      | .ok ownership =>
        .ok (fresh topology home ownership (solePeer topology localMachine) sessionEpoch
          nextControlSequence now)

section

omit [Scalar F]

/-- Both directional halves share the same floor. -/
def withFloor (floor : FloorSnapshot) (enabled : Bool) : SourceController F :=
  { source with freeGeneration := floor.generation, enabled }

/-- Names the one peer of a group topology this controller's link reaches, and its slot. -/
def withPeer (peer : DeviceId) (slot : FloorPeer) : Except SourceConfigError (SourceController F) :=
  if peer = source.home.machine ∨
      (!source.topology.displays.any fun display => display.machine == peer) ∨ slot = .NONE then
    .error .unknownPeer
  else .ok { source with peer := some peer, slot }

/-- Continues the health of the session's start. -/
def finishStartup (epoch : SessionEpoch) (nextHeartbeatOut : Nat)
    (lastHeartbeatIn : Option Nat) (health : PeerHealth) (limiter : RateLimiter)
    (now : Duration) : SourceController F :=
  { source with
    outboundControlSequence := nextHeartbeatOut
    inboundHeartbeats := heartbeatGate epoch lastHeartbeatIn, health, remoteLimiter := limiter
    lastNow := now }

def setReachable (peers : List DeviceId) : SourceController F :=
  { source with reachable := peers.take maxGroupPeers }

def setPeerOffset (offset : Point F) : SourceController F :=
  { source with peerOffset := offset }

def setDoubleClickInterval (interval : Duration) : SourceController F :=
  { source with clicks := .new interval }

def setCaptureReady (ready : Bool) : SourceController F :=
  { source with captureReady := ready }

/-- Input seen during readiness updates only the physical ledger. -/
def inheritBookkeeping (source earlier : SourceController F) : SourceController F :=
  { source with
    keys := earlier.keys, buttons := earlier.buttons, captureReady := earlier.captureReady }

/-- Starts a controller that joins a running group from the group's physical ledger and its
current capture route, which another controller issued. -/
def seedFromGroup (keys : List HidUsage) (buttons : List MouseButton)
    (route : Bool × Nat) (captureReady : Bool) : Except SourceFailure Unit × SourceController F :=
  match source.failure with
  | some failure => (.error failure, source)
  | none =>
    if !source.isLocal || source.floorClaim.isSome then (.error .ownership, source)
    else if (route.1 && route.2 == 0) || decide (route.2 < source.captureRoute.revision) then
      (.error .routeMismatch, source)
    else if keys.any fun usage => !usage.isValid then (.error .invalidKeyState, source)
    else
      (.ok (),
        { source with
          keys := fun index =>
            { source.keys index with physical := keys.any fun usage => usage.code == index }
          buttons := fun button =>
            { source.buttons button with physical := buttons.contains button }
          captureRoute := { remote := route.1, revision := route.2, owned := false }
          captureReady })

/-- The remaining fresh-peer time for native suppression. -/
def suppressionBudget (now : Duration) : Except SourceFailure Duration × SourceController F :=
  match source.failure with
  | some failure => (.error failure, source)
  | none =>
    if now < source.lastNow then (.error .clockRegression, source)
    else
      let source := { source with lastNow := now }
      if source.isHeld then (.error (.peerHealth .deadlineExpired), source)
      else if source.captureRoute.remote && !source.captureRoute.owned then
        (.error .ownership, source)
      else
        match source.health.remaining now with
        | (.ok remaining, health) => (.ok remaining, { source with health })
        | (.error error, health) => (.error (.peerHealth error), { source with health })

/-- A button changed while the pointer was in flight between displays of other computers. -/
def markButton : SourceController F :=
  match source.state with
  | .awaitActivation wait =>
    if wait.captureAlreadyRemote then
      { source with
        state := .awaitActivation { wait with atButton := wait.atButton.or (some wait.carried) } }
    else source
  | .awaitRelease wait =>
    match wait.carried, wait.handover with
    | some carried, some handover =>
      { source with
        state := .awaitRelease
          { wait with
            handover := some { handover with atButton := handover.atButton.or (some carried) } } }
    | _, _ => source
  | _ => source

/-- Once held or home, a take-back the stall delayed past a reanchor is stale, not hostile. -/
def lateTakeBack (epoch : SessionEpoch) : Bool :=
  (source.isHeld || source.isLocal || source.mode == .awaitLocalCaptureBarrier) &&
    decide (epoch.get ≤ source.inputEpoch.get) &&
    source.inboundInputEpoch.all fun opened => decide (opened.get ≤ epoch.get)

end
end SourceController

variable (turn : Turn F)

namespace Turn

/-! ## Held input follows the pointer -/

def releaseRemoteKey (index : Nat) : Turn F :=
  let keys := turn.source.keys.setRemote index false
  (turn.update fun source => { source with keys }).pushInput
    (.key { usage := ⟨index⟩, isDown := false, isRepeat := false
            modifiers := keys.remoteModifiers })

def pressRemoteKey (index : Nat) : Turn F :=
  let keys := turn.source.keys.setRemote index true
  (turn.update fun source => { source with keys }).pushInput
    (.key { usage := ⟨index⟩, isDown := true, isRepeat := false
            modifiers := keys.remoteModifiers })

def releaseRemoteButton (button : MouseButton) : Turn F :=
  (turn.update fun source =>
    { source with buttons := source.buttons.releaseRemote button }).pushInput
    (.button { button, isDown := false, clickCount := (turn.source.buttons button).remoteClicks })

def pressRemoteButton (button : MouseButton) : Turn F :=
  (turn.update fun source =>
    { source with buttons := source.buttons.pressRemote button singleClick }).pushInput
    (.button { button, isDown := true, clickCount := singleClick })

/-- Presses each that needs it until one fails the controller; false when one did. -/
def pressEach {Index : Type} (needs : SourceController F → Index → Bool)
    (press : Turn F → Index → Turn F) : List Index → Turn F → Bool × Turn F
  | [], turn => (true, turn)
  | index :: rest, turn =>
    if needs turn.source index then
      let turn := press turn index
      if turn.isFailed then (false, turn) else pressEach needs press rest turn
    else pressEach needs press rest turn

def resetClicks : Turn F :=
  turn.update fun source => { source with clicks := source.clicks.reset }

def keyWaits (index : Nat) : Bool :=
  (source.keys index).physical && !(source.keys index).remote

def buttonWaits (button : MouseButton) : Bool :=
  (source.buttons button).physical && !(source.buttons button).remote

/-- Held modifiers and buttons follow the pointer onto another computer; held ordinary keys
do not. -/
def transferToRemote : Turn F :=
  match pressEach keyWaits pressRemoteKey modifierUsages turn.resetClicks with
  | (false, turn) => turn
  | (true, turn) => (pressEach buttonWaits pressRemoteButton MouseButton.ALL turn).2

section

omit [Scalar F]

/-- The keys and buttons whose state on the peer is not their physical one. -/
def remoteChanges : Nat :=
  ((List.range 256).countP fun index =>
      (source.keys index).remote != (source.keys index).physical) +
    MouseButton.ALL.countP fun button =>
      (source.buttons button).remote != (source.buttons button).physical

def keyLingers (index : Nat) : Bool :=
  (source.keys index).remote && !(source.keys index).physical

def buttonLingers (button : MouseButton) : Bool :=
  (source.buttons button).remote && !(source.buttons button).physical

/-- One step of a loop over what needs a change. -/
def forEach {Index : Type} (needs : SourceController F → Index → Bool)
    (change : Turn F → Index → Turn F) (turn : Turn F) (index : Index) : Turn F :=
  if needs turn.source index then change turn index else turn

end

/-- Applies only changes that arrived while a same-peer display activation was in flight:
releases, ordinary keys first, and then presses, modifiers first. -/
def applyRemoteChanges : Turn F :=
  let turn := ordinaryUsages.foldl (forEach keyLingers releaseRemoteKey) turn
  let turn := modifierUsages.foldl (forEach keyLingers releaseRemoteKey) turn
  let turn := MouseButton.ALL.foldl (forEach buttonLingers releaseRemoteButton) turn
  let turn := modifierUsages.foldl (forEach keyWaits pressRemoteKey) turn
  let turn := ordinaryUsages.foldl (forEach keyWaits pressRemoteKey) turn
  MouseButton.ALL.foldl (forEach buttonWaits pressRemoteButton) turn

/-- Whether the changes and the waiting motion do not fit. -/
def tooManyChanges : Bool :=
  let waitingMotion := if turn.source.pacer.hasWaiting then 1 else 0
  decide (remoteChanges turn.source + waitingMotion > maxSourceEffects - turn.effects.length)

def synchronizeReanchoredRemoteInput : Turn F :=
  let turn := turn.resetClicks
  -- an unrepresentable batch fails before any partial release is sent
  if turn.tooManyChanges then turn.fail .effectCapacityExceeded else turn.applyRemoteChanges

/-! ## Route tickets -/

/-- Binds a ticket to the request a state waits for. -/
def bindTicket (request : RouteRequest) (ticket : Nat) : Turn F :=
  match turn.source.state with
  | .awaitRemoteBarrier wait =>
    if wait.request = request ∧ wait.ticket = none then
      turn.update fun source =>
        { source with state := .awaitRemoteBarrier { wait with ticket := some ticket } }
    else turn.fail .routeMismatch
  | .awaitLocalBarrier wait =>
    if wait.request = request ∧ wait.ticket = none then
      turn.update fun source =>
        { source with state := .awaitLocalBarrier { wait with ticket := some ticket } }
    else turn.fail .routeMismatch
  | .failed =>
    if turn.source.failedRouteRequest = some request then
      turn.update fun source => { source with failedRouteRequest := none }
    else turn.fail .routeMismatch
  | _ => turn.fail .routeMismatch

/-- Whether a failed controller no longer waits for this request. -/
def isStaleRequest (request : RouteRequest) : Bool :=
  turn.isFailed && turn.source.failedRouteRequest != some request

def bindCaptureRoute (request : RouteRequest) (ticket : Nat) (now : Duration) :
    SourceOutcome F × Turn F :=
  if turn.isStaleRequest request then turn.outcome
  else
    match turn.observeTime now with
    | (false, turn) => turn.outcome
    | (true, turn) =>
      if ticket = 0 ∨ ticket ≤ turn.source.captureRoute.revision then
        (turn.fail .routeMismatch).outcome
      else (turn.bindTicket request ticket).outcome

/-- Native control rejected a requested route change. -/
def failCaptureRouteSubmission (request : RouteRequest) (now : Duration) :
    SourceOutcome F × Turn F :=
  if turn.isStaleRequest request then turn.outcome
  else
    match turn.observeTime now with
    | (false, turn) => turn.outcome
    | (true, turn) => (turn.fail .nativeControl).outcome

/-- The peer that already acknowledged is released and the pointer stays home. -/
def refuseActivation (request : RouteRequest) (now : Duration) : Turn F :=
  match turn.source.state with
  | .awaitRemoteBarrier wait =>
    if wait.request = request ∧ wait.ticket = none then
      (turn.update fun source =>
        { source with
          captureReady := false, takeBack := false
          declined := some
            { source := wait.returnTarget.display, target := wait.target.display
              since := some now, last := now } }).beginReturnTo wait.returnTarget
        wait.returnPosition none none
    else turn.fail .nativeControl
  | _ => turn.fail .nativeControl

/-- Native capture refused the activation because it cannot suppress yet. -/
def refuseCaptureActivation (request : RouteRequest) (now : Duration) : SourceOutcome F × Turn F :=
  if turn.isFailed then turn.outcome
  else
    match turn.observeTime now with
    | (false, turn) => turn.outcome
    | (true, turn) => (turn.refuseActivation request now).outcome

/-! ## Captured records -/

/-- The remote barrier: held input lands where the handover entered, and the hand's motion
since moves on. -/
def enterRemote (wait : RemoteBarrier F) (revision : Nat) : Turn F :=
  let turn := (turn.update fun source =>
    { source with captureRoute := { remote := true, revision, owned := true } }).transferToRemote
  let landed := turn.source.carriedOn wait.target.display wait.position wait.carried
  if turn.isFailed then turn
  else
    (turn.update fun source =>
      { source with
        state := .remote
          { target := wait.target, position := landed, returnTarget := wait.returnTarget
            returnPosition := wait.returnPosition } }).sendMoved wait.target.display wait.position
      landed

/-- The local barrier: the native restore placed the cursor before it. -/
def enterLocal (wait : LocalBarrier F) (revision : Nat) : Turn F :=
  turn.update fun source =>
    { source with
      captureRoute := { remote := false, revision, owned := true }
      anchoredReturn := true, state := .localInput wait.home (some wait.position) }

def onRouteChanged (remote : Bool) (revision : Nat) : Turn F :=
  match turn.source.state with
  | .awaitRemoteBarrier wait =>
    if remote && wait.ticket == some revision then turn.enterRemote wait revision
    else turn.fail .unexpectedRouteBarrier
  | .awaitLocalBarrier wait =>
    if !remote && wait.ticket == some revision then turn.enterLocal wait revision
    else turn.fail .unexpectedRouteBarrier
  | _ => turn.fail .unexpectedRouteBarrier

def applyLocal (input : NormalizedInput F) (now : Duration) : Turn F :=
  match input with
  | .key usage pressed isRepeat modifiers =>
    match turn.source.keys.updateKey usage pressed isRepeat modifiers with
    | (keys, some _) => turn.update fun source => { source with keys }
    | (keys, none) => (turn.update fun source => { source with keys }).fail .invalidKeyState
  | .button button pressed _ =>
    turn.update fun source =>
      { source with buttons := (source.buttons.updateButton button pressed).1 }
  | .absoluteMotion current => turn.applyLocalMotion current now
  | .relativeMotion delta gain =>
    let motion := turn.relative delta gain
    match turn.source.carryPending motion with
    | (true, source) => { turn with source }
    | (false, _) => turn.applyLocalRelative motion now
  | _ => turn

def forwardKey (usage : HidUsage) (pressed isRepeat : Bool) (change : KeyChange) : Turn F :=
  if pressed && !change.wasPhysical then
    let keys := turn.source.keys.setRemote usage.code true
    (turn.update fun source => { source with keys }).pushInput
      (.key { usage, isDown := true, isRepeat := false, modifiers := keys.remoteModifiers })
  else if pressed && (turn.source.keys usage.code).remote && isRepeat then
    turn.pushInput
      (.key { usage, isDown := true, isRepeat := true
              modifiers := turn.source.keys.remoteModifiers })
  else if !pressed && change.wasRemote then
    let keys := turn.source.keys.setRemote usage.code false
    (turn.update fun source => { source with keys }).pushInput
      (.key { usage, isDown := false, isRepeat := false, modifiers := keys.remoteModifiers })
  else turn

def forwardButton (button : MouseButton) (pressed : Bool) (stamp : Duration)
    (change : ButtonChange) (position : Point F) : Turn F :=
  if pressed && !change.wasPhysical then
    let (clickCount, clicks) := turn.source.clicks.press button position stamp
    (turn.update fun source =>
      { source with
        clicks, buttons := source.buttons.pressRemote button clickCount }).pushInput
      (.button { button, isDown := true, clickCount })
  else if !pressed && change.wasRemote then
    (turn.update fun source => { source with buttons := source.buttons.releaseRemote button }).pushInput
      (.button { button, isDown := false, clickCount := (turn.source.buttons button).remoteClicks })
  else turn

def applyRemoteKey (usage : HidUsage) (pressed isRepeat : Bool)
    (modifiers : ModifierState) : Turn F :=
  match turn.source.keys.updateKey usage pressed isRepeat modifiers with
  | (keys, none) => (turn.update fun source => { source with keys }).fail .invalidKeyState
  | (keys, some change) =>
    let turn := turn.update fun source => { source with keys }
    match turn.source.state with
    | .remote _ => turn.forwardKey usage pressed isRepeat change
    | _ => turn

/-- Enters a button record, noting a change in flight between displays. -/
def enterButton (button : MouseButton) (pressed : Bool) : Turn F :=
  let (buttons, change) := turn.source.buttons.updateButton button pressed
  let turn := turn.update fun source => { source with buttons }
  if change.wasPhysical != pressed then turn.update .markButton else turn

def applyRemoteButton (button : MouseButton) (pressed : Bool) (stamp : Duration) : Turn F :=
  let change := (turn.source.buttons.updateButton button pressed).2
  let turn := turn.enterButton button pressed
  match turn.source.state with
  | .remote stay => turn.forwardButton button pressed stamp change stay.position
  | _ => turn

def applyRemote (input : NormalizedInput F) (now : Duration) : Turn F :=
  match input with
  | .key usage pressed isRepeat modifiers => turn.applyRemoteKey usage pressed isRepeat modifiers
  | .button button pressed stamp => turn.applyRemoteButton button pressed stamp
  | .relativeMotion delta gain =>
    let motion := turn.relative delta gain
    match turn.source.state with
    | .remote _ => turn.applyRemoteMotion motion now
    | _ => { turn with source := (turn.source.carryPending motion).2 }
  | .scroll horizontal vertical =>
    match turn.source.state with
    | .remote _ =>
      if !Scalar.same horizontal 0 || !Scalar.same vertical 0 then
        turn.pushInput (.scroll { horizontal, vertical })
      else turn
    | _ => turn
  | .gesture made =>
    match turn.source.state with
    | .remote _ => turn.pushInput (.gesture made)
    | _ => turn
  | .systemGesture made =>
    match turn.source.state with
    | .remote _ => turn.pushInput (.systemGesture made)
    | _ => turn
  | _ => turn

def isRelative : NormalizedInput F → Bool
  | .relativeMotion _ _ => true
  | _ => false

/-- Whether the floor lets a motion move the pointer. -/
def floorPermits (record : TaggedInput F) : Bool × Turn F :=
  let (floor, turn) := turn.floorSnapshot
  if turn.source.carriesPendingMotion then
    (isRelative record.event && turn.source.claimedGeneration record.floorGeneration, turn)
  else if turn.source.captureRoute.remote then
    (floor.state == .sending && record.floorGeneration == floor.generation, turn)
  else
    let (allowed, turn) := turn.localCrossingAllowed
    (allowed && record.floorGeneration == turn.source.freeGeneration, turn)

/-- Whether a motion record may move the pointer. -/
def motionPermitted (record : TaggedInput F) : Bool × Turn F :=
  match record.event with
  | .absoluteMotion _ | .relativeMotion _ _ => turn.floorPermits record
  | _ => (true, turn)

/-- Applies a record that is no route barrier. -/
def applyRecord (record : TaggedInput F) (now : Duration) : Turn F :=
  if record.remote ≠ turn.source.captureRoute.remote ∨
      record.routingRevision ≠ turn.source.captureRoute.revision then
    turn.fail .routeMismatch
  else
    match turn.motionPermitted record with
    | (false, turn) => turn
    | (true, turn) =>
      if turn.source.captureRoute.remote then turn.applyRemote record.event now
      else turn.applyLocal record.event now

/-- A record the clock and the peer's health let through. -/
def captured (record : TaggedInput F) (now : Duration) : Turn F :=
  match record.event with
  | .routeChanged remote revision =>
    if record.remote ≠ remote ∨ record.routingRevision ≠ revision then turn.fail .routeMismatch
    else turn.onRouteChanged remote revision
  | _ => turn.applyRecord record now

/-- Applies one capture event in native FIFO order. -/
def onCaptured (record : TaggedInput F) (now : Duration) : SourceOutcome F × Turn F :=
  if turn.isFailed then turn.outcome
  else
    match turn.observeTime now with
    | (false, turn) => turn.outcome
    | (true, turn) =>
      match turn.checkHealth now with
      | (false, turn) => (turn.fail .invalidCapturedInput).outcome
      | (true, turn) =>
        if !record.event.isValid then (turn.fail .invalidCapturedInput).outcome
        else (turn.captured record now).outcome

/-- Input seen during readiness updates only the physical ledger. -/
def bookkeeping (record : TaggedInput F) : SourceOutcome F × Turn F :=
  match record.event with
  | .key _ _ _ _ | .button _ _ _ => (turn.applyLocal record.event turn.source.lastNow).outcome
  | _ => turn.outcome

/-- Only a fresh native poll rearms crossings after the inbound half lets go. -/
def rebase (point : Point F) (target : PointerTarget) : Turn F :=
  let turn := match turn.source.localTargetAt point with
    | .ok (some found) =>
      if target ≠ found then turn.adoptLocalTarget found point
      else turn.setLocal found (some point)
    | _ => turn.setLocal target (turn.source.insideDisplay target.display point)
  turn.update fun source => { source with rebasePointer := false, edgePushes := .none }

/-- A polled position while input is routed locally on a settled display. -/
def pollPointer (point : Point F) (now : Duration) (target : PointerTarget) : Turn F :=
  let (allowed, turn) := turn.localCrossingAllowed
  let (floor, turn) := turn.floorSnapshot
  if floor.state == .free && turn.source.rebasePointer then turn.rebase point target
  else if allowed then turn.applyLocalMotion point now
  else turn

def observePointer (point : Point F) (now : Duration) : SourceOutcome F × Turn F :=
  if turn.isFailed || !point.isFinite then turn.outcome
  else
    match turn.observeTime now with
    | (false, turn) => turn.outcome
    | (true, turn) =>
      match turn.checkHealth now with
      | (false, turn) => turn.outcome
      | (true, turn) =>
        if turn.source.captureRoute.remote then turn.outcome
        else
          match turn.source.state with
          | .localInput target _ => (turn.pollPointer point now target).outcome
          | _ => turn.outcome

/-! ## Frames from the peer -/

def onPong (token : Nat) (now : Duration) : Turn F :=
  let answered := fun (turn : Turn F) =>
    turn.update fun source => { source with quality := (source.quality.reply token now).2 }
  if turn.source.isHeld then
    match turn.source.health.receivePongWhileHeld token now with
    | (.error error, health) =>
      (turn.update fun source => { source with health }).fail (.peerHealth error)
    | (.ok fresh, health) =>
      let turn := turn.update fun source => { source with health }
      answered (if fresh then
        (turn.update fun source => { source with holdPongSeen := true }).tryResume now
      else turn)
  else
    match turn.source.health.receivePong token now with
    | (.error error, health) =>
      (turn.update fun source => { source with health }).fail (.peerHealth error)
    | (.ok (), health) => answered (turn.update fun source => { source with health })

variable (frame : Frame F)

def onPing (token : Nat) : Turn F :=
  let (accepted, inboundHeartbeats) := turn.source.inboundHeartbeats.acceptHeartbeat frame
  let turn := turn.update fun source => { source with inboundHeartbeats }
  match accepted with
  | .error _ => turn
  | .ok () => (turn.record (.accepted frame)).pushControl (.pong token)

def onPongFrame (token : Nat) (now : Duration) : Turn F :=
  let (accepted, inboundHeartbeats) := turn.source.inboundHeartbeats.acceptHeartbeat frame
  let turn := turn.update fun source => { source with inboundHeartbeats }
  match accepted with
  | .error _ => turn
  | .ok () => (turn.record (.accepted frame)).onPong token now

/-- Whether a barrier's acknowledgement is in order.  The receiver may never have been
activated for this epoch: the acknowledgement then opens it. -/
def admitBarrierAck : Bool × SourceController F :=
  let (opened, source) :=
    if source.inboundInputEpoch = some source.inputEpoch then (true, source)
    else source.activateInputEpoch frame.epoch
  if frame.epoch ≠ source.inputEpoch ∨ !opened then (false, source)
  else source.acceptInputSequence frame.sequence

/-- Outside the ordinary return path each acknowledgement is a barrier's. -/
def onBarrierAck (now : Duration) : Turn F :=
  match admitBarrierAck turn.source frame with
  | (false, source) => { turn with source }.fail .invalidReleaseAcknowledgement
  | (true, source) =>
    ({ turn with
      source := { source with
        releaseAcksPending := source.releaseAcksPending - 1 } }.record (.accepted frame)).tryResume
      now

/-- A take-back of the epoch a hop left, which the receiver sent before it saw the hop. -/
def isPreviousReanchor (epoch : SessionEpoch) : Bool :=
  (match source.state with
    | .awaitActivation wait => wait.captureAlreadyRemote
    | _ => false) &&
    source.inboundInputEpoch == some epoch && decide (epoch.get < source.inputEpoch.get)

/-- A take-back may precede an activation acknowledgement in the response epoch. -/
def openForTakeBack (epoch : SessionEpoch) : Bool × SourceController F :=
  if source.inboundInputEpoch = some epoch then (true, source)
  else if source.mode = .awaitActivationAcknowledgement ∧ epoch = source.inputEpoch then
    source.activateInputEpoch epoch
  else (false, source)

def admitTakeBack : Bool × SourceController F :=
  if isPreviousReanchor source frame.epoch then
    if source.inboundInputSequence.all fun last => decide (last < frame.sequence) then
      (true, { source with inboundInputSequence := some frame.sequence })
    else (false, source)
  else
    match openForTakeBack source frame.epoch with
    | (false, source) => (false, source)
    | (true, source) =>
      if frame.epoch = source.inputEpoch then source.acceptInputSequence frame.sequence
      else (false, source)

def onTakeBack : Turn F :=
  match admitTakeBack turn.source frame with
  | (false, source) =>
    if !source.lateTakeBack frame.epoch then { turn with source }.fail .invalidRemoteFrame
    else { turn with source }
  | (true, source) =>
    let turn := { turn with source }.record (.accepted frame)
    match source.state with
    | .localInput _ _ | .awaitLocalBarrier _ | .awaitRelease _ => turn
    | _ => turn.update fun source => { source with takeBack := true }

/-- The answer an activation waits for: an acknowledgement or a reason to decline. -/
def activationAnswer (wait : Activation F) (message : Message F) : Option (Option DeclineReason) :=
  match message with
  | .activationDeclined display reason =>
    if display = wait.target.display then some (some reason) else none
  | .activationAck display => if display = wait.target.display then some none else none
  | _ => none

def admitReply : Bool × SourceController F :=
  if frame.epoch ≠ source.inputEpoch then (false, source)
  else
    let (opened, source) :=
      if source.inboundInputEpoch = some frame.epoch then (true, source)
      else source.activateInputEpoch frame.epoch
    if opened then source.acceptInputSequence frame.sequence else (false, source)

/-- The peer refused: it holds nothing, and its seam is a wall for a while. -/
def forgetActivation (ownership : PointerOwnership) (wait : Activation F)
    (now : Duration) : Turn F :=
  turn.update fun source =>
    { source with
      ownership, remoteTarget := none, takeBack := false, entryGuard := none
      edgePushes := source.edgePushes.rearm
      declined := some
        { source := wait.returnTarget.display, target := wait.target.display
          since := some now, last := now } }.clearRemoteDelivery

/-- A refused hop: the pointer comes home from the display it was on. -/
def releaseDeclined (wait : Activation F) : Turn F :=
  match turn.returnFloor with
  | (false, turn) => turn
  | (true, turn) =>
    (turn.pushInput .releaseAll).update fun source =>
      { source with
        state := .awaitRelease
          { home := wait.returnTarget, homePosition := wait.returnPosition, carried := none
            ownershipEpoch := none, handover := none } }

/-- The peer refused: the pointer stays, or comes, home. -/
def activationDeclined (wait : Activation F) (now : Duration) : Turn F :=
  match SourceController.recoverOwnershipAt turn.source.ownership wait.returnTarget with
  | (false, ownership) => (turn.update fun source => { source with ownership }).fail .ownership
  | (true, ownership) =>
    let turn := turn.forgetActivation ownership wait now
    if wait.captureAlreadyRemote then turn.releaseDeclined wait
    else
      (turn.update fun source =>
        { source with
          state := .localInput wait.returnTarget (some wait.returnPosition)
          anchoredReturn := true }).releaseFloor

/-- As at a fresh crossing, only modifiers and buttons follow the pointer onto another
computer; a hop brings whatever changed in flight. -/
def bringHeldInput (handover : Bool) : Turn F :=
  if handover then turn.transferToRemote else turn.synchronizeReanchoredRemoteInput

/-- A hop or a handover landed: buttons changed in flight land where the hand was then, and
it moves on after. -/
def landRemote (wait : Activation F) (display : Display F) : Turn F :=
  let landed := fun (carried : Point F) => display.bounds.clampHalfOpen (wait.entry.moved carried)
  let changed := landed (wait.atButton.getD wait.carried)
  let position := landed wait.carried
  let turn := (turn.sendMoved wait.target.display wait.entry changed).bringHeldInput wait.handover
  if turn.isFailed then turn
  else
    let turn := turn.sendMoved wait.target.display changed position
    if turn.isFailed then turn
    else
      turn.update fun source =>
        { source with
          state := .remote
            { target := wait.target, position, returnTarget := wait.returnTarget
              returnPosition := wait.returnPosition } }

/-- A crossing was acknowledged: native capture is asked to suppress. -/
def activateRemote (wait : Activation F) : Turn F :=
  match turn.allocateRouteRequest with
  | (none, turn) => turn
  | (some request, turn) =>
    match turn.pushEffect (.activateRemote request) with
    | (false, turn) => turn
    | (true, turn) =>
      turn.update fun source =>
        { source with
          state := .awaitRemoteBarrier
            { target := wait.target, position := wait.entry, carried := wait.carried
              returnTarget := wait.returnTarget, returnPosition := wait.returnPosition
              request, ticket := none } }

/-- A fresh crossing's claim becomes `Sending`; false when that failed the controller. -/
def sendFloor : Bool × Turn F :=
  match turn.source.floorClaim with
  | none => (false, turn.fail .ownership)
  | some owned =>
    match turn.floorCall (.transition owned .sending) with
    | (.ok sending, turn) =>
      (true, turn.update fun source => { source with floorClaim := some sending })
    | (.error _, turn) => (false, turn.fail .ownership)

/-- The peer is active: a hop or a handover lands, a crossing asks native capture. -/
def reachTarget (wait : Activation F) : Turn F :=
  match turn.source.ownership.acknowledgeTransition
      { target := wait.target, epoch := wait.ownershipEpoch } with
  | (.error _, ownership) => (turn.update fun source => { source with ownership }).fail .ownership
  | (.ok _, ownership) =>
    let turn := turn.update fun source =>
      { source with ownership, remoteTarget := some wait.target }
    if wait.captureAlreadyRemote then
      match turn.source.topology.display wait.target.display with
      | .error _ => turn.fail .topology
      | .ok display => turn.landRemote wait display
    else turn.activateRemote wait

def activationAcknowledged (wait : Activation F) : Turn F :=
  let turn := turn.update .landed
  if wait.captureAlreadyRemote then turn.reachTarget wait
  else
    match turn.sendFloor with
    | (false, turn) => turn
    | (true, turn) => turn.reachTarget wait

def onActivationReply (wait : Activation F) (frame : Frame F) (now : Duration) : Turn F :=
  match activationAnswer wait frame.message with
  | none => turn.fail .invalidActivationAcknowledgement
  | some answer =>
    match admitReply turn.source frame with
    | (false, source) => { turn with source }.fail .invalidActivationAcknowledgement
    | (true, source) =>
      let turn := { turn with source }.record (.accepted frame)
      match answer with
      | some _ => turn.activationDeclined wait now
      | none => turn.activationAcknowledged wait

/-- The floor and the remote route pass on as they are. -/
def handOn (wait : ReleaseWait F) (next : HandoverTarget F) : Turn F :=
  match turn.source.floorClaim with
  | none => turn.fail .ownership
  | some claim =>
    turn.update fun source =>
      { source with
        floorClaim := none
        handover := some
          { target := next.target, entry := next.entry, toEdge := next.toEdge
            carried := wait.carried.getD .origin, atButton := next.atButton
            returnTarget := wait.home, returnPosition := wait.homePosition, claim
            claimedFrom := source.freeGeneration, routeRevision := source.captureRoute.revision }
        captureRoute := { source.captureRoute with owned := false }
        rebasePointer := true, state := .localInput wait.home none }

/-- Input comes home, through native capture while its route is remote. -/
def comeHome (wait : ReleaseWait F) : Turn F :=
  let position := turn.source.carriedOn wait.home.display wait.homePosition
    (wait.carried.getD .origin)
  if turn.source.captureRoute.remote then (turn.restoreLocal wait.home position).2
  else turn.setLocal wait.home (some position)

/-- Closes the ownership transition a return opened, if it opened one. -/
def acknowledgeRelease (ownership : PointerOwnership) (wait : ReleaseWait F) :
    Bool × PointerOwnership :=
  match wait.ownershipEpoch with
  | none => (true, ownership)
  | some epoch =>
    let (result, ownership) := ownership.acknowledgeTransition { target := wait.home, epoch }
    (result.isOk, ownership)

def completeRemoteRelease (wait : ReleaseWait F) : Turn F :=
  match acknowledgeRelease turn.source.ownership wait with
  | (false, ownership) => (turn.update fun source => { source with ownership }).fail .ownership
  | (true, ownership) =>
    let turn := (turn.update fun source => { source with ownership }).forgetRemote
    match wait.handover with
    | some next => turn.handOn wait next
    | none => turn.comeHome wait

def isReleaseAck : Message F → Bool
  | .releaseAck => true
  | _ => false

def onReleaseReply (wait : ReleaseWait F) (frame : Frame F) : Turn F :=
  if frame.epoch ≠ turn.source.inputEpoch ∨ !isReleaseAck frame.message then
    turn.fail .invalidReleaseAcknowledgement
  else
    match turn.source.acceptInputSequence frame.sequence with
    | (false, source) => { turn with source }.fail .invalidReleaseAcknowledgement
    | (true, source) =>
      ({ turn with source }.record (.accepted frame)).completeRemoteRelease wait

/-- A reply outside the heartbeats, the barriers and the take-backs. -/
def onReply (now : Duration) : Turn F :=
  -- anything else while held is from before the barrier and proves nothing
  if turn.source.isHeld then turn
  else
    match turn.source.state with
    | .awaitActivation wait => turn.onActivationReply wait frame now
    | .awaitRelease wait => turn.onReleaseReply wait frame
    | _ => turn.fail .invalidRemoteFrame

def onAdmittedFrame (now : Duration) : Turn F :=
  match frame.message with
  | .ping token => turn.onPing frame token
  | .pong token => turn.onPongFrame frame token now
  | .releaseAck =>
    if turn.source.releaseAcksPending > 0 ∧
        turn.source.mode ≠ .awaitRemoteReleaseAcknowledgement then
      turn.onBarrierAck frame now
    else turn.onReply frame now
  | .takeBack => turn.onTakeBack frame
  | _ => turn.onReply frame now

/-- Applies an authenticated, decoded frame from the paired receiver. -/
def onRemoteFrame (now : Duration) : SourceOutcome F × Turn F :=
  if turn.isFailed then turn.outcome
  else
    match turn.observeTime now with
    | (false, turn) => turn.outcome
    | (true, turn) =>
      match turn.checkHealth now with
      | (false, turn) => turn.outcome
      | (true, turn) =>
        if turn.isFailed then turn.outcome
        else
          match turn.source.remoteLimiter.allowAt (millisU64 now) with
          | (.error _, remoteLimiter) =>
            ((turn.update fun source => { source with remoteLimiter }).fail .rateLimited).outcome
          | (.ok (), remoteLimiter) =>
            ((turn.update fun source => { source with remoteLimiter }).onAdmittedFrame frame now).outcome

/-! ## The owner's own calls -/

/-- Sends `ReleaseAll` and waits for the receiver's acknowledgement. -/
def requestLocal (now : Duration) : SourceOutcome F × Turn F :=
  if turn.isFailed then turn.outcome
  else
    match turn.observeTime now with
    | (false, turn) => turn.outcome
    | (true, turn) =>
      match turn.checkHealth now with
      | (false, turn) => turn.outcome
      | (true, turn) =>
        match turn.source.state with
        | .remote stay =>
          (turn.beginReturnTo stay.returnTarget stay.returnPosition none none).outcome
        | _ => turn.outcome

/-- Whether this controller could take a handover now. -/
def acceptable (handover : Handover F) (now : Duration) : Bool :=
  !source.isFailed && source.enabled && source.captureReady && !source.isHeld &&
    decide (now - source.health.lastResponse < retreatAfter) && source.isLocal &&
    source.floorClaim.isNone && source.peer == some handover.target.machine &&
    source.isPeerDisplay handover.target.display &&
    handover.returnTarget.machine == source.home.machine &&
    source.isHomeDisplay handover.returnTarget.display && handover.routeRevision != 0 &&
    decide (source.captureRoute.revision ≤ handover.routeRevision)

/-- The floor and the remote route are this controller's now. -/
def takeOver (handover : Handover F) (sending : FloorSnapshot) : Turn F :=
  turn.update fun source =>
    { source with
      floorClaim := some sending, freeGeneration := handover.claimedFrom, rebasePointer := false
      captureRoute := { remote := true, revision := handover.routeRevision, owned := true }
      takeBack := false, declined := none
      state := .localInput handover.returnTarget (some handover.returnPosition) }

/-- What the pointer carried when it was handed over goes on with this activation. -/
def markHandover (handover : Handover F) : Turn F :=
  match turn.source.state with
  | .awaitActivation wait =>
    turn.update fun source =>
      { source with
        state := .awaitActivation
          { wait with
            carried := handover.carried, atButton := handover.atButton, handover := true } }
  | _ => turn

/-- Asks this peer to activate at a handover's entry. -/
def enterHandover (handover : Handover F) (sending : FloorSnapshot) : Turn F :=
  ((turn.takeOver handover sending).beginRemoteActivation handover.target handover.entry
    handover.toEdge handover.returnTarget handover.returnPosition true).markHandover handover

/-- A refused handover comes back in the outcome. -/
def returnHandover (handover : Handover F) : SourceOutcome F × Turn F :=
  (turn.update fun source => { source with handover := some handover }).outcome

def takeHandover (handover : Handover F) (now : Duration) : SourceOutcome F × Turn F :=
  if acceptable turn.source handover now then
    match turn.floorCall (.handOver handover.claim turn.source.slot) with
    | (.error _, turn) => turn.returnHandover handover
    | (.ok sending, turn) => (turn.enterHandover handover sending).outcome
  else turn.returnHandover handover

/-- Takes the floor and remote capture route another peer's controller handed over. -/
def acceptHandover (handover : Handover F) (now : Duration) : SourceOutcome F × Turn F :=
  if turn.isFailed then turn.returnHandover handover
  else
    match turn.observeTime now with
    | (false, turn) => turn.returnHandover handover
    | (true, turn) =>
      match turn.checkHealth now with
      | (false, turn) => turn.returnHandover handover
      | (true, turn) => turn.takeHandover handover now

/-- Adopts a capture route barrier another peer's controller issued. -/
def adoptRoute (remote : Bool) (revision : Nat) : Turn F :=
  if !turn.source.isLocal ∨ revision ≤ turn.source.captureRoute.revision then
    turn.fail .unexpectedRouteBarrier
  else
    turn.update fun source =>
      { source with captureRoute := { remote, revision, owned := false } }

def observeForeignRoute (remote : Bool) (revision : Nat) (now : Duration) :
    SourceOutcome F × Turn F :=
  if turn.isFailed then turn.outcome
  else
    match turn.observeTime now with
    | (false, turn) => turn.outcome
    | (true, turn) => (turn.adoptRoute remote revision).outcome

/-- The link to this peer is gone. -/
def abandon (now : Duration) : SourceOutcome F × Turn F :=
  if turn.isFailed then turn.outcome
  else
    ((turn.update fun source =>
      { source with lastNow := max source.lastNow now }).fail .linkEnded).outcome

/-! ## Ticks -/

def challenge (token : Nat) (now : Duration) : Turn F :=
  (turn.update fun source =>
    { source with quality := source.quality.challengeSent token now }).pushControl (.ping token)

/-- Sends a challenge on cadence during a hold. -/
def pollHeld (now : Duration) : Turn F :=
  match turn.source.health.pollWhileHeld now with
  | (.ok (some token), health) =>
    (turn.update fun source => { source with health }).challenge token now
  | (.ok none, health) => turn.update fun source => { source with health }
  | (.error error, health) =>
    (turn.update fun source => { source with health }).fail (.peerHealth error)

/-- A held session waits for the link, and ends once it has waited too long. -/
def tickHeld (since now : Duration) : Turn F :=
  if now - since ≥ holdLimit then turn.fail (.peerHealth .deadlineExpired)
  else
    let turn :=
      if turn.source.releaseAcksPending = 0 ∧ now - turn.source.barrierSentAt ≥ barrierResendAfter then
        turn.sendHoldBarrier now
      else turn
    if turn.isFailed then turn else turn.pollHeld now

def pollHealth (now : Duration) : Turn F :=
  match turn.source.health.poll now with
  | (.ok (some token), health) =>
    (turn.update fun source => { source with health }).challenge token now
  | (.ok none, health) => turn.update fun source => { source with health }
  | (.error .deadlineExpired, health) =>
    (turn.update fun source => { source with health }).hold now
  | (.error error, health) =>
    (turn.update fun source => { source with health }).fail (.peerHealth error)

/-- Sends the waiting motion once its slot is open. -/
def sendDueMotion (now : Duration) : Turn F :=
  match turn.source.pacer.due turn.source.quality.quality.motionInterval now with
  | (none, pacer) => turn.update fun source => { source with pacer }
  | (some position, pacer) =>
    (turn.update fun source => { source with pacer }).sendInput (.motion (.absolute position))

def tickFree (now : Duration) : Turn F :=
  if turn.source.shouldRetreat now then turn.hold now
  else
    let turn := turn.pollHealth now
    if turn.isFailed then turn else turn.sendDueMotion now

/-- Drives the base-epoch health challenge independently of activation epochs. -/
def tick (now : Duration) : SourceOutcome F × Turn F :=
  if turn.isFailed then turn.outcome
  else
    match turn.observeTime now with
    | (false, turn) => turn.outcome
    | (true, turn) =>
      let turn := turn.update fun source =>
        { source with quality := (source.quality.tick now).2 }
      match turn.source.heldSince with
      | some since => (turn.tickHeld since now).outcome
      | none => (turn.tickFree now).outcome

end Turn

def SourceController.observePath (sample : PathSample) (now : Duration) : SourceController F :=
  { source with quality := (source.quality.path sample (max now source.lastNow)).2 }

/-! ## All the calls -/

/-- A call of the controller's owner, with what it is given. -/
inductive SourceCall (F : Type) where
  | bindCaptureRoute (request : RouteRequest) (ticket : Nat) (now : Duration)
  | failCaptureRouteSubmission (request : RouteRequest) (now : Duration)
  | refuseCaptureActivation (request : RouteRequest) (now : Duration)
  | captured (record : TaggedInput F) (now : Duration)
  | bookkeeping (record : TaggedInput F)
  | observePointer (point : Point F) (now : Duration)
  | remoteFrame (frame : Frame F) (now : Duration)
  | requestLocal (now : Duration)
  | acceptHandover (handover : Handover F) (now : Duration)
  | observeForeignRoute (remote : Bool) (revision : Nat) (now : Duration)
  | abandon (now : Duration)
  | tick (now : Duration)
  | suppressionBudget (now : Duration)
  | observePath (sample : PathSample) (now : Duration)
  | seedFromGroup (keys : List HidUsage) (buttons : List MouseButton) (route : Bool × Nat)
      (captureReady : Bool)
  | setReachable (peers : List DeviceId)
  | setPeerOffset (offset : Point F)
  | setDoubleClickInterval (interval : Duration)
  | setCaptureReady (ready : Bool)

namespace Turn

/-- A call that only changes the controller asks for nothing. -/
def silent : SourceOutcome F × Turn F :=
  ({ effects := [], failure := source.failure, handover := none }, { turn with source })

def run : SourceCall F → SourceOutcome F × Turn F
  | .bindCaptureRoute request ticket now => turn.bindCaptureRoute request ticket now
  | .failCaptureRouteSubmission request now => turn.failCaptureRouteSubmission request now
  | .refuseCaptureActivation request now => turn.refuseCaptureActivation request now
  | .captured record now => turn.onCaptured record now
  | .bookkeeping record => turn.bookkeeping record
  | .observePointer point now => turn.observePointer point now
  | .remoteFrame frame now => turn.onRemoteFrame frame now
  | .requestLocal now => turn.requestLocal now
  | .acceptHandover handover now => turn.acceptHandover handover now
  | .observeForeignRoute remote revision now => turn.observeForeignRoute remote revision now
  | .abandon now => turn.abandon now
  | .tick now => turn.tick now
  | .suppressionBudget now => turn.silent (turn.source.suppressionBudget now).2
  | .observePath sample now => turn.silent (turn.source.observePath sample now)
  | .seedFromGroup keys buttons route captureReady =>
    turn.silent (turn.source.seedFromGroup keys buttons route captureReady).2
  | .setReachable peers => turn.silent (turn.source.setReachable peers)
  | .setPeerOffset offset => turn.silent (turn.source.setPeerOffset offset)
  | .setDoubleClickInterval interval => turn.silent (turn.source.setDoubleClickInterval interval)
  | .setCaptureReady ready => turn.silent (turn.source.setCaptureReady ready)

end Turn
end Calls
end Monhop.Transport
