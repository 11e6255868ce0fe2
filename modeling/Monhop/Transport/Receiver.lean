import Monhop.Library.Mask
import Monhop.Library.Program
import Monhop.Protocol.Admission
import Monhop.Transport.Destination
import Monhop.Transport.Health

/-! # The input receiver

The controlled half of a session: frames are admitted, injected through the destination
and acknowledged, and everything injected is released on a barrier, a hold, a take-back or
a failure.  A receiver is pairwise, or one of several on one gate that act only while
their slot's claim holds the floor.

A `Session` is one receiver with the world it acts on and the port its actions leave by.
The loops on the shared floor end because every retry means that another thread acted, so
their fuel is the length of the script.
-/

namespace Monhop.Transport

open Monhop.Core Protocol
open Library (Program)
open Library.Program (runIf)

inductive ReceiverFailure where
  | health (error : HealthError)
  | invalidEpoch
  | invalidSequence
  | rateLimited
  | wrongDisplay
  | invalidPoint
  | notActive
  | invalidPressedState
  | unexpectedMessage
  | nativeDelivery
  | peerStopped
  | invalidGesture

/-- What a receiver reads of one of its displays. -/
structure DisplayDescription (F : Type) where
  id : DisplayId
  logicalBounds : LogicalRect F

/-- An open gesture silent for this long is ended. -/
def touchStreamIdle : Duration := .fromMillis 500

structure InputReceiver (F : Type) where
  floorGeneration : Option Nat
  /-- The peer this receiver claims the floor for. -/
  slot : FloorPeer
  /-- Other receivers share the gate: native and admission side effects need this slot's
  claim. -/
  shared : Bool
  localLower : Bool
  enabled : Bool
  yielding : Bool
  displays : List (DisplayDescription F)
  epoch : SessionEpoch
  sequences : SequenceGate
  controlEpoch : SessionEpoch
  controlSequences : SequenceGate
  limiter : RateLimiter
  health : PeerHealth
  active : Option (DisplayId × Point F)
  /-- Validated pointer motion waits here so a burst injects once. -/
  pendingMove : Option (Point F)
  keys : Nat → Bool
  buttons : MouseButton → Bool
  failure : Option ReceiverFailure
  cleanupPending : Bool
  /-- Set while the source has been silent past the deadline and its barrier has not
  arrived. -/
  heldSince : Option Duration
  holdCount : Nat
  heldMax : Duration
  /-- Whether the destination has a magnify, and a rotate, between its Began and its end. -/
  openMagnify : Bool
  openRotate : Bool
  gestureSeen : Duration
  gestureNormalizations : Nat
  localPlatform : Option Platform
  sourcePlatform : Option Platform
  controlAsCommand : Bool
  keyboard : Translator

/-- How a receiver's actions leave: directly, or through the guard of its slot. -/
inductive Port where
  | direct
  | guarded (slot : FloorPeer)

structure Session (F : Type) where
  receiver : InputReceiver F
  port : Port
  world : World F

/-- Whether `floor` is still the inbound claim made at `generation`: receiving at it, or
the yielding a take-back made from it. -/
def isInboundClaim (floor : FloorSnapshot) (generation : Nat) : Bool :=
  match floor.state with
  | .receiving => floor.generation == generation
  | .yielding => floor.generation == generation || checkedSucc generation == some floor.generation
  | _ => false

namespace InputReceiver

variable {F : Type}

def new (displays : List (DisplayDescription F)) (epoch : SessionEpoch) (now : Duration)
    (localPlatform : Option Platform) : InputReceiver F :=
  let sequences := { SequenceGate.default with activeEpoch := some epoch }
  { floorGeneration := none, slot := .SOLE, shared := false, localLower := false, enabled := true
    yielding := false, displays, epoch, sequences, controlEpoch := epoch
    controlSequences := sequences, limiter := .full 20000, health := .new now, active := none
    pendingMove := none, keys := fun _ => false, buttons := fun _ => false, failure := none
    cleanupPending := false, heldSince := none, holdCount := 0, heldMax := 0
    openMagnify := false, openRotate := false, gestureSeen := now, gestureNormalizations := 0
    localPlatform, sourcePlatform := none, controlAsCommand := false, keyboard := .default }

variable (receiver : InputReceiver F)

def withFloor (localLower enabled : Bool) : InputReceiver F :=
  { receiver with localLower, enabled }

/-- One of several receivers on one gate, receiving for `slot`. -/
def sharedFor (slot : FloorPeer) : InputReceiver F :=
  { receiver with slot, shared := true }

/-- Whether `floor` is this receiver's claim.  Pairwise, having claimed is enough. -/
def holds (floor : FloorSnapshot) : Bool :=
  match receiver.floorGeneration with
  | none => false
  | some generation =>
    !receiver.shared || (floor.peer == receiver.slot && isInboundClaim floor generation)

def modifiers : ModifierState :=
  ⟨Library.mask 8 fun index => receiver.keys (0xe0 + index)⟩

def translation : Option Direction :=
  if !receiver.controlAsCommand then none
  else Direction.between receiver.sourcePlatform receiver.localPlatform

def checkPoint [Scalar F] (id : DisplayId) (point : Point F) :
    Except ReceiverFailure Unit :=
  match receiver.displays.find? fun display => display.id == id with
  | none => .error .wrongDisplay
  | some display =>
    if !display.logicalBounds.containsHalfOpen point then .error .invalidPoint else .ok ()

/-- Held or failed: nothing may be injected. -/
def isInert : Bool :=
  receiver.heldSince.isSome || receiver.failure.isSome

def forgetInput : InputReceiver F :=
  { receiver with keys := fun _ => false, keyboard := receiver.keyboard.clear
                  buttons := fun _ => false }

def closeGestures : InputReceiver F :=
  { receiver with openMagnify := false, openRotate := false }

end InputReceiver

abbrev ReceiverProgram (F Value : Type) := Program (Session F) ReceiverFailure Value

namespace Session

variable {F : Type}

/-! ## Accesses -/

def receiverState : ReceiverProgram F (InputReceiver F) := do
  let session ← get
  pure session.receiver

def update (change : InputReceiver F → InputReceiver F) : ReceiverProgram F Unit :=
  modify fun session => { session with receiver := change session.receiver }

/-- One step on what is shared. -/
def onWorld {Value : Type} (act : World F → Value × World F) : ReceiverProgram F Value := do
  let session ← get
  let (value, world) := act session.world
  set { session with world }
  pure value

/-- Lets the other threads act; whether a native action made now fails. -/
def access : ReceiverProgram F Bool := onWorld World.advance

def snapshot : ReceiverProgram F FloorSnapshot := do
  let _ ← access
  let session ← get
  pure session.world.gate.floor

def swap (operation : FloorOp) : ReceiverProgram F (Except FloorSnapshot FloorSnapshot) := do
  let _ ← access
  onWorld fun world => world.swapFloor operation

def updateGate (change : TakeBackGate → TakeBackGate) : ReceiverProgram F Unit := do
  let _ ← access
  onWorld fun world => ((), world.setGate (change world.gate))

def takeTriggered : ReceiverProgram F (Option Nat) := do
  let _ ← access
  onWorld World.takeTriggered

variable (action : DestinationAction F)

/-- The native action itself; whether it succeeded. -/
def post : ReceiverProgram F Bool := do
  let fails ← access
  modify fun session =>
    { session with
      world := session.world.record
        (.post session.receiver.slot session.receiver.isInert action (!fails)) }
  pure (!fails)

/-- While the floor names another slot inbound nothing passes a slot's guard; with no
inbound owner only releases do. -/
def guardAdmits (slot : FloorPeer) (floor : FloorSnapshot) (action : DestinationAction F) : Bool :=
  if isInbound floor then floor.peer == slot else action.isRelease

/-- Dropped posts succeed. -/
def applyGuarded (slot : FloorPeer) (action : DestinationAction F) : ReceiverProgram F Bool := do
  let floor ← snapshot
  if !guardAdmits slot floor action then pure true else post action

def apply : ReceiverProgram F Bool := do
  let session ← get
  match session.port with
  | .direct => post action
  | .guarded slot => applyGuarded slot action

def deliver : ReceiverProgram F Unit := do
  let delivered ← apply action
  if !delivered then throw .nativeDelivery else pure ()

def deliverKeys : List KeyStep → ReceiverProgram F Unit
  | [] => pure ()
  | step :: steps => do
    deliver (.key step.usage step.pressed)
    deliverKeys steps

/-! ## The floor -/

def suppressInjection : ReceiverProgram F Bool := do
  let receiver ← receiverState
  if receiver.yielding then pure true
  else do
    let floor ← snapshot
    pure (floor.state == .yielding || (receiver.shared && !receiver.holds floor))

/-- Whether native input and the gate are this receiver's to change. -/
def ownsNative : ReceiverProgram F Bool := do
  let receiver ← receiverState
  if !receiver.shared then pure true
  else do
    let floor ← snapshot
    pure (receiver.holds floor)

def mayRelease : ReceiverProgram F Bool := do
  let floor ← snapshot
  let receiver ← receiverState
  pure (!receiver.shared || receiver.holds floor || !isInbound floor)

/-- Frees the claim at `generation`; the callback may yield between a snapshot and the
swap. -/
def releaseInbound (generation : Nat) : Nat → FloorSnapshot → ReceiverProgram F Unit
  | 0, _ => pure ()
  | fuel + 1, current => do
    if !isInboundClaim current generation then pure ()
    else do
      let swapped ← swap (.transition current .free)
      match swapped with
      | .ok _ => pure ()
      | .error changed => releaseInbound generation fuel changed

/-- Enough fuel for a retry loop on the floor. -/
def retries : ReceiverProgram F Nat := do
  let session ← get
  pure (session.world.script.length + 1)

def releaseClaim : Option Nat → ReceiverProgram F Unit
  | some generation => do
    update fun receiver => { receiver with floorGeneration := none }
    let floor ← snapshot
    let fuel ← retries
    releaseInbound generation fuel floor
  | none => pure ()

def releaseFloor : ReceiverProgram F Unit := do
  let receiver ← receiverState
  releaseClaim receiver.floorGeneration
  update fun receiver => { receiver with yielding := false }

/-- Claims a floor that may be taken, unless it moved meanwhile. -/
def claimFloor (floor : FloorSnapshot) :
    ReceiverProgram F (Except FloorSnapshot FloorSnapshot) := do
  let receiver ← receiverState
  swap (if receiver.shared then .claim floor .receiving receiver.slot
    else .transition floor .receiving)

/-- What an activation finds at a floor: an answer, or a floor it may claim. -/
def admissionAt (receiver : InputReceiver F) (floor : FloorSnapshot) :
    Option (Option DeclineReason) :=
  match floor.state with
  | .free => none
  | .requesting =>
    -- the simultaneous-request tie-break is pairwise
    if receiver.shared && floor.peer != receiver.slot then some (some .busy)
    else if !receiver.localLower then none
    else some (some .contended)
  | .sending | .returning => some (some .busy)
  | .receiving | .yielding => if receiver.holds floor then some none else some (some .busy)

def admitLoop : Nat → ReceiverProgram F (Option DeclineReason)
  | 0 => pure (some .busy)
  | fuel + 1 => do
    let floor ← snapshot
    let receiver ← receiverState
    match admissionAt receiver floor with
    | some answer => pure answer
    | none => do
      let claimed ← claimFloor floor
      match claimed with
      | .ok receiving => do
        update fun receiver => { receiver with floorGeneration := some receiving.generation }
        updateGate fun gate => gate.openInjection receiving.generation
        pure none
      | .error current =>
        -- refused rather than raced: the floor did not move
        if receiver.shared && current == floor then pure (some .busy) else admitLoop fuel

/-- The reason an activation is declined, if it is. -/
def admitActivation : ReceiverProgram F (Option DeclineReason) := do
  let receiver ← receiverState
  if !receiver.enabled then pure (some .disabled)
  else do
    let fuel ← retries
    admitLoop fuel

/-! ## Releases -/

/-- Ends gestures before keys and buttons, and attempts both even when the first fails. -/
def releaseInjected : ReceiverProgram F Bool := do
  update fun receiver => { receiver.closeGestures with keyboard := receiver.keyboard.clear }
  let ended ← apply .endGestures
  let released ← apply .releaseAll
  pure (released && ended)

def finishCleanup (native : Bool) : ReceiverProgram F Unit := do
  update fun receiver => { receiver.closeGestures.forgetInput with cleanupPending := false }
  runIf native (updateGate TakeBackGate.noteInjectedReleased)
  releaseFloor

/-- While another receiver holds the floor inbound, a shared receiver's cleanup is
bookkeeping only. -/
def retryCleanup : ReceiverProgram F Unit := do
  let receiver ← receiverState
  if !receiver.cleanupPending then pure ()
  else do
    let native ← mayRelease
    if native then do
      let released ← releaseInjected
      if !released then pure () else finishCleanup true
    else finishCleanup false

/-- Admission closes before cleanup, and nothing waits for injection. -/
def quiesce : ReceiverProgram F Unit := do
  let owns ← ownsNative
  runIf owns (updateGate fun gate => gate.openInjection 0)
  update fun receiver =>
    { receiver with active := none, pendingMove := none, cleanupPending := true }
  retryCleanup

/-- Stops for good; the first failure is the one that stays. -/
def stop (failure : ReceiverFailure) : ReceiverProgram F ReceiverFailure := do
  let receiver ← receiverState
  let latched := receiver.failure.getD failure
  update fun receiver => { receiver with failure := some latched }
  quiesce
  pure latched

def stopWith {Value : Type} (failure : ReceiverFailure) : ReceiverProgram F Value := do
  let latched ← stop failure
  throw latched

/-- No fresh reply for the whole deadline: releases everything this side injected and waits
for the source's barrier. -/
def hold (now : Duration) : ReceiverProgram F Unit := do
  quiesce
  let receiver ← receiverState
  let (result, health) := receiver.health.hold now
  update fun receiver => { receiver with health }
  match result with
  | .error error => stopWith (.health error)
  | .ok () =>
    update fun receiver =>
      { receiver with heldSince := some now, holdCount := saturatingSucc u32Max receiver.holdCount }

def resume (now : Duration) : ReceiverProgram F Unit := do
  update fun receiver =>
    match receiver.heldSince with
    | some since => { receiver with heldSince := none, heldMax := max receiver.heldMax (now - since) }
    | none => receiver
  let receiver ← receiverState
  let (result, health) := receiver.health.resume now
  update fun receiver => { receiver with health }
  match result with
  | .error error => throw (.health error)
  | .ok () => pure ()

/-- Answers the take-back that produced the yielding floor at `generation`. -/
def yieldToLocal (generation : Nat) : ReceiverProgram F (Option (Message F)) := do
  let floor ← snapshot
  let receiver ← receiverState
  if !receiver.holds floor || floor.state != .yielding || floor.generation != generation then
    pure none
  else do
    update fun receiver =>
      { receiver with floorGeneration := some generation, yielding := true, pendingMove := none }
    let released ← releaseInjected
    if !released then stopWith .nativeDelivery
    else do
      updateGate TakeBackGate.noteInjectedReleased
      pure (some .takeBack)

/-- A shared receiver leaves the trigger to its set. -/
def takeBack : ReceiverProgram F (Option (Message F)) := do
  let receiver ← receiverState
  if receiver.shared then pure none
  else do
    let triggered ← takeTriggered
    match triggered with
    | none => pure none
    | some generation => yieldToLocal generation

/-! ## Pointer motion -/

def applyPendingMove : ReceiverProgram F Unit := do
  let suppressed ← suppressInjection
  if suppressed then update fun receiver => { receiver with pendingMove := none }
  else do
    let receiver ← receiverState
    match receiver.pendingMove with
    | none => pure ()
    | some point => do
      deliver (.moveTo point)
      update fun receiver => { receiver with pendingMove := none }

/-- Injects the last validated pointer position of a motion burst. -/
def flush : ReceiverProgram F Unit := do
  let receiver ← receiverState
  match receiver.failure with
  | some failure => throw failure
  | none => tryCatch applyPendingMove stopWith

/-! ## Gestures -/

/-- `gesture`'s continuous kind at `phase`, changing nothing. -/
def unchangedAt [Scalar F] (gesture : PointerGesture F) (phase : GesturePhase) : PointerGesture F :=
  match gesture with
  | .magnify _ _ => .magnify phase 0
  | .rotate _ _ => .rotate phase 0
  | discrete => discrete

/-- The boundary a phase needs first, given whether its kind is open; `none` drops it. -/
def gestureRepair (phase : GesturePhase) (isOpen : Bool) : Option (Option GesturePhase) :=
  match phase with
  | .began => if isOpen then some (some .ended) else some none
  | .changed => if isOpen then some none else some (some .began)
  | .ended | .cancelled => if isOpen then some none else none

def normalize (receiver : InputReceiver F) : InputReceiver F :=
  { receiver with gestureNormalizations := saturatingSucc u32Max receiver.gestureNormalizations }

/-- Delivers the boundary a gesture's kind is missing. -/
def repairPhase [Scalar F] (gesture : PointerGesture F) : Option GesturePhase → ReceiverProgram F Unit
  | none => pure ()
  | some boundary => do
    update normalize
    deliver (.gesture (unchangedAt gesture boundary))

/-- Delivers a continuous gesture with its kind's phases in order. -/
def applyPhase [Scalar F] (gesture : PointerGesture F) (phase : GesturePhase)
    (isOpen : InputReceiver F → Bool) (setOpen : Bool → InputReceiver F → InputReceiver F) :
    ReceiverProgram F Unit := do
  let receiver ← receiverState
  match gestureRepair phase (isOpen receiver) with
  | none => update normalize
  | some repair => do
    repairPhase gesture repair
    update (setOpen !phase.isTerminal)
    deliver (.gesture gesture)

def applyGesture [Scalar F] (gesture : PointerGesture F) : ReceiverProgram F Unit :=
  match gesture with
  | .magnify phase _ =>
    applyPhase gesture phase InputReceiver.openMagnify fun isOpen receiver =>
      { receiver with openMagnify := isOpen }
  | .rotate phase _ =>
    applyPhase gesture phase InputReceiver.openRotate fun isOpen receiver =>
      { receiver with openRotate := isOpen }
  | .smartMagnify | .forceClick => deliver (.gesture gesture)

/-! ## Time -/

/-- Ends a gesture whose records stopped coming. -/
def endIdleGestures (now : Duration) : ReceiverProgram F Unit := do
  let receiver ← receiverState
  if (receiver.openMagnify || receiver.openRotate) &&
      decide (now - receiver.gestureSeen ≥ touchStreamIdle) then do
    update InputReceiver.closeGestures
    let releases ← mayRelease
    if !releases then pure ()
    else tryCatch (deliver .endGestures) stopWith
  else pure ()

def tickHeld (since now : Duration) : ReceiverProgram F (Option (Message F)) := do
  if now - since ≥ holdLimit then stopWith (.health .deadlineExpired)
  else do
    retryCleanup
    let receiver ← receiverState
    let (result, health) := receiver.health.pollWhileHeld now
    update fun receiver => { receiver with health }
    match result with
    | .ok token => pure (token.map .ping)
    | .error error => stopWith (.health error)

def tickRunning (now : Duration) : ReceiverProgram F (Option (Message F)) := do
  endIdleGestures now
  let receiver ← receiverState
  let (result, health) := receiver.health.poll now
  update fun receiver => { receiver with health }
  match result with
  | .ok token => pure (token.map .ping)
  | .error .deadlineExpired => do
    hold now
    pure none
  | .error error => stopWith (.health error)

def tick (now : Duration) : ReceiverProgram F (Option (Message F)) := do
  let receiver ← receiverState
  match receiver.failure, receiver.heldSince with
  | some failure, _ => do
    retryCleanup
    throw failure
  | none, some since => tickHeld since now
  | none, none => tickRunning now

/-! ## Frames -/

/-- Whether the link has stalled: nothing is injected, but frames are still tracked. -/
def detectHold (now : Duration) : ReceiverProgram F Bool := do
  let receiver ← receiverState
  if receiver.heldSince.isSome then pure true
  else do
    let (result, health) := receiver.health.check now
    update fun receiver => { receiver with health }
    match result with
    | .ok () => pure false
    | .error error =>
      if error ≠ .deadlineExpired then throw (.health error)
      else do
        -- a frame arriving just past the deadline is the first sign of the stall
        hold now
        pure true

def limitRate (now : Duration) : ReceiverProgram F Unit := do
  let receiver ← receiverState
  let (result, limiter) := receiver.limiter.allowAt (millisU64 now)
  update fun receiver => { receiver with limiter }
  match result with
  | .ok () => pure ()
  | .error _ => throw .rateLimited

def receivePong (held : Bool) (token : Nat) (now : Duration) : ReceiverProgram F Unit := do
  let receiver ← receiverState
  let (result, health) :=
    if held then
      let (result, health) := receiver.health.receivePongWhileHeld token now
      (result.map fun _ => (), health)
    else receiver.health.receivePong token now
  update fun receiver => { receiver with health }
  match result with
  | .ok () => pure ()
  | .error error => throw (.health error)

/-- A stale heartbeat is dropped, never answered or trusted. -/
def receiveHeartbeat (held : Bool) (frame : Frame F) (now : Duration) :
    ReceiverProgram F (Option (Message F)) := do
  let receiver ← receiverState
  let (result, controlSequences) := receiver.controlSequences.acceptHeartbeat frame
  update fun receiver => { receiver with controlSequences }
  match result with
  | .error _ => pure none
  | .ok () =>
    match frame.message with
    | .ping token => pure (if held then none else some (.pong token))
    | .pong token => do
      receivePong held token now
      pure none
    | _ => pure none

/-- A barrier's native release: another owner's input is never released. -/
def releaseNative (releases : Bool) : ReceiverProgram F Unit := do
  if releases then do
    let released ← releaseInjected
    if !released then throw .nativeDelivery
    else updateGate TakeBackGate.noteInjectedReleased
  else update InputReceiver.closeGestures

/-- Native cleanup precedes the floor becoming available. -/
def releaseControl : ReceiverProgram F Unit := do
  let releases ← mayRelease
  releaseNative releases
  releaseFloor

def endHold (now : Duration) : ReceiverProgram F Unit := do
  update fun receiver => { receiver with cleanupPending := false }
  resume now

/-- What a barrier leaves once everything is released. -/
def finishRelease (held : Bool) (now : Duration) : ReceiverProgram F (Option (Message F)) := do
  update fun receiver => { receiver.forgetInput with active := none, pendingMove := none }
  runIf held (endHold now)
  pure (some .releaseAck)

/-- The source's barrier.  Admission closes first. -/
def receiveRelease (held : Bool) (now : Duration) : ReceiverProgram F (Option (Message F)) := do
  let owns ← ownsNative
  let receiver ← receiverState
  runIf (owns && receiver.floorGeneration.isSome) (updateGate fun gate => gate.openInjection 0)
  releaseControl
  finishRelease held now

variable [Scalar F]

/-- The epoch and sequence an activation consumes, and the translation it asks for. -/
def admitEpoch (frame : Frame F) (displayId : DisplayId) (position : Point F)
    (controlAsCommand : Bool) : ReceiverProgram F Unit := do
  let receiver ← receiverState
  if checkedSucc receiver.epoch.get ≠ some frame.epoch.get then throw .invalidEpoch
  else
    match receiver.checkPoint displayId position with
    | .error failure => throw failure
    | .ok () => do
      let (activated, sequences) := receiver.sequences.activateEpoch frame.epoch
      update fun receiver => { receiver with sequences }
      match activated with
      | .error _ => throw .invalidEpoch
      | .ok () => do
        let (accepted, sequences) := sequences.accept frame
        update fun receiver => { receiver with sequences }
        match accepted with
        | .error _ => throw .invalidSequence
        | .ok () => update fun receiver => { receiver with controlAsCommand, epoch := frame.epoch }

def receiveActivation (held : Bool) (frame : Frame F) (displayId : DisplayId)
    (position : Point F) (controlAsCommand : Bool) : ReceiverProgram F (Option (Message F)) := do
  admitEpoch frame displayId position controlAsCommand
  if held then pure none
  else do
    let declined ← admitActivation
    match declined with
    | some reason => pure (some (.activationDeclined displayId reason))
    | none => do
      -- moving between displays of this destination keeps an in-progress drag
      update fun receiver => { receiver with pendingMove := none }
      let suppressed ← suppressInjection
      runIf (!suppressed) (deliver (.moveTo position))
      update fun receiver => { receiver with active := some (displayId, position) }
      pure (some (.activationAck displayId))

/-- Whether the frame belongs to the session's sequence; a late datagram is dropped. -/
def admitSequence (frame : Frame F) : ReceiverProgram F Bool := do
  let receiver ← receiverState
  let datagram := frame.delivery == .motionDatagram
  if frame.epoch ≠ receiver.epoch then
    if datagram && decide (frame.epoch.get < receiver.epoch.get) then pure false
    else throw .invalidEpoch
  else do
    let (accepted, sequences) := receiver.sequences.accept frame
    update fun receiver => { receiver with sequences }
    match accepted with
    | .error error =>
      if datagram && error == .staleOrReplay then pure false else throw .invalidSequence
    | .ok () => pure true

def requireActive : ReceiverProgram F (DisplayId × Point F) := do
  let receiver ← receiverState
  match receiver.active with
  | none => throw .notActive
  | some active => pure active

def injectKey (key : Key) : ReceiverProgram F Unit := do
  let receiver ← receiverState
  let (plan, keyboard) := receiver.keyboard.key key.usage key.isDown receiver.translation
  update fun receiver => { receiver with keyboard }
  deliverKeys plan

def receiveKey (key : Key) : ReceiverProgram F Unit := do
  let _ ← requireActive
  let receiver ← receiverState
  if !key.usage.isValid then throw .invalidPressedState
  else
    let down := receiver.keys key.usage.code
    if (key.isDown && key.isRepeat != down) || (!key.isDown && (!down || key.isRepeat)) then
      throw .invalidPressedState
    else do
      update fun receiver =>
        { receiver with keys := Function.update receiver.keys key.usage.code key.isDown }
      let receiver ← receiverState
      if receiver.modifiers ≠ key.modifiers then throw .invalidPressedState
      else do
        let suppressed ← suppressInjection
        runIf (!suppressed) (injectKey key)

/-- The modifiers a mouse press needs. -/
def injectClick : ReceiverProgram F Unit := do
  let receiver ← receiverState
  let (plan, keyboard) := receiver.keyboard.click receiver.translation
  update fun receiver => { receiver with keyboard }
  deliverKeys plan

def injectButton (button : Button) : ReceiverProgram F Unit := do
  runIf button.isDown injectClick
  deliver (.button button.button button.isDown button.clickCount)

def receiveButton (button : Button) : ReceiverProgram F Unit := do
  let _ ← requireActive
  let receiver ← receiverState
  if receiver.buttons button.button == button.isDown then throw .invalidPressedState
  else do
    let suppressed ← suppressInjection
    runIf (!suppressed) (injectButton button)
    update fun receiver =>
      { receiver with buttons := Function.update receiver.buttons button.button button.isDown }

def maxScroll : F := Scalar.ofInt 1000000

def receiveScroll (scroll : Scroll F) : ReceiverProgram F Unit := do
  let _ ← requireActive
  if !Scalar.isFinite scroll.horizontal || !Scalar.isFinite scroll.vertical ||
      Scalar.lt maxScroll (Scalar.abs scroll.horizontal) ||
        Scalar.lt maxScroll (Scalar.abs scroll.vertical) then
    throw .invalidPoint
  else do
    let suppressed ← suppressInjection
    runIf (!suppressed) (deliver (.scroll scroll.horizontal scroll.vertical))

def receiveGesture (gesture : PointerGesture F) (now : Duration) : ReceiverProgram F Unit := do
  let _ ← requireActive
  match gesture.validate with
  | .error _ => throw .invalidGesture
  | .ok () => do
    update fun receiver => { receiver with gestureSeen := now }
    let suppressed ← suppressInjection
    runIf (!suppressed) (applyGesture gesture)

def receiveSystemGesture (gesture : SystemGesture) : ReceiverProgram F Unit := do
  let _ ← requireActive
  let suppressed ← suppressInjection
  runIf (!suppressed) (deliver (.system gesture))

def receiveMotion (motion : Motion F) : ReceiverProgram F Unit := do
  let (displayId, previous) ← requireActive
  let next := match motion with
    | .absolute position => position
    | .relative delta => { x := previous.x + delta.x, y := previous.y + delta.y }
  let receiver ← receiverState
  match receiver.checkPoint displayId next with
  | .error failure => throw failure
  | .ok () =>
    update fun receiver =>
      { receiver with pendingMove := some next, active := some (displayId, next) }

/-- A message that presses, moves or scrolls. -/
def receiveInput (message : Message F) (now : Duration) : ReceiverProgram F Unit :=
  match message with
  | .key key => receiveKey key
  | .button button => receiveButton button
  | .scroll scroll => receiveScroll scroll
  | .gesture gesture => receiveGesture gesture now
  | .systemGesture gesture => receiveSystemGesture gesture
  | .motion motion => receiveMotion motion
  | _ => throw .unexpectedMessage

end Session

/-- A message that carries input: dropped while held. -/
def isInput {F : Type} : Message F → Bool
  | .key _ | .button _ | .scroll _ | .motion _ | .gesture _ | .systemGesture _ => true
  | _ => false

def isMotion {F : Type} : Message F → Bool
  | .motion _ => true
  | _ => false

namespace Session

variable {F : Type} [Scalar F]

def receiveMessage (held : Bool) (message : Message F) (now : Duration) :
    ReceiverProgram F (Option (Message F)) :=
  match message with
  | .releaseAll => receiveRelease held now
  | .disconnect _ | .error _ => throw .peerStopped
  | message =>
    if held && isInput message then pure none
    else do
      receiveInput message now
      pure none

/-- A frame that is neither a heartbeat nor an activation. -/
def receiveSequenced (held : Bool) (frame : Frame F) (now : Duration) :
    ReceiverProgram F (Option (Message F)) := do
  let admitted ← admitSequence frame
  if !admitted then pure none
  else do
    runIf (!held && !isMotion frame.message) applyPendingMove
    receiveMessage held frame.message now

def receiveActive (frame : Frame F) (now : Duration) : ReceiverProgram F (Option (Message F)) := do
  let held ← detectHold now
  limitRate now
  match frame.message with
  | .ping _ | .pong _ => receiveHeartbeat held frame now
  | .activateDisplayAt displayId position controlAsCommand =>
    receiveActivation held frame displayId position controlAsCommand
  | _ => receiveSequenced held frame now

def receive (frame : Frame F) (now : Duration) : ReceiverProgram F (Option (Message F)) := do
  let receiver ← receiverState
  match receiver.failure with
  | some failure => throw failure
  | none => tryCatch (receiveActive frame now) stopWith

end Session
end Monhop.Transport
