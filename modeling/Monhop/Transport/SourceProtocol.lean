import Monhop.Transport.SourceCalls

/-! # The source's protocol

What a source controller does on the wire, to native capture and to the floor, without the
pointer's geometry: a `View` keeps the trip's phase, the counters, the tables and the trace
of a call, and a `Move` is one thing the protocol may do.  `SourceRefines` shows that every
call of the controller is a chain of moves; the properties of whole runs are proved on
moves alone.
-/

namespace Monhop.Transport

open Monhop.Core Protocol

/-- What a trip to the peer is doing. -/
inductive Phase where
  | home
  /-- The peer was asked to activate a display: as a crossing from home, or as a hop or a
  handover with native capture already remote. -/
  | asking (display : DisplayId) (crossing handedOver : Bool)
  /-- Native capture was asked to suppress. -/
  | entering (request : RouteRequest) (ticket : Option Nat)
  | away
  /-- A `ReleaseAll` is unacknowledged; the pointer may go on to a third peer after it. -/
  | releasing (onward : Bool)
  /-- Native capture was asked to come home. -/
  | leaving (request : RouteRequest) (ticket : Option Nat)
  | failed

def State.phase {F : Type} : State F → Phase
  | .localInput _ _ => .home
  | .awaitActivation wait => .asking wait.target.display (!wait.captureAlreadyRemote) wait.handover
  | .awaitRemoteBarrier wait => .entering wait.request wait.ticket
  | .remote _ => .away
  | .awaitRelease wait => .releasing wait.handover.isSome
  | .awaitLocalBarrier wait => .leaving wait.request wait.ticket
  | .failed => .failed

namespace Phase

/-- The peer may hold input of this computer. -/
def mayHold : Phase → Bool
  | asking _ _ _ | entering _ _ | away | releasing _ => true
  | _ => false

def mayBeRemote : Phase → Bool
  | entering _ _ | away | releasing _ | leaving _ _ => true
  | _ => false

end Phase

/-- What the protocol sees of a call in progress. -/
structure View (F : Type) where
  baseEpoch : SessionEpoch
  slot : FloorPeer
  phase : Phase
  inputEpoch : SessionEpoch
  inputSequence : Nat
  controlSequence : Nat
  inboundEpoch : Option SessionEpoch
  inboundSequence : Option Nat
  route : CaptureRoute
  requests : Nat
  keys : KeyTable
  buttons : ButtonTable
  waiting : Option (Point F)
  /-- The peer acknowledged an activation and was not released since. -/
  reached : Bool
  failure : Option SourceFailure
  heldSince : Option Duration
  pending : Nat
  pongSeen : Bool
  /-- The next challenge, and the last one acknowledged. -/
  nextToken : Nat
  lastAcked : Nat
  claim : Option FloorSnapshot
  handover : Option (Handover F)
  takeBack : Bool
  floor : FloorSnapshot
  script : List FloorSnapshot
  trace : List (SourceEvent F)

@[simps]
def Turn.view {F : Type} (turn : Turn F) : View F :=
  { baseEpoch := turn.source.baseEpoch, slot := turn.source.slot
    phase := turn.source.state.phase, inputEpoch := turn.source.inputEpoch
    inputSequence := turn.source.outboundInputSequence
    controlSequence := turn.source.outboundControlSequence
    inboundEpoch := turn.source.inboundInputEpoch
    inboundSequence := turn.source.inboundInputSequence, route := turn.source.captureRoute
    requests := turn.source.nextRouteRequest, keys := turn.source.keys
    buttons := turn.source.buttons, waiting := turn.source.pacer.waiting
    reached := turn.source.remoteTarget.isSome, failure := turn.source.failure
    heldSince := turn.source.heldSince, pending := turn.source.releaseAcksPending
    pongSeen := turn.source.holdPongSeen, nextToken := turn.source.health.nextToken
    lastAcked := turn.source.health.lastAcked, claim := turn.source.floorClaim
    handover := turn.source.handover, takeBack := turn.source.takeBack, floor := turn.floor
    script := turn.script, trace := turn.trace }

abbrev Turn.Alive {F : Type} (turn : Turn F) : Prop := turn.isFailed = false

namespace View

variable {F : Type}

/-! ## What a move is made of -/

variable (view : View F)

abbrev Alive : Prop := view.failure = none

def record (event : SourceEvent F) : View F :=
  { view with trace := view.trace ++ [event] }

def ask (effect : SourceEffect F) : View F :=
  view.record (.asked effect view.waiting)

def sendInput (message : Message F) : View F :=
  { view with inputSequence := view.inputSequence + 1 }.ask
    (.remoteFrame (.new view.inputEpoch view.inputSequence message))

def sendControl (message : Message F) : View F :=
  { view with controlSequence := view.controlSequence + 1 }.ask
    (.remoteFrame (.new view.baseEpoch view.controlSequence message))

def withWaiting (waiting : Option (Point F)) : View F := { view with waiting }

def flushed : View F :=
  match view.waiting with
  | none => view
  | some position => (view.withWaiting none).sendInput (.motion (.absolute position))

def hasRoom : Bool :=
  decide ((view.trace.filterMap SourceEvent.effect?).length < maxSourceEffects)

def arrive : View F :=
  match view.script with
  | [] => view
  | floor :: script => { view with floor, script }

/-- Swaps the floor and keeps the new snapshot as the claim. -/
def swapClaim (target : FloorSnapshot) : View F :=
  { view with floor := target, claim := some target }.record (.swapped view.floor target)

/-- Swaps the floor over from the controller whose route the handover passes on. -/
def takeOver (handover : Handover F) (sending : FloorSnapshot) : View F :=
  { view.swapClaim sending with
    route := { remote := true, revision := handover.routeRevision, owned := true } }

def clearRemote : View F :=
  { view with
    reached := false, keys := view.keys.clearRemote, buttons := view.buttons.clearRemote }

def remoteMayHold : Bool := view.reached || view.phase.mayHold

def nativeMayBeRemote : Bool :=
  view.route.remote && view.route.owned || view.phase.mayBeRemote

variable (frame : Frame F)

def accept : View F :=
  { view with
    inboundEpoch := some frame.epoch, inboundSequence := some frame.sequence }.record
    (.accepted frame)

/-- Opens an epoch for the request to activate a display. -/
def opening (display : DisplayId) (crossing : Bool) (epoch : SessionEpoch) : View F :=
  { view with phase := .asking display crossing false, inputEpoch := epoch, inputSequence := 0 }

def restore (display : DisplayId) (position : Point F) : View F :=
  { view with
    phase := .leaving ⟨view.requests⟩ none, requests := view.requests + 1 }.ask
    (.restoreLocalAt ⟨view.requests⟩ display position)

def keyMessage (keys : KeyTable) (index : Nat) (isDown isRepeat : Bool) : Message F :=
  .key { usage := ⟨index⟩, isDown, isRepeat, modifiers := keys.remoteModifiers }

def sendKey (keys : KeyTable) (index : Nat) (isDown isRepeat : Bool) : View F :=
  { view with keys }.sendInput (keyMessage keys index isDown isRepeat)

def sendButton (buttons : ButtonTable) (button : MouseButton) (isDown : Bool)
    (clickCount : Nat) : View F :=
  { view with buttons }.sendInput (.button { button, isDown, clickCount })

/-- What a hold owes besides its barrier. -/
def owed : Nat :=
  match view.phase with
  | .releasing _ => 1
  | _ => 0

/-- A hold's barrier, and what it forgets. -/
def holdBarrier : View F :=
  { view.clearRemote with
    pending := saturatingSucc u32Max (min (view.pending + view.owed) u32Max)
    lastAcked := view.nextToken - 1 }.sendInput .releaseAll

def markHeld (now : Duration) : View F :=
  { view with heldSince := some now, pongSeen := false }.record (.held now)

/-- The whole of a hold, once waiting motion was sent. -/
def retreat (now : Duration) (display : DisplayId) (position : Point F) : View F :=
  match view.phase with
  | .leaving _ _ => view.holdBarrier.markHeld now
  | _ =>
    if view.nativeMayBeRemote then (view.holdBarrier.restore display position).markHeld now
    else { view.holdBarrier with phase := .home }.markHeld now

/-- Asks for an effect, unless the array is full. -/
def push (effect : SourceEffect F) : View F :=
  if view.hasRoom then view.ask effect else view

def failRelease (remoteMayHold : Bool) : View F :=
  if remoteMayHold then
    match checkedSucc view.inputSequence with
    | none => view
    | some next =>
      { view with inputSequence := next }.push
        (.remoteFrame (.new view.inputEpoch view.inputSequence .releaseAll))
  else view

def failRestore (nativeMayBeRemote : Bool) (display : DisplayId) (position : Point F) : View F :=
  if nativeMayBeRemote then
    match checkedSucc view.requests with
    | none => view
    | some next =>
      { view with requests := next }.push (.restoreLocalAt ⟨view.requests⟩ display position)
  else view

/-- The whole of a failure. -/
def fail (reason : SourceFailure) (display : DisplayId) (position : Point F) : View F :=
  let stopped := { view with failure := some reason, phase := .failed, waiting := none }
  (stopped.failRelease view.remoteMayHold).clearRemote.failRestore view.nativeMayBeRemote display
    position

/-! ## What moves may rely on -/

/-- An activation of the present epoch was acknowledged in this call. -/
def Answered (display : DisplayId) : Prop :=
  ∃ frame, .accepted frame ∈ view.trace ∧ frame.message = .activationAck display ∧
    frame.epoch = view.inputEpoch

/-- An activation of the present epoch was declined in this call. -/
def Declined (display : DisplayId) : Prop :=
  ∃ frame, .accepted frame ∈ view.trace ∧ frame.epoch = view.inputEpoch ∧
    ∃ reason, frame.message = .activationDeclined display reason

/-- Held input is being brought to the peer: at the remote barrier, or once a hop or a
handover was acknowledged. -/
inductive Landing : Prop where
  | barrier (request : RouteRequest) (ticket : Option Nat)
      (phase : view.phase = .entering request ticket)
  | answered (display : DisplayId) (handedOver : Bool)
      (phase : view.phase = .asking display false handedOver) (answered : view.Answered display)

/-- A hop between two displays of the peer was acknowledged. -/
structure Hopping (display : DisplayId) : Prop where
  phase : view.phase = .asking display false false
  answered : view.Answered display

/-- The peer takes input. -/
def Forwards : Prop := view.phase = .away ∨ view.Landing

/-! ### Order of the peer's frames -/

/-- A sequence number of the open epoch not seen yet. -/
def Newer (sequence : Nat) : Prop :=
  ∀ last, view.inboundSequence = some last → last < sequence

/-- A frame of the present epoch in its order; the first one opens the epoch. -/
def InOrder : Prop :=
  frame.epoch = view.inputEpoch ∧
    (view.inboundEpoch = some frame.epoch ∧ view.Newer frame.sequence ∨
      ∀ active, view.inboundEpoch = some active → active.get < frame.epoch.get)

/-- The frame answers the activation the view waits for. -/
def AnsweredBy : Prop :=
  ∃ display crossing handedOver, view.phase = .asking display crossing handedOver ∧
    (frame.message = .activationAck display ∨
      ∃ reason, frame.message = .activationDeclined display reason)

/-- A take-back is in order, or is of the epoch a hop just left. -/
def AdmitsTakeBack : Prop :=
  view.inboundEpoch = some frame.epoch ∧ view.Newer frame.sequence ∧
      (frame.epoch = view.inputEpoch ∨
        frame.epoch.get < view.inputEpoch.get ∧
          ∃ display handedOver, view.phase = .asking display false handedOver) ∨
    view.InOrder frame ∧
      ∃ display crossing handedOver, view.phase = .asking display crossing handedOver

/-- A take-back a stall delayed. -/
def IsLate (epoch : SessionEpoch) : Prop :=
  (view.heldSince.isSome = true ∨ view.phase = .home ∨
      ∃ request ticket, view.phase = .leaving request ticket) ∧
    epoch.get ≤ view.inputEpoch.get ∧
    ∀ opened, view.inboundEpoch = some opened → opened.get ≤ epoch.get

def Awaits (remote : Bool) (revision : Nat) : Prop :=
  remote = true ∧ (∃ request, view.phase = .entering request (some revision)) ∨
    remote = false ∧ ∃ request, view.phase = .leaving request (some revision)

section
variable (other : View F)

/-- Two views that agree on the epochs, the route and the floor. -/
structure Alike : Prop where
  baseEpoch : other.baseEpoch = view.baseEpoch
  slot : other.slot = view.slot
  inputEpoch : other.inputEpoch = view.inputEpoch
  route : other.route = view.route
  failure : other.failure = view.failure
  claim : other.claim = view.claim
  handover : other.handover = view.handover
  floor : other.floor = view.floor

/-- What calls leave alone once the controller failed. -/
structure Stays : Prop extends view.Alike other where
  trace : other.trace = view.trace

/-- They also agree on the phase and the hold, and no counter went back. -/
structure Kept : Prop extends view.Alike other where
  phase : other.phase = view.phase
  heldSince : other.heldSince = view.heldSince
  script : other.script = view.script
  controlSequence : view.controlSequence ≤ other.controlSequence
  requests : view.requests ≤ other.requests

end

/-- What a failing call may have changed before it failed. -/
structure Drift (view drifted : View F) : Prop extends view.Kept drifted where
  /-- A frame that found no room took its number. -/
  inputSequence : drifted.inputSequence = view.inputSequence ∨ view.hasRoom = false
  remoteMayHold : drifted.remoteMayHold = view.remoteMayHold
  /-- Nothing but accepted frames happened. -/
  trace : ∃ frames : List (Frame F), drifted.trace = view.trace ++ frames.map .accepted

end View

/-- The captured record a call brings. -/
def SourceCall.event? {F : Type} : SourceCall F → Option (NormalizedInput F)
  | .captured record _ | .bookkeeping record => some record.event
  | _ => none

/-- The call brings a record in native order, not one seen before the session. -/
def SourceCall.isCaptured {F : Type} : SourceCall F → Bool
  | .captured _ _ => true
  | _ => false

def SourceCall.frame? {F : Type} : SourceCall F → Option (Frame F)
  | .remoteFrame frame _ => some frame
  | _ => none

/-- An activation may go out: for a crossing or a handover from home under a claim, or for a
hop while the peer takes input. -/
def View.Departs {F : Type} (view : View F) (call : SourceCall F) (crossing : Bool) : Prop :=
  view.phase = .home ∧ view.heldSince = none ∧ view.claim.isSome = true ∧
      (crossing = true ∨ ∃ handover now, call = .acceptHandover handover now) ∨
    view.phase = .away ∧ crossing = false

/-- What a call brought when it failed the controller, for the failures its callers can
cause. -/
def Fault {F : Type} (call : SourceCall F) (view : View F) : SourceFailure → Prop
  | .routeMismatch =>
    (∃ request ticket now, call = .bindCaptureRoute request ticket now ∧
      ¬(view.route.revision < ticket ∧
        (view.phase = .entering request none ∨ view.phase = .leaving request none))) ∨
    ∃ record now, call = .captured record now ∧
      match record.event with
      | .routeChanged remote revision => record.remote ≠ remote ∨ record.routingRevision ≠ revision
      | _ => record.remote ≠ view.route.remote ∨ record.routingRevision ≠ view.route.revision
  | .unexpectedRouteBarrier =>
    (∃ record now remote revision, call = .captured record now ∧
      record.event = .routeChanged remote revision ∧ ¬view.Awaits remote revision) ∨
    ∃ remote revision now, call = .observeForeignRoute remote revision now ∧
      ¬(view.phase = .home ∧ view.route.revision < revision)
  | .invalidActivationAcknowledgement =>
    ∃ frame, call.frame? = some frame ∧ view.heldSince = none ∧
      (∃ display crossing handedOver, view.phase = .asking display crossing handedOver) ∧
      ¬(view.InOrder frame ∧ view.AnsweredBy frame)
  | .invalidReleaseAcknowledgement =>
    ∃ frame, call.frame? = some frame ∧
      ((∀ onward, view.phase ≠ .releasing onward) ∧ 0 < view.pending ∧
          frame.message = .releaseAck ∧ ¬view.InOrder frame ∨
        (∃ onward, view.phase = .releasing onward) ∧ view.heldSince = none ∧
          ¬(frame.message = .releaseAck ∧ frame.epoch = view.inputEpoch ∧
            view.inboundEpoch = some view.inputEpoch ∧ view.Newer frame.sequence))
  | .invalidRemoteFrame =>
    ∃ frame, call.frame? = some frame ∧
      (frame.message = .takeBack ∧ ¬view.AdmitsTakeBack frame ∧ ¬view.IsLate frame.epoch ∨
        frame.message ≠ .takeBack ∧ frame.message.isHeartbeat = false ∧ view.heldSince = none ∧
          ¬(frame.message = .releaseAck ∧ 0 < view.pending) ∧
          (∀ display crossing handedOver, view.phase ≠ .asking display crossing handedOver) ∧
          ∀ onward, view.phase ≠ .releasing onward)
  | _ => True

open View

/-- One thing the protocol does during a call. -/
inductive Move {F : Type} (call : SourceCall F) (view : View F) : View F → Prop where
  /-- The other threads act on the floor. -/
  | arrive : Move call view view.arrive
  | takeBack (takeBack : Bool) : Move call view { view with takeBack }
  | handover (handover : Option (Handover F)) :
      Move call view { view with handover }
  -- heartbeats
  | ping (alive : view.Alive) :
      Move call view ({ view with nextToken := view.nextToken + 1 }.sendControl (.ping view.nextToken))
  | pong (token : Nat) (alive : view.Alive) :
      Move call view (view.sendControl (.pong token))
  | acceptHeartbeat (frame : Frame F) (alive : view.Alive)
      (brought : call.frame? = some frame) (heartbeat : frame.message.isHeartbeat = true) :
      Move call view (view.record (.accepted frame))
  | credit (token : Nat) (alive : view.Alive)
      (free : view.heldSince = none) (fresh : view.lastAcked < token ∧ token < view.nextToken) :
      Move call view { view with lastAcked := token }
  | creditHeld (frame : Frame F) (token : Nat) (alive : view.Alive)
      (held : view.heldSince.isSome = true) (brought : call.frame? = some frame)
      (isPong : frame.message = .pong token)
      (taken : ∃ earlier, view.trace = earlier ++ [.accepted frame])
      (fresh : view.lastAcked < token ∧ token < view.nextToken) :
      Move call view { view with lastAcked := token, pongSeen := true }
  -- frames of the peer
  | accept (frame : Frame F) (alive : view.Alive)
      (brought : call.frame? = some frame) (other : frame.message ≠ .releaseAck)
      (quiet : frame.message.isHeartbeat = false)
      (admitted : frame.message = .takeBack ∧ view.AdmitsTakeBack frame ∨
        view.InOrder frame ∧ view.AnsweredBy frame) :
      Move call view (view.accept frame)
  | barrierAck (frame : Frame F) (alive : view.Alive)
      (brought : call.frame? = some frame) (isAck : frame.message = .releaseAck)
      (inOrder : view.InOrder frame) (owes : 0 < view.pending)
      (notReleasing : ∀ onward, view.phase ≠ .releasing onward) :
      Move call view { view.accept frame with pending := view.pending - 1 }
  | resume (now : Duration) (alive : view.Alive)
      (held : view.heldSince.isSome = true) (settled : view.pending = 0)
      (answered : view.pongSeen = true) :
      Move call view ({ view with heldSince := none, pongSeen := false }.record (.resumed now))
  -- forwarded input
  | offer (position : Point F) (alive : view.Alive)
      (forwards : view.Forwards) : Move call view (view.withWaiting (some position))
  | motion (position : Point F) (alive : view.Alive) (waits : view.waiting = some position) :
      Move call view ((view.withWaiting none).sendInput (.motion (.absolute position)))
  | press (usage : HidUsage) (modifiers : ModifierState)
      (alive : view.Alive) (away : view.phase = .away) (still : view.waiting = none)
      (brought : call.event? = some (.key usage true false modifiers))
      (up : (view.keys usage.code).physical = false) :
      Move call view (view.sendKey
        ((view.keys.setPhysical usage.code true).setRemote usage.code true) usage.code true false)
  | again (usage : HidUsage) (modifiers : ModifierState)
      (alive : view.Alive) (away : view.phase = .away) (still : view.waiting = none)
      (brought : call.event? = some (.key usage true true modifiers))
      (down : (view.keys usage.code).remote = true) :
      Move call view (view.sendKey view.keys usage.code true true)
  | release (usage : HidUsage) (modifiers : ModifierState)
      (alive : view.Alive) (away : view.phase = .away) (still : view.waiting = none)
      (brought : call.event? = some (.key usage false false modifiers))
      (down : (view.keys usage.code).physical = true ∧ (view.keys usage.code).remote = true) :
      Move call view (view.sendKey
        ((view.keys.setPhysical usage.code false).setRemote usage.code false) usage.code false false)
  | key (usage : HidUsage) (pressed isRepeat : Bool) (modifiers : ModifierState)
      (alive : view.Alive) (brought : call.event? = some (.key usage pressed isRepeat modifiers))
      (unsent : call.isCaptured = true → view.route.remote = true → view.phase = .away →
        pressed = false ∧ (view.keys usage.code).remote = false) :
      Move call view { view with keys := view.keys.setPhysical usage.code pressed }
  | pressButton (button : MouseButton) (stamp : Duration) (clickCount : Nat)
      (alive : view.Alive) (away : view.phase = .away) (still : view.waiting = none)
      (brought : call.event? = some (.button button true stamp))
      (up : (view.buttons button).physical = false) :
      Move call view (view.sendButton
        ((view.buttons.setPhysical button true).pressRemote button clickCount) button true clickCount)
  | releaseButton (button : MouseButton) (stamp : Duration)
      (alive : view.Alive) (away : view.phase = .away) (still : view.waiting = none)
      (brought : call.event? = some (.button button false stamp))
      (down : (view.buttons button).remote = true) :
      Move call view (view.sendButton
        ((view.buttons.setPhysical button false).releaseRemote button) button false
        (view.buttons button).remoteClicks)
  | button (button : MouseButton) (pressed : Bool) (stamp : Duration) (alive : view.Alive)
      (brought : call.event? = some (.button button pressed stamp))
      (unsent : call.isCaptured = true → view.route.remote = true → view.phase = .away →
        pressed = true ∧ (view.buttons button).physical = true ∨
          pressed = false ∧ (view.buttons button).remote = false) :
      Move call view { view with buttons := view.buttons.setPhysical button pressed }
  | forward (message : Message F) (alive : view.Alive)
      (away : view.phase = .away) (still : view.waiting = none)
      (plain : (∃ scroll, message = .scroll scroll) ∨ (∃ gesture, message = .gesture gesture) ∨
        ∃ gesture, message = .systemGesture gesture) :
      Move call view (view.sendInput message)
  -- held input follows the pointer
  | catchPress (index : Nat) (alive : view.Alive)
      (landing : view.Landing) (still : view.waiting = none)
      (waits : (view.keys index).physical = true ∧ (view.keys index).remote = false)
      (allowed : index ∈ modifierUsages ∨
        index ∈ ordinaryUsages ∧ ∃ display, view.Hopping display) :
      Move call view (view.sendKey (view.keys.setRemote index true) index true false)
  | catchRelease (index : Nat) (display : DisplayId) (alive : view.Alive)
      (hopping : view.Hopping display) (still : view.waiting = none)
      (lingers : (view.keys index).remote = true ∧ (view.keys index).physical = false) :
      Move call view (view.sendKey (view.keys.setRemote index false) index false false)
  | catchPressButton (button : MouseButton) (alive : view.Alive)
      (landing : view.Landing) (still : view.waiting = none)
      (waits : (view.buttons button).physical = true ∧ (view.buttons button).remote = false) :
      Move call view
        (view.sendButton (view.buttons.pressRemote button singleClick) button true singleClick)
  | catchReleaseButton (button : MouseButton) (display : DisplayId)
      (alive : view.Alive) (hopping : view.Hopping display) (still : view.waiting = none)
      (lingers : (view.buttons button).remote = true ∧ (view.buttons button).physical = false) :
      Move call view (view.sendButton (view.buttons.releaseRemote button) button false
        (view.buttons button).remoteClicks)
  -- going
  | claim (requesting : FloorSnapshot) (alive : view.Alive)
      (home : view.phase = .home) (free : view.heldSince = none)
      (swap : (FloorOp.claim view.floor .requesting view.slot).run view.floor = .ok requesting) :
      Move call view (view.swapClaim requesting)
  | takeOver (handover : Handover F) (now : Duration) (sending : FloorSnapshot)
      (brought : call = .acceptHandover handover now) (alive : view.Alive)
      (home : view.phase = .home) (free : view.heldSince = none) (unclaimed : view.claim = none)
      (newer : view.route.revision ≤ handover.routeRevision)
      (swap : (FloorOp.handOver handover.claim view.slot).run view.floor = .ok sending) :
      Move call view (view.takeOver handover sending)
  | ask (display : DisplayId) (position : Point F) (translate crossing : Bool)
      (epoch : SessionEpoch) (next : epoch.get = view.inputEpoch.get + 1)
      (alive : view.Alive) (still : view.waiting = none) (leaves : view.Departs call crossing) :
      Move call view ((view.opening display crossing epoch).sendInput
        (.activateDisplayAt display position translate))
  | markHandover (display : DisplayId) (handover : Handover F) (now : Duration)
      (brought : call = .acceptHandover handover now)
      (asked : view.phase = .asking display false false) :
      Move call view { view with phase := .asking display false true }
  | sending (display : DisplayId) (handedOver : Bool) (owned sending : FloorSnapshot)
      (alive : view.Alive) (asked : view.phase = .asking display true handedOver)
      (answered : view.Answered display) (holds : view.claim = some owned)
      (swap : (FloorOp.transition owned .sending).run view.floor = .ok sending) :
      Move call view (view.swapClaim sending)
  | reach (display : DisplayId) (crossing handedOver : Bool)
      (alive : view.Alive) (asked : view.phase = .asking display crossing handedOver)
      (answered : view.Answered display) : Move call view { view with reached := true }
  | enter (display : DisplayId) (handedOver : Bool) (alive : view.Alive)
      (asked : view.phase = .asking display true handedOver) (answered : view.Answered display) :
      Move call view ({ view with
        phase := .entering ⟨view.requests⟩ none, requests := view.requests + 1 }.ask
        (.activateRemote ⟨view.requests⟩))
  | routeRemote (request : RouteRequest) (revision : Nat)
      (alive : view.Alive) (entering : view.phase = .entering request (some revision))
      (brought : call.event? = some (.routeChanged true revision)) :
      Move call view { view with route := { remote := true, revision, owned := true } }
  | land (alive : view.Alive) (landing : view.Landing) :
      Move call view { view with phase := .away }
  -- coming home
  | returning (owned returning : FloorSnapshot) (alive : view.Alive)
      (away : view.phase = .away ∨ (∃ request ticket, view.phase = .entering request ticket) ∨
        ∃ display handedOver, view.phase = .asking display false handedOver)
      (holds : view.claim = some owned)
      (swap : (FloorOp.transition owned .returning).run view.floor = .ok returning) :
      Move call view (view.swapClaim returning)
  | comeBack (onward : Bool) (alive : view.Alive)
      (away : view.phase = .away ∨ ∃ request ticket, view.phase = .entering request ticket)
      (still : view.waiting = none) :
      Move call view ({ view with phase := .releasing onward }.sendInput .releaseAll)
  | declined (display : DisplayId) (handedOver : Bool)
      (alive : view.Alive) (free : view.heldSince = none)
      (asked : view.phase = .asking display true handedOver) (declined : view.Declined display) :
      Move call view { view.clearRemote with phase := .home, takeBack := false }
  | forget (display : DisplayId) (handedOver : Bool)
      (alive : view.Alive) (free : view.heldSince = none)
      (asked : view.phase = .asking display false handedOver) (declined : view.Declined display) :
      Move call view { view.clearRemote with takeBack := false }
  | declinedHop (display : DisplayId) (handedOver : Bool) (alive : view.Alive)
      (asked : view.phase = .asking display false handedOver) (declined : view.Declined display)
      (still : view.waiting = none) :
      Move call view ({ view with phase := .releasing false }.sendInput .releaseAll)
  | hold (now : Duration) (display : DisplayId) (position : Point F)
      (alive : view.Alive) (free : view.heldSince = none) (still : view.waiting = none) :
      Move call view (view.retreat now display position)
  | resend (alive : view.Alive) (held : view.heldSince.isSome = true)
      (settled : view.pending = 0) (still : view.waiting = none) :
      Move call view
        ({ view with pending := saturatingSucc u32Max view.pending }.sendInput .releaseAll)
  | released (frame : Frame F) (display : DisplayId) (position : Point F)
      (alive : view.Alive) (free : view.heldSince = none)
      (releasing : view.phase = .releasing false) (brought : call.frame? = some frame)
      (isAck : frame.message = .releaseAck) (inOrder : view.InOrder frame) :
      Move call view (if view.route.remote then (view.accept frame).clearRemote.restore display position
        else { (view.accept frame).clearRemote with phase := .home })
  | handOn (frame : Frame F) (passed : Handover F) (claim : FloorSnapshot)
      (alive : view.Alive) (free : view.heldSince = none)
      (releasing : view.phase = .releasing true) (brought : call.frame? = some frame)
      (isAck : frame.message = .releaseAck) (inOrder : view.InOrder frame)
      (holds : view.claim = some claim) (passes : passed.claim = claim)
      (revision : passed.routeRevision = view.route.revision) :
      Move call view { (view.accept frame).clearRemote with
        claim := none, handover := some passed, route := { view.route with owned := false }
        phase := .home }
  | arriveHome (request : RouteRequest) (revision : Nat)
      (alive : view.Alive) (leaving : view.phase = .leaving request (some revision))
      (brought : call.event? = some (.routeChanged false revision)) :
      Move call view { view with
        phase := .home, route := { remote := false, revision, owned := true } }
  -- the route and the floor
  | bindRemote (request : RouteRequest) (ticket : Nat) (now : Duration)
      (alive : view.Alive) (brought : call = .bindCaptureRoute request ticket now)
      (entering : view.phase = .entering request none) (newer : view.route.revision < ticket) :
      Move call view { view with phase := .entering request (some ticket) }
  | bindLocal (request : RouteRequest) (ticket : Nat) (now : Duration)
      (alive : view.Alive) (brought : call = .bindCaptureRoute request ticket now)
      (leaving : view.phase = .leaving request none) (newer : view.route.revision < ticket) :
      Move call view { view with phase := .leaving request (some ticket) }
  | foreign (remote : Bool) (revision : Nat) (now : Duration)
      (alive : view.Alive) (brought : call = .observeForeignRoute remote revision now)
      (home : view.phase = .home) (newer : view.route.revision < revision) :
      Move call view { view with route := { remote, revision, owned := false } }
  | seed (keys : List HidUsage) (buttons : List MouseButton) (remote : Bool)
      (revision : Nat) (captureReady : Bool) (alive : view.Alive)
      (brought : call = .seedFromGroup keys buttons (remote, revision) captureReady)
      (home : view.phase = .home) (unclaimed : view.claim = none)
      (newer : view.route.revision ≤ revision) :
      Move call view { view with
        keys := fun index =>
          { view.keys index with physical := keys.any fun usage => usage.code == index }
        buttons := fun button =>
          { view.buttons button with physical := buttons.contains button }
        route := { remote, revision, owned := false } }
  | free (owned next : FloorSnapshot) (operation : FloorOp)
      (alive : view.Alive) (home : view.phase = .home)
      (settled : view.pending = 0 ∨ view.heldSince = none) (holds : view.claim = some owned)
      (named : operation = .transition owned .free ∨
        operation = .release .outbound owned.generation)
      (swap : operation.run view.floor = .ok next) :
      Move call view ({ view with floor := next, claim := none }.record (.swapped view.floor next))
  | lose (alive : view.Alive) (home : view.phase = .home)
      (settled : view.pending = 0 ∨ view.heldSince = none) :
      Move call view { view with claim := none }
  -- failing
  | fail (drifted : View F) (reason : SourceFailure) (display : DisplayId)
      (position : Point F) (alive : view.Alive) (drift : view.Drift drifted)
      (fault : Fault call view reason) :
      Move call view (drifted.fail reason display position)
  /-- A hold whose restore found no request number or no room. -/
  | holdFail (drifted : View F) (reason : SourceFailure) (display : DisplayId)
      (position : Point F) (alive : view.Alive) (free : view.heldSince = none)
      (still : view.waiting = none) (drift : view.holdBarrier.Drift drifted)
      (exhausted : reason = .routeRequestExhausted ∨ reason = .effectCapacityExceeded) :
      Move call view (drifted.fail reason display position)
  /-- An activation that found no room: nothing of it is asked for. -/
  | overflow (left : View F) (alive : view.Alive) (full : view.hasRoom = false)
      (failure : left.failure = some .effectCapacityExceeded) (trace : left.trace = view.trace)
      (inputEpoch : view.inputEpoch.get ≤ left.inputEpoch.get)
      (baseEpoch : left.baseEpoch = view.baseEpoch) (slot : left.slot = view.slot)
      (claim : left.claim = view.claim) (floor : left.floor = view.floor)
      (handover : left.handover = view.handover) (route : left.route = view.route) :
      Move call view left
  | latch (error : HealthError) (alive : view.Alive) (held : view.heldSince.isSome = true) :
      Move call view { view with failure := some (.peerHealth error) }
  | afterFail (left : View F) (failed : view.failure.isSome = true) (stays : view.Stays left) :
      Move call view left

abbrev Moves {F : Type} (call : SourceCall F) := Relation.ReflTransGen (Move (F := F) call)

end Monhop.Transport
