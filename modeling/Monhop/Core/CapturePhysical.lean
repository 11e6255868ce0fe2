import Monhop.Core.Capture
import Monhop.Core.TakeBack
import Monhop.Library.Mask

/-! # The capture callback's held state

What the hook thread keeps about every key and button: whether it is physically down,
whether local applications and the queue saw it go down, and whether its press was
suppressed or withheld.  `PhysicalCapture.processWithTravel` decides for each physical event
whether it is queued for the session and whether it is withheld from local applications.

The shared take-back gate is the field `takeBack`: the callback's own calls change it
here, other threads change it between two calls.  The two fixed-size tables are functions
of the usage code and the button.
-/

namespace Monhop.Core

structure Press where
  physical : Bool
  localDown : Bool
  suppressedDown : Bool
  initiallyHeld : Bool
  queuedDown : Bool
  locallyInjected : Bool
  /-- Pressed while withholding: never delivered or queued, and so are its repeats and
  its release. -/
  withheld : Bool

namespace Press

def default : Press :=
  { physical := false, localDown := false, suppressedDown := false, initiallyHeld := false
    queuedDown := false, locallyInjected := false, withheld := false }

/-- A press held since capture started. -/
def initial : Press :=
  { default with physical := true, localDown := true, initiallyHeld := true }

end Press

variable (state previous : Press)

/-- Drops a press made while withholding and quarantines its repeats and release.  `none`
defers to the normal ledger; a release local applications are owed is never withheld. -/
def withholdPress (pressed withholding : Bool) : Option Bool × Press :=
  if previous.withheld then
    if !pressed then (some (!previous.localDown), .default) else (some true, state)
  else if withholding && pressed && !previous.physical then
    (some true, { state with physical := true, withheld := true })
  else (none, state)

def updatePress (pressed suppress : Bool) : Bool × Press :=
  if !pressed then (previous.suppressedDown && !previous.localDown, .default)
  else
    let state := { state with physical := true }
    if previous.suppressedDown then (true, state)
    else if suppress && !previous.initiallyHeld then
      (true, if !previous.localDown then { state with suppressedDown := true } else state)
    else (false, { state with localDown := true })

/-- The verdict on an event the withholding let through, and its press once it is known
whether the event was queued. -/
def settlePress (pressed suppress queued withholding : Bool) : Bool × Press :=
  let (suppress, state) := updatePress state previous pressed suppress
  (suppress || (withholding && pressed),
    if pressed && queued then { state with queuedDown := true } else state)

/-- Relative motion summed toward a take-back within one receiving generation. -/
structure MotionWindow (F : Type) where
  /-- 0 marks an empty window; floor generations start at 1. -/
  generation : Nat
  start : Duration
  dx : F
  dy : F

/-- Relative motion accumulates for this long from a window's first sample. -/
def takeBackWindow : Duration := .fromMillis 100

/-- Motion whose vector sum reaches this many units within the window takes back. -/
def takeBackMotion {F : Type} [Scalar F] : F := Scalar.ofInt 6

namespace MotionWindow

variable {F : Type} [Scalar F]

def default : MotionWindow F := { generation := 0, start := 0, dx := 0, dy := 0 }

def reachesThreshold (window : MotionWindow F) (generation : Nat) (now : Duration) (dx dy : F) :
    Bool × MotionWindow F :=
  let window :=
    if window.generation ≠ generation ∨ now - window.start ≥ takeBackWindow then
      { generation, start := now, dx := 0, dy := 0 }
    else window
  let window := { window with dx := window.dx + dx, dy := window.dy + dy }
  (Scalar.le (takeBackMotion * takeBackMotion) (window.dx * window.dx + window.dy * window.dy),
    window)

end MotionWindow

inductive LocalTransfer where
  | key (usage : HidUsage) (pressed : Bool)
  | button (button : MouseButton) (pressed : Bool)
  deriving DecidableEq

/-- A key or button, where the source names one held since capture started. -/
inductive HeldInput where
  | key (usage : HidUsage)
  | button (button : MouseButton)
  deriving DecidableEq

/-- A key the tables have a slot for, or a button. -/
def HeldInput.isKnown : HeldInput → Bool
  | .key usage => usage.isValid
  | .button _ => true

/-- Escape, the last key of the local emergency chord. -/
def ESCAPE : Nat := 0x29

/-- Left Ctrl, right Ctrl and Escape held together. -/
def ESCAPE_CHORD : List Nat := [0xe0, 0xe4, ESCAPE]

/-- How long the chord is held before it stops capture. -/
def emergencyHoldDuration : Duration := .fromSecs 2

structure PhysicalCapture (F : Type) where
  keys : Nat → Press
  buttons : MouseButton → Press
  lastTime : Duration
  chordSince : Option Duration
  reservedEscape : Bool
  interceptsEscape : Bool
  routingRevision : Nat
  takeBack : Option TakeBackGate
  motion : MotionWindow F
  /-- Hook-measured pointer travel, apart from `motion`. -/
  travel : MotionWindow F
  withholdingSince : Option Duration

namespace PhysicalCapture

variable {F : Type}

section Setup
variable [Scalar F]

def new (now : Duration) : PhysicalCapture F :=
  { keys := fun _ => .default, buttons := fun _ => .default, lastTime := now, chordSince := none
    reservedEscape := false, interceptsEscape := true, routingRevision := 0, takeBack := none
    motion := .default, travel := .default, withholdingSince := none }

end Setup

variable (capture : PhysicalCapture F)

def setRoutingRevision (revision : Nat) : PhysicalCapture F :=
  { capture with routingRevision := revision }

def press : HeldInput → Press
  | .key usage => capture.keys usage.code
  | .button button => capture.buttons button

def setKey (index : Nat) (press : Press) : PhysicalCapture F :=
  { capture with keys := Function.update capture.keys index press }

def setButton (button : MouseButton) (press : Press) : PhysicalCapture F :=
  { capture with buttons := Function.update capture.buttons button press }

def setPress (held : HeldInput) (press : Press) : PhysicalCapture F :=
  match held with
  | .key usage => capture.setKey usage.code press
  | .button mouse => capture.setButton mouse press

/-- Every button the predicate selects, in canonical slot order. -/
def buttonTransfers (pressed : Bool) (select : Press → Bool) : List LocalTransfer :=
  (MouseButton.ALL.filter fun button => select (capture.buttons button)).map (.button · pressed)

/-- The injections that hand held input to or from the local applications. -/
def handoffPlan (remote : Bool) : List LocalTransfer :=
  let keys := (List.range 256).filter fun index =>
    let state := capture.keys index
    !(!state.physical || state.initiallyHeld || state.withheld || !(HidUsage.mk index).isValid) &&
      (remote && state.localDown || !remote && (HidUsage.mk index).isModifier && !state.localDown)
  keys.map (fun index => .key ⟨index⟩ (!remote)) ++
    capture.buttonTransfers (!remote) fun state =>
      state.physical && !state.initiallyHeld && !state.withheld && state.localDown == remote

def releaseInjectedPlan : List LocalTransfer :=
  let keys := (List.range 256).filter fun index =>
    (capture.keys index).locallyInjected && (capture.keys index).localDown
  keys.map (fun index => .key ⟨index⟩ false) ++
    capture.buttonTransfers false fun state => state.locallyInjected && state.localDown

/-- A press after an injection for it succeeded. -/
def transferred (pressed : Bool) : Press :=
  { state with
    localDown := pressed
    locallyInjected := pressed
    suppressedDown := state.physical && !pressed }

/-- Called only for native operations that succeeded. -/
def applyTransferSuccess : LocalTransfer → PhysicalCapture F
  | .key usage pressed =>
    if usage.isValid then
      capture.setKey usage.code (transferred (capture.keys usage.code) pressed)
    else capture
  | .button button pressed =>
    capture.setButton button (transferred (capture.buttons button) pressed)

/-- Startup snapshots cannot establish physical provenance: the release is waited for. -/
def seedLocallyHeld (held : HeldInput) : PhysicalCapture F :=
  if held.isKnown then capture.setPress held .initial else capture

def anyPress (predicate : Press → Bool) : Bool :=
  (List.range 256).any (fun index => predicate (capture.keys index)) ||
    MouseButton.ALL.any fun button => predicate (capture.buttons button)

def isReadyForSuppression : Bool :=
  !capture.anyPress fun press => press.initiallyHeld

def chordComplete : Bool :=
  ESCAPE_CHORD.all fun index => (capture.keys index).physical

/-- Drops a press held since capture start that the system now reads as up although no
release reached the hook.  The result says whether it was still refusing. -/
def forgetInitiallyHeld (held : HeldInput) : Bool × PhysicalCapture F :=
  if !held.isKnown || !(capture.press held).initiallyHeld then (false, capture)
  else
    let capture := capture.setPress held .default
    -- a forgotten key is up, so a chord it completed is no longer held
    let chordSince := if !capture.chordComplete then none else capture.chordSince
    let reservedEscape := if held = .key ⟨ESCAPE⟩ then false else capture.reservedEscape
    (true, { capture with chordSince, reservedEscape })

def tick (now : Duration) (channel : CaptureChannel F) : PhysicalCapture F × CaptureChannel F :=
  if now < capture.lastTime then (capture, channel.stop .clockRegression)
  else
    let capture := { capture with lastTime := now }
    match capture.chordSince with
    | some start =>
      (capture, if now - start ≥ emergencyHoldDuration then channel.stop .emergencyEscape else channel)
    | none => (capture, channel)

/-- Withheld and initially held modifiers were never queued, so later events must not
claim them. -/
def modifiers : ModifierState :=
  ⟨Library.mask 8 fun index =>
    let key := capture.keys (0xe0 + index)
    key.physical && !key.withheld && !key.initiallyHeld⟩

variable [Scalar F]

/-- Whether an event is deliberate input, and the motion windows after looking. -/
def deliberate (event : CaptureEvent F) (travel : Option (F × F))
    (generation : Nat) (now : Duration) : Bool × PhysicalCapture F :=
  if !event.isValid then (false, capture)
  else
    match event with
    | .key .. | .button .. | .scroll .. | .logicalScroll .. | .systemGesture .. => (true, capture)
    -- a phase boundary without a change may end a local glide
    | .gesture kind _ value => (kind.isDiscrete || !Scalar.same value 0, capture)
    | .relativeMotion dx dy _ =>
      let (reached, motion) :=
        capture.motion.reachesThreshold generation now (Scalar.ofInt dx) (Scalar.ofInt dy)
      (reached, { capture with motion })
    | .logicalRelativeMotion dx dy =>
      let (reached, motion) := capture.motion.reachesThreshold generation now dx dy
      (reached, { capture with motion })
    -- positions alone never take back: the injected cursor moves them
    | .absoluteMotion .. | .logicalAbsoluteMotion .. =>
      match travel with
      | none => (false, capture)
      | some (dx, dy) =>
        if Scalar.isFinite dx && Scalar.isFinite dy then
          let (reached, travel) := capture.travel.reachesThreshold generation now dx dy
          (reached, { capture with travel })
        else (false, capture)
    | .routeChanged .. => (false, capture)

/-- Fires take-back on deliberate input while receiving; returns the floor generation to
stamp. -/
def observeTakeBack (event : CaptureEvent F)
    (travel : Option (F × F)) (now : Duration) (stopped : Bool) : Nat × PhysicalCapture F :=
  match capture.takeBack with
  | none => (0, capture)
  | some gate =>
    if gate.floor.state ≠ .receiving then
      (gate.floor.generation, { capture with motion := .default, travel := .default })
    else
      let (fires, capture) := capture.deliberate event travel gate.floor.generation now
      if !fires then (gate.floor.generation, capture)
      else
        let (outcome, triggered) := gate.trigger
        let withholdingSince :=
          if outcome = .triggered true ∧ !stopped then some now else capture.withholdingSince
        (gate.floor.generation,
          { capture with
            motion := .default, travel := .default, takeBack := some triggered, withholdingSince })

/-- Withholding ends once injected input is released, the lease passes, or capture
stops. -/
def withholding (now : Duration) (stopped : Bool) :
    Bool × PhysicalCapture F :=
  match capture.withholdingSince with
  | none => (false, capture)
  | some since =>
    let held := match capture.takeBack with
      | some gate => gate.injectedHeld
      | none => false
    if held && !stopped && decide (now - since < maxSuppressionTtl) then (true, capture)
    else (false, { capture with withholdingSince := none })

/-- The push of a record, when it should be queued at all. -/
def pushWhen (wanted : Bool) (record : CapturedEvent F) (channel : CaptureChannel F) :
    Bool × CaptureChannel F :=
  if wanted && !channel.isStopped then channel.tryPushTagged record else (false, channel)

/-- The chord's bookkeeping once the key's own flag is set. -/
def observeChord (usage : HidUsage) (pressed : Bool) (now : Duration) : PhysicalCapture F :=
  let complete := capture.chordComplete
  let chordSince := if complete then capture.chordSince <|> some now else none
  let reservedEscape := complete || capture.reservedEscape
  { capture with
    chordSince
    reservedEscape := if usage.code == ESCAPE && !pressed then false else reservedEscape }

/-- The local emergency chord keeps Escape even before its hold expires. -/
def reserved (usage : HidUsage) : Bool :=
  capture.interceptsEscape && usage.code == ESCAPE &&
    (capture.chordComplete || capture.reservedEscape)

/-- A press that completes the chord, or falls while it is complete, is not queued. -/
def chordRepeat (pressed : Bool) : Bool :=
  capture.interceptsEscape && capture.chordComplete && pressed

/-- A valid key.  `tagged` stamps the record that is queued. -/
def processKey (usage : HidUsage) (pressed remote withholding : Bool)
    (tagged : CaptureEvent F → CapturedEvent F) (now : Duration) (channel : CaptureChannel F) :
    Bool × PhysicalCapture F × CaptureChannel F :=
  let previous := capture.keys usage.code
  let moved := capture.setKey usage.code { previous with physical := pressed }
  let reserved := moved.reserved usage
  let chordRepeat := moved.chordRepeat pressed
  let capture := moved.observeChord usage pressed now
  match withholdPress (capture.keys usage.code) previous pressed withholding with
  | (some suppress, state) => (suppress, capture.setKey usage.code state, channel)
  | (none, state) =>
    let shouldQueue := !previous.initiallyHeld &&
      if pressed then !reserved && !chordRepeat else previous.queuedDown
    let canonical := .key usage pressed (pressed && previous.physical) capture.modifiers
    let (queued, channel) := pushWhen shouldQueue (tagged canonical) channel
    let suppress := (remote && queued) || (reserved && !channel.isStopped)
    let (suppress, state) := settlePress state previous pressed suppress queued withholding
    (suppress, capture.setKey usage.code state, channel)

def processButton (button : MouseButton)
    (pressed remote withholding : Bool) (record : CapturedEvent F) (channel : CaptureChannel F) :
    Bool × PhysicalCapture F × CaptureChannel F :=
  let previous := capture.buttons button
  match withholdPress previous previous pressed withholding with
  | (some suppress, state) => (suppress, capture.setButton button state, channel)
  | (none, state) =>
    let (queued, channel) :=
      pushWhen (!previous.initiallyHeld && (pressed || previous.queuedDown)) record channel
    let (suppress, state) :=
      settlePress state previous pressed (remote && queued) queued withholding
    (suppress, capture.setButton button state, channel)

/-- What an event's own processing starts from: the clock, the take-back and the
withholding have been looked at. -/
structure Prepared (F : Type) where
  capture : PhysicalCapture F
  channel : CaptureChannel F
  remote : Bool
  floorGeneration : Nat
  withholding : Bool

def prepare (event : CaptureEvent F) (travel : Option (F × F))
    (remote : Bool) (now : Duration) (channel : CaptureChannel F) : Prepared F :=
  let (capture, channel) := capture.tick now channel
  let remote := remote && capture.isReadyForSuppression && !channel.isStopped
  let (floorGeneration, capture) := capture.observeTakeBack event travel now channel.isStopped
  let (withholding, capture) := capture.withholding now channel.isStopped
  { capture, channel, remote, floorGeneration, withholding }

def Prepared.tagged (ready : Prepared F) (event : CaptureEvent F) : CapturedEvent F :=
  { event
    routingRevision := ready.capture.routingRevision
    remote := ready.remote
    floorGeneration := ready.floorGeneration }

/-- Whether this event must be withheld from local applications.  `travel` is a pointer
position minus the cursor position just before it. -/
def processWithTravel (event : CaptureEvent F)
    (travel : Option (F × F)) (remote : Bool) (now : Duration) (channel : CaptureChannel F) :
    Bool × PhysicalCapture F × CaptureChannel F :=
  let ready := capture.prepare event travel remote now channel
  match event with
  | .key usage pressed _ _ =>
    if !usage.isValid then (false, ready.capture, ready.channel.stop .invalidInput)
    else ready.capture.processKey usage pressed ready.remote ready.withholding ready.tagged now
      ready.channel
  | .button button pressed _ =>
    ready.capture.processButton button pressed ready.remote ready.withholding (ready.tagged event)
      ready.channel
  | _ =>
    let (queued, channel) := pushWhen true (ready.tagged event) ready.channel
    ((ready.remote && queued && !channel.isStopped) || ready.withholding, ready.capture, channel)

end PhysicalCapture
end Monhop.Core
