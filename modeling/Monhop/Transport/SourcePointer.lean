import Monhop.Core.Capture
import Monhop.Protocol.Codec
import Monhop.Transport.Source

/-! # The pointer at its seams

Where the pointer is, which linked edge it rests on, how far it has pushed through one, and
what a captured motion asks for: a local display, a crossing to the peer, a hop between the
peer's displays, a return or a handover.  A seam to another computer takes a push; a
boundary between displays of one computer does not.
-/

namespace Monhop.Transport

open Monhop.Core Protocol

/-- A push that pauses this long starts over. -/
def pushThroughReset : Duration := .fromMillis 100

/-- Motion this long ago weighs `1/e` as much in a push's recent heading. -/
def pushThroughRecent : Duration := .fromMillis 20

section Geometry
variable {F : Type} [Scalar F]

/-- Logical units the pointer must move off the edge a crossing entered through. -/
def entryGuardDistance : F := Scalar.ofInt 24

/-- Outward travel that carries the pointer over a linked edge. -/
def pushThroughDistance : F := Scalar.ofInt 250

/-- The outward part of a pushing heading is this many times its sideways part. -/
def pushThroughDirectness : F := Scalar.ofInt 2

/-- Whole seconds and nanoseconds, each converted on its own. -/
def asSecs (duration : Duration) : F :=
  Scalar.ofInt (duration / 1000000000 : Nat) +
    Scalar.ofInt (duration % 1000000000 : Nat) / Scalar.ofInt 1000000000

def validPoint (point : Point F) : Bool :=
  point.isFinite && Scalar.le (Scalar.abs point.x) maxLogicalOriginAbs &&
    Scalar.le (Scalar.abs point.y) maxLogicalOriginAbs

def NormalizedInput.isValid : NormalizedInput F → Bool
  | .key usage _ _ _ => usage.isValid
  | .button _ _ _ => true
  | .absoluteMotion position => validPoint position
  | .relativeMotion delta gain => validPoint delta && Scalar.isFinite gain && Scalar.le 0 gain
  | .scroll horizontal vertical =>
    Scalar.isFinite horizontal && Scalar.isFinite vertical &&
      Scalar.le (Scalar.abs horizontal) (Scalar.ofInt 1000000) &&
      Scalar.le (Scalar.abs vertical) (Scalar.ofInt 1000000)
  | .gesture made => made.validate.isOk
  | .systemGesture _ => true
  | .routeChanged _ revision => revision != 0

/-- The motion along an edge's outward normal; positive leaves the display through it. -/
def outward (edge : Edge) (delta : Point F) : F :=
  match edge with
  | .left => -delta.x
  | .right => delta.x
  | .top => -delta.y
  | .bottom => delta.y

/-- Outward, and straight enough to be no slide or corner throw. -/
def pushes (edge : Edge) (heading : Point F) : Bool :=
  let sideways := match edge with
    | .left | .right => heading.y
    | .top | .bottom => heading.x
  let out := outward edge heading
  Scalar.lt 0 out && Scalar.le (pushThroughDirectness * Scalar.abs sideways) out

/-- One physical pixel of a display in its logical units. -/
def physicalStep (display : Display F) : Point F :=
  { x := display.bounds.size.width / Scalar.ofInt display.nativeSize.width
    y := display.bounds.size.height / Scalar.ofInt display.nativeSize.height }

def atPhysicalEdge (display : Display F) (point : Point F) (edge : Edge) : Bool :=
  let bounds := display.bounds
  let step := physicalStep display
  match edge with
  | .left => Scalar.le point.x (bounds.origin.x + step.x)
  | .right => Scalar.le (bounds.maxX - step.x) point.x
  | .top => Scalar.le point.y (bounds.origin.y + step.y)
  | .bottom => Scalar.le (bounds.maxY - step.y) point.y

variable (bounds : LogicalRect F)

/-- Perpendicular distance from an edge's line into the display; negative past it. -/
def distanceInside (point : Point F) (edge : Edge) : F :=
  match edge with
  | .left => point.x - bounds.origin.x
  | .right => bounds.maxX - point.x
  | .top => point.y - bounds.origin.y
  | .bottom => bounds.maxY - point.y

def depthPast (point : Point F) (edge : Edge) : F :=
  Scalar.max (-(distanceInside bounds point edge)) 0

/-- How far a point lies past an edge's line, as motion out through it. -/
def pastEdge (point : Point F) (edge : Edge) : Point F :=
  let depth := depthPast bounds point edge
  match edge with
  | .left => { x := -depth, y := 0 }
  | .right => { x := depth, y := 0 }
  | .top => { x := 0, y := -depth }
  | .bottom => { x := 0, y := depth }

/-- Half the display's depth when that is shorter. -/
def releaseDistance (edge : Edge) : F :=
  let depth := match edge with
    | .left | .right => bounds.size.width
    | .top | .bottom => bounds.size.height
  Scalar.min entryGuardDistance (depth / Scalar.ofInt 2)

def projectPastEdge (anchor : Point F) (edge : Edge) (hysteresis : F) : Point F :=
  let beyond := hysteresis + Scalar.ofInt 1
  match edge with
  | .left => { x := bounds.origin.x - beyond, y := anchor.y }
  | .right => { x := bounds.maxX + beyond, y := anchor.y }
  | .top => { x := anchor.x, y := bounds.origin.y - beyond }
  | .bottom => { x := anchor.x, y := bounds.maxY + beyond }

namespace RecentMotion

def default : RecentMotion F := { sum := .origin, stamp := 0 }

def add (recent : RecentMotion F) (delta : Point F) (now : Duration) : RecentMotion F :=
  let age : F := asSecs (now - recent.stamp)
  let fade := Scalar.exp (-age / asSecs pushThroughRecent)
  { sum := (recent.sum.scaled fade).moved delta, stamp := now }

end RecentMotion

/-! ## Pushes -/

variable (push : EdgePush F)

namespace EdgePush

def new (display : DisplayId) (edge : Edge) : EdgePush F :=
  { display, edge, run := none, travel := 0, reach := 0, sample := none, heading := .default }

/-- Travel counts from here again. -/
def rearm : EdgePush F := { push with travel := 0, reach := 0 }

/-- Pushing motion extends the run, or starts it over after a pause. -/
def movedOut (now : Duration) : EdgePush F :=
  match push.run with
  | some (started, last) =>
    if now - last < pushThroughReset then { push with run := some (started, now) }
    else { push.rearm with run := some (now, now) }
  | none => { push.rearm with run := some (now, now) }

/-- An absolute sample and its relative half measure the same step, so the larger counts. -/
def counted : F := Scalar.max push.travel push.reach

def through : Bool := Scalar.le pushThroughDistance push.counted

/-- How far past the full push a record adding `step` carried it. -/
def beyond (step : F) : F :=
  Scalar.min (push.counted - pushThroughDistance) step

end EdgePush

namespace EdgePushes

variable (kept : EdgePushes F)

section

omit [Scalar F]

def list : List (EdgePush F) := kept.horizontal.toList ++ kept.vertical.toList

def onAxis : Edge → Option (EdgePush F)
  | .left | .right => kept.horizontal
  | .top | .bottom => kept.vertical

def current (display : DisplayId) (edge : Edge) : Option (EdgePush F) :=
  (kept.onAxis edge).filter fun push => push.display == display && push.edge == edge

def keep : EdgePushes F :=
  match push.edge with
  | .left | .right => { kept with horizontal := some push }
  | .top | .bottom => { kept with vertical := some push }

def endWhere (ends : EdgePush F → Bool) : EdgePushes F :=
  { horizontal := kept.horizontal.filter fun push => !ends push
    vertical := kept.vertical.filter fun push => !ends push }

end

def rearm : EdgePushes F :=
  { horizontal := kept.horizontal.map EdgePush.rearm, vertical := kept.vertical.map EdgePush.rearm }

end EdgePushes

/-- One relative motion record: the mouse's own units, the logical units each moves on
another computer, and the pointer speed it moves there at. -/
structure Relative (F : Type) where
  delta : Point F
  gain : F
  speed : F

variable (source : SourceController F)

namespace SourceController

/-! ## Displays -/

section

omit [Scalar F]

def isDisplayOf (machine : DeviceId) (id : DisplayId) : Bool :=
  match source.topology.display id with
  | .ok display => display.machine == machine
  | .error _ => false

def isHomeDisplay (id : DisplayId) : Bool :=
  source.isDisplayOf source.home.machine id

def isPeerDisplay (id : DisplayId) : Bool :=
  source.peer.any fun peer => source.isDisplayOf peer id

/-- This computer's or its own peer's: every display of a pairwise topology. -/
def isOurs (id : DisplayId) : Bool :=
  source.isHomeDisplay id || source.isPeerDisplay id

/-- A third peer's display whose controller can take the pointer over. -/
def mayHandOverTo (id : DisplayId) : Bool :=
  match source.topology.display id with
  | .ok display =>
    display.machine != source.home.machine && some display.machine != source.peer &&
      source.reachable.contains display.machine
  | .error _ => false

def platformOf (id : DisplayId) : Option Platform :=
  match source.topology.machineForDisplay id with
  | .ok machine => some machine.platform
  | .error _ => none

/-- The keyboard switch, asked only of a computer of the other platform. -/
def asksTranslation (controlAsCommand : Bool) (id : DisplayId) : Bool :=
  let target := source.platformOf id
  controlAsCommand && target.isSome && target != source.platformOf source.home.display

end

/-- A display's units per logical unit; 1 for a display the topology does not know. -/
def logicalScale (id : DisplayId) : F :=
  match source.topology.display id with
  | .error _ => Scalar.ofInt 1
  | .ok display =>
    match source.platformOf id with
    | some .windows => display.scaleFactor
    | some .macOs | none => Scalar.ofInt 1

/-- Units the pointer moves on a display per unit the controlling mouse moved. -/
def travelOn (id : DisplayId) (gain speed : F) : F :=
  if source.isHomeDisplay id then Scalar.ofInt 1 else gain * source.logicalScale id * speed

/-- The last physical pixel is the furthest position the display's own system can restore. -/
def insideDisplay (id : DisplayId) (point : Point F) : Option (Point F) :=
  match source.topology.display id with
  | .error _ => none
  | .ok display =>
    let bounds := display.bounds
    let step := physicalStep display
    some { x := Scalar.clamp point.x bounds.origin.x (bounds.maxX - step.x)
           y := Scalar.clamp point.y bounds.origin.y (bounds.maxY - step.y) }

/-- A point in the other computer's own coordinates, inside the display as its receiver
checks it. -/
def peerPoint (id : DisplayId) (point : Point F) : Point F :=
  let offset := source.peerOffset
  let translated := { x := point.x - offset.x, y := point.y - offset.y }
  match source.topology.display id with
  | .error _ => translated
  | .ok display =>
    let bounds := display.bounds
    { origin := { x := bounds.origin.x - offset.x, y := bounds.origin.y - offset.y }
      size := bounds.size : LogicalRect F }.clampHalfOpen translated

/-- Resolves only in-use displays of this machine; overlapping ones are rejected. -/
def localTargetAt (point : Point F) : Except Unit (Option PointerTarget) :=
  let found := source.topology.displays.filter fun display =>
    display.machine == source.home.machine && display.inUse &&
      display.bounds.containsHalfOpen point
  match found with
  | [] => .ok none
  | [display] => .ok (some { machine := source.home.machine, display := display.id })
  | _ => .error ()

/-! ## Seams -/

/-- Whether a position is still within the release distance of an edge line. -/
def nearEdge (id : DisplayId) (position : Point F) (edge : Edge) : Bool :=
  match source.topology.display id with
  | .ok display =>
    Scalar.lt (Scalar.abs (distanceInside display.bounds position edge))
      (releaseDistance display.bounds edge)
  | .error _ => false

/-- The entry edge a position may not cross yet.  The guard is dropped for good once the
pointer is on another display or has been its release distance from the edge line. -/
def guardedEntryEdge (id : DisplayId) (position : Point F) : Option Edge × SourceController F :=
  match source.entryGuard with
  | none => (none, source)
  | some (guarded, edge) =>
    if guarded == id && source.nearEdge id position edge then (some edge, source)
    else (none, { source with entryGuard := none })

/-- Stops a point on a guarded edge line. -/
def heldAtEntryEdge (id : DisplayId) (point : Point F) (guarded : Option Edge) : Point F :=
  match guarded, source.topology.display id with
  | some edge, .ok display =>
    let bounds := display.bounds
    match edge with
    | .left => { point with x := Scalar.max point.x bounds.origin.x }
    | .right => { point with x := Scalar.min point.x bounds.maxX }
    | .top => { point with y := Scalar.max point.y bounds.origin.y }
    | .bottom => { point with y := Scalar.min point.y bounds.maxY }
  | _, _ => point

def edgeOrder : List Edge := [.right, .left, .bottom, .top]

/-- The largest dead zone of an edge's links. -/
def edgeHysteresis (id : DisplayId) (edge : Edge) : Option F :=
  let links := source.topology.links.filter fun link =>
    link.fromDisplay == id && link.fromEdge == edge
  links.foldl
    (fun largest link =>
      some (match largest with
        | none => link.hysteresis
        | some previous => Scalar.max previous link.hysteresis))
    none

/-- The transition one linked edge gives at an anchor. -/
def edgeTransition (display : Display F) (anchor : Point F)
    (edge : Edge) : Except Unit (Option (EdgeTransition F)) :=
  match source.edgeHysteresis display.id edge with
  | none => .ok none
  | some hysteresis =>
    let projected := projectPastEdge display.bounds anchor edge hysteresis
    match source.topology.transitionForMotion display.id anchor projected with
    | .error _ => .error ()
    | .ok transition => .ok transition

/-- The first edge whose transition is accepted. -/
def firstLinked (source : SourceController F) (display : Display F) (anchor : Point F)
    (toward : Option (Point F)) (guarded : Option Edge) (onto : EdgeTransition F → Bool) :
    List Edge → Except Unit (Option (Edge × EdgeTransition F))
  | [] => .ok none
  | edge :: rest =>
    if guarded == some edge || toward.any (fun delta => Scalar.le (outward edge delta) 0) ||
        !atPhysicalEdge display anchor edge then
      source.firstLinked display anchor toward guarded onto rest
    else
      match source.edgeTransition display anchor edge with
      | .error () => .error ()
      | .ok (some transition) =>
        if onto transition then .ok (some (edge, transition))
        else source.firstLinked display anchor toward guarded onto rest
      | .ok none => source.firstLinked display anchor toward guarded onto rest

/-- The linked edge an anchor rests on, trying first the one the heading goes straight
through, then those already pushed against. -/
def linkedEdge (id : DisplayId) (anchor : Point F)
    (toward : Option (Point F)) (guarded : Option Edge) (onto : EdgeTransition F → Bool) :
    Except Unit (Option (Edge × EdgeTransition F)) :=
  match source.topology.display id with
  | .error _ => .error ()
  | .ok display =>
    let straight := match toward with
      | some _ => edgeOrder.find? fun edge => pushes edge source.recentMotion.sum
      | none => none
    let pushed := (source.edgePushes.list.filter fun push => push.display == id).map EdgePush.edge
    source.firstLinked display anchor toward guarded onto (straight.toList ++ pushed ++ edgeOrder)

def endUntouched (id : DisplayId) (point : Point F) : SourceController F :=
  let touching := fun (push : EdgePush F) =>
    push.display == id &&
      match source.topology.display id with
      | .ok display => atPhysicalEdge display point push.edge
      | .error _ => false
  { source with edgePushes := source.edgePushes.endWhere fun push => !touching push }

/-- A transition entering further in by the travel past the full push, and no further than
the display's last pixel. -/
def carriedInto (transition : EdgeTransition F) (beyond gain speed : F) : EdgeTransition F :=
  let depth := beyond * source.travelOn transition.toDisplay gain speed
  let entry := transition.entryPoint
  let carried : Point F := match transition.toEdge with
    | .left => { entry with x := entry.x + depth }
    | .right => { entry with x := entry.x - depth }
    | .top => { entry with y := entry.y + depth }
    | .bottom => { entry with y := entry.y - depth }
  if Scalar.lt 0 depth then
    match source.insideDisplay transition.toDisplay carried with
    | none => transition
    | some inside =>
      { transition with
        entryPoint := match transition.toEdge with
          | .left | .right => { x := inside.x, y := entry.y }
          | .top | .bottom => { x := entry.x, y := inside.y } }
  else transition

def carriedOn (id : DisplayId) (position carried : Point F) : Point F :=
  if carried.same .origin then position
  else (source.insideDisplay id (position.moved carried)).getD position

/-- Adds relative motion captured mid-handover to what the pointer carries on with once it
lands, in the landing display's units; false when no handover carries motion. -/
def carryPending (motion : Relative F) : Bool × SourceController F :=
  let onto := fun (id : DisplayId) =>
    motion.delta.scaled (source.travelOn id motion.gain motion.speed)
  match source.state with
  | .awaitActivation wait =>
    (true, { source with
      state := .awaitActivation
        { wait with carried := wait.carried.moved (onto wait.target.display) } })
  | .awaitRemoteBarrier wait =>
    (true, { source with
      state := .awaitRemoteBarrier
        { wait with carried := wait.carried.moved (onto wait.target.display) } })
  | .awaitRelease wait =>
    match wait.carried with
    | none => (false, source)
    | some carried =>
      let display := match wait.handover with
        | some handover => handover.target.display
        | none => wait.home.display
      (true, { source with
        state := .awaitRelease { wait with carried := some (carried.moved (onto display)) } })
  | _ => (false, source)

/-- Adds the outward part of a motion to the push on an edge while the recent motion heads
through it; once it is through, yields how far past the full push it went. -/
def pushBy (display : DisplayId) (edge : Edge) (delta : Point F)
    (now : Duration) : Option F × SourceController F :=
  let push := (source.edgePushes.current display edge).getD (.new display edge)
  let out := outward edge delta
  let pushing := Scalar.lt 0 out && pushes edge source.recentMotion.sum
  let push :=
    if pushing then
      let moved := push.movedOut now
      { moved with travel := moved.travel + out }
    else push
  (if pushing && push.through then some (push.beyond out) else none,
    { source with edgePushes := source.edgePushes.keep push })

/-- Whether an absolute sample pushes, with the push's new heading.  With nothing to measure
from, reaching the edge is arrival. -/
def samplePushes (previous : Option (Point F)) (sample : Point F)
    (now : Duration) : Bool × EdgePush F :=
  match previous with
  | none => (true, push)
  | some previous =>
    let step : Point F := { x := sample.x - previous.x, y := sample.y - previous.y }
    let heading := push.heading.add step now
    (Scalar.lt 0 (outward push.edge step) && pushes push.edge heading.sum, { push with heading })

/-- Records an absolute sample on or past an edge, stepping from the push's last sample or
else from `previous`; once it pushes through, yields how far past the full push it went. -/
def pushTo (display : DisplayId) (edge : Edge)
    (bounds : LogicalRect F) (previous : Option (Point F)) (sample : Point F) (now : Duration) :
    Option F × SourceController F :=
  let push := (source.edgePushes.current display edge).getD (.new display edge)
  let last := push.sample
  let (pushing, push) :=
    samplePushes { push with sample := some sample } (last.or previous) sample now
  let gained := match last with
    | none => 0
    | some last => depthPast bounds sample edge - depthPast bounds last edge
  let push :=
    if pushing then
      let moved := push.movedOut now
      { moved with reach := moved.reach + gained }
    -- depth given back stops counting, so a wiggle past the edge never adds up
    else { push with reach := Scalar.max (push.reach + Scalar.min gained 0) 0 }
  (if pushing && push.through then some (push.beyond gained) else none,
    { source with edgePushes := source.edgePushes.keep push })

end SourceController

/-! ## Crossing -/

namespace Turn

variable (turn : Turn F)

def pointerSpeed : F := PointerSpeed.factor turn.settings.pointerSpeed

/-- A relative record with the pointer speed it moves at. -/
def relative (delta : Point F) (gain : F) : Relative F :=
  { delta, gain, speed := turn.pointerSpeed }

def setLocal (target : PointerTarget) (cursor : Option (Point F)) : Turn F :=
  turn.update fun source => { source with state := .localInput target cursor }

def adoptLocalTarget (target : PointerTarget) (cursor : Point F) : Turn F :=
  match turn.beginOwnershipTransition target with
  | (none, turn) => turn
  | (some epoch, turn) =>
    match turn.source.ownership.acknowledgeTransition { target, epoch } with
    | (.error _, ownership) => (turn.update fun source => { source with ownership }).fail .ownership
    | (.ok _, ownership) =>
      turn.update fun source =>
        { source with
          ownership, edgePushes := .none, state := .localInput target (some cursor) }

/-- Opens an epoch with the request to activate a display. -/
def openEpoch (epoch : SessionEpoch) (wait : Activation F) (toEdge : Edge) : Turn F :=
  let turn := turn.update fun source =>
    { source with
      inputEpoch := epoch, outboundInputSequence := 0
      entryGuard := some (wait.target.display, toEdge)
      -- a local push outlives the request, so pushing on retries without starting over
      edgePushes := if wait.captureAlreadyRemote then .none else source.edgePushes
      state := .awaitActivation wait }
  turn.pushInput (.activateDisplayAt wait.target.display
    (turn.source.peerPoint wait.target.display wait.entry)
    (turn.source.asksTranslation turn.settings.controlAsCommand wait.target.display))

/-- Asks the peer to activate a display in an epoch of its own. -/
def beginRemoteActivation (target : PointerTarget) (entry : Point F)
    (toEdge : Edge) (returnTarget : PointerTarget) (returnPosition : Point F)
    (captureAlreadyRemote : Bool) : Turn F :=
  match turn.beginOwnershipTransition target with
  | (none, turn) => turn
  | (some ownershipEpoch, turn) =>
    match turn.source.nextInputEpoch with
    | none => turn.fail .protocolEpochExhausted
    | some nextEpoch =>
      -- waiting motion belongs to the epoch it was tracked in
      match turn.flushMotion with
      | (false, turn) => turn
      | (true, turn) =>
        turn.openEpoch nextEpoch
          { target, entry, returnTarget, returnPosition, ownershipEpoch
            captureAlreadyRemote, carried := .origin, atButton := none, handover := false }
          toEdge

/-- Whether a declined seam is still a wall, with when pressing it began and was last seen. -/
def pressDeclined (source target : DisplayId) : Bool × Turn F :=
  match turn.source.declined with
  | none => (false, turn)
  | some declined =>
    if declined.source == source && declined.target == target then
      let now := turn.source.lastNow
      let since :=
        if now - declined.last > declineRetryAfter then now else declined.since.getD now
      (decide (now - since < declineRetryAfter),
        turn.update fun source =>
          { source with declined := some { declined with since := some since, last := now } })
    else (false, turn)

/-- Claims the floor and asks the peer, once nothing makes the seam a wall. -/
def requestCrossing (home target : PointerTarget) (transition : EdgeTransition F)
    (returnPosition : Point F) : Turn F :=
  match turn.pressDeclined home.display target.display with
  | (true, turn) => turn
  | (false, turn) =>
    let (snapshot, turn) := turn.floorSnapshot
    match turn.floorCall (.claim snapshot .requesting turn.source.slot) with
    | (.error _, turn) => turn
    | (.ok requesting, turn) =>
      (turn.update fun source =>
        { source with floorClaim := some requesting, declined := none }).beginRemoteActivation
        target transition.entryPoint transition.toEdge home returnPosition false

/-- Crosses a seam of this computer's displays, unless something makes it a wall. -/
def crossSeam (home target : PointerTarget) (transition : EdgeTransition F)
    (returnPosition : Point F) : Turn F :=
  -- the link is down, capture cannot suppress yet, or another controller's peer is there
  if turn.source.isHeld || !turn.source.captureReady || turn.source.peer != some target.machine then
    turn.setLocal home (some returnPosition)
  else
    match turn.localCrossingAllowed with
    | (false, turn) => turn
    | (true, turn) =>
      -- a program confining the cursor owns it, and pushing against it starts over
      if turn.settings.pointerConfined then
        (turn.update fun source => { source with edgePushes := .none }).setLocal home
          (some returnPosition)
      else turn.requestCrossing home target transition returnPosition

def beginEdgeTransition (home : PointerTarget) (transition : EdgeTransition F) : Turn F :=
  match turn.source.topology.machineForDisplay transition.toDisplay with
  | .error _ => turn.fail .topology
  | .ok machine =>
    let target : PointerTarget := { machine := machine.id, display := transition.toDisplay }
    if target.machine == home.machine then turn.adoptLocalTarget target transition.entryPoint
    else
      match turn.source.insideDisplay home.display transition.crossingPoint with
      | none => turn.fail .topology
      | some returnPosition => turn.crossSeam home target transition returnPosition

/-! ## Motion -/

/-- Whether a sample touches a declined seam. -/
def pressing (declined : Declined) (current : Point F) : Bool :=
  match source.topology.display declined.source with
  | .ok display =>
    source.topology.links.any fun link =>
      link.fromDisplay == declined.source && link.toDisplay == declined.target &&
        atPhysicalEdge display current link.fromEdge
  | .error _ => false

/-- A sample off a declined seam ends its pressing. -/
def noteDeclined (current : Point F) : Turn F :=
  match turn.source.declined with
  | none => turn
  | some declined =>
    if pressing turn.source declined current then turn
    else turn.update fun source => { source with declined := some { declined with since := none } }

/-- Pushes against the seam the anchor rests on. -/
def pressSeam (target : PointerTarget) (cursor : Option (Point F))
    (current anchor : Point F) (guarded : Option Edge) (now : Duration) : Turn F :=
  let turn := turn.setLocal target (some anchor)
  match turn.source.linkedEdge target.display anchor none guarded
      fun transition => turn.source.isOurs transition.toDisplay with
  | .error () => turn.fail .topology
  | .ok none => turn.update fun source => { source with edgePushes := .none }
  | .ok (some (edge, transition)) =>
    if turn.source.isHomeDisplay transition.toDisplay then
      turn.update fun source => { source with edgePushes := .none }
    else
      match turn.source.topology.display target.display with
      | .error _ => turn.fail .topology
      | .ok display =>
        match turn.source.pushTo target.display edge display.bounds cursor current now with
        | (none, source) => { turn with source }
        | (some beyond, source) =>
          let turn := { turn with source }
          -- positions are this computer's own units
          let gain := Scalar.ofInt 1 / source.logicalScale target.display
          turn.beginEdgeTransition target
            (source.carriedInto transition beyond gain turn.pointerSpeed)

/-- The motion of a sample that stays on its display or leaves every one of this
computer's. -/
def followLocal (target : PointerTarget) (cursor : Option (Point F))
    (current : Point F) (localTarget : Option PointerTarget) (guarded : Option Edge)
    (now : Duration) : Turn F :=
  let edge := (turn.source.insideDisplay target.display current).getD current
  let (previous, anchor) := match localTarget with
    | some _ => (cursor, current)
    | none => (some edge, edge)
  let transition : Except Core.TopologyError (Option (EdgeTransition F)) := match previous with
    | none => .ok none
    | some previous =>
      turn.source.topology.transitionForMotion target.display previous
        (turn.source.heldAtEntryEdge target.display current guarded)
  match transition with
  | .error _ => turn.fail .topology
  | .ok transition =>
    -- reaching another of this computer's displays is no handoff, so it takes no push
    match transition.filter fun found => turn.source.isHomeDisplay found.toDisplay with
    | some transition => turn.beginEdgeTransition target transition
    | none => turn.pressSeam target cursor current anchor guarded now

/-- Local input is anchored on an in-use display; a sample outside every one counts as past
the nearest edge of the display the pointer left. -/
def applyLocalMotion (current : Point F) (now : Duration) : Turn F :=
  match turn.source.state with
  | .localInput target cursor =>
    let (guarded, source) := turn.source.guardedEntryEdge target.display current
    let turn := { turn with source }.noteDeclined current
    match turn.source.localTargetAt current with
    | .error () => turn.fail .topology
    | .ok localTarget =>
      match localTarget.filter fun found => found != target with
      | some found => turn.adoptLocalTarget found current
      | none => turn.followLocal target cursor current localTarget guarded now
  | _ => turn

/-- Past an edge the anchor stays on its line, so only the delta shows motion back inward. -/
def endInward (display : DisplayId) (delta : Point F) : Turn F :=
  turn.update fun source =>
    { source with
      edgePushes := source.edgePushes.endWhere fun push =>
        push.display == display && Scalar.lt (outward push.edge delta) 0 }

/-- Pushes against the seam a relative motion leaves through. -/
def pushLocal (target : PointerTarget) (anchor : Point F) (motion : Relative F)
    (now : Duration) : Turn F :=
  let turn := turn.endInward target.display motion.delta
  let (guarded, source) := turn.source.guardedEntryEdge target.display anchor
  let turn := { turn with source }
  match turn.source.linkedEdge target.display anchor (some motion.delta) guarded
      fun transition => turn.source.isOurs transition.toDisplay with
  | .error () => turn.fail .topology
  | .ok none => turn
  | .ok (some (edge, transition)) =>
    if turn.source.isHomeDisplay transition.toDisplay then turn.beginEdgeTransition target transition
    else
      match turn.source.pushBy target.display edge motion.delta now with
      | (none, source) => { turn with source }
      | (some beyond, source) =>
        { turn with source }.beginEdgeTransition target
          (source.carriedInto transition beyond motion.gain motion.speed)

def heads (motion : Relative F) (now : Duration) : Turn F :=
  turn.update fun source =>
    { source with recentMotion := source.recentMotion.add motion.delta now }

/-- On this computer's own displays the mouse's units move as they are. -/
def applyLocalRelative (motion : Relative F) (now : Duration) : Turn F :=
  let turn := turn.heads motion now
  match turn.source.state with
  | .localInput target (some anchor) => turn.pushLocal target anchor motion now
  | _ => turn

/-- The pointer leaves the peer's display: home, for another of the peer's displays, or on
to a third peer. -/
def applyRemoteEdge (leaving : PointerTarget) (returnTarget : PointerTarget)
    (returnPosition : Point F) (transition : EdgeTransition F) : Turn F :=
  match turn.source.topology.machineForDisplay transition.toDisplay with
  | .error _ => turn.fail .topology
  | .ok machine =>
    let target : PointerTarget := { machine := machine.id, display := transition.toDisplay }
    if target.machine == turn.source.home.machine then
      turn.beginReturnTo target transition.entryPoint (some (target.display, transition.toEdge)) none
    else if target.machine == leaving.machine then
      turn.beginRemoteActivation target transition.entryPoint transition.toEdge returnTarget
        returnPosition true
    else if turn.source.mayHandOverTo target.display && turn.source.floorClaim.isSome &&
        turn.source.captureRoute.remote && turn.source.captureRoute.owned then
      -- released here and acknowledged, the pointer goes on without coming home between
      turn.beginReturnTo returnTarget returnPosition none
        (some { target, entry := transition.entryPoint, toEdge := transition.toEdge
                atButton := none })
    else turn.fail .topology

/-- Motion past the boundary goes on once the hop is acknowledged. -/
def carryHop (carried : Point F) : Turn F :=
  match turn.source.state with
  | .awaitActivation wait =>
    turn.update fun source => { source with state := .awaitActivation { wait with carried } }
  | _ => turn

/-- Sends the tracked position itself, unless it is the one the receiver has. -/
def sendMoved (display : DisplayId) (known position : Point F) : Turn F :=
  if position.same known then turn
  else turn.pushInput (.motion (.absolute (turn.source.peerPoint display position)))

def moveRemote (stay : RemoteStay F) (next : Point F) : Turn F :=
  ({ turn with source := turn.source.endUntouched stay.target.display next }.update
    fun source => { source with state := .remote { stay with position := next } }).sendMoved
    stay.target.display stay.position next

/-- The three edges a motion on the peer's display may leave through: onward to another of
the peer's displays, the seam the motion leaves by, and the seam the hand heads for. -/
def remoteEdges (stay : RemoteStay F) (next stopped delta : Point F) (guarded : Option Edge) :
    Option (Option (Edge × EdgeTransition F) × Option (Edge × EdgeTransition F) ×
      Option (Edge × EdgeTransition F)) :=
  let within := fun (transition : EdgeTransition F) =>
    source.isDisplayOf stay.target.machine transition.toDisplay
  let beyond := fun (transition : EdgeTransition F) =>
    source.isHomeDisplay transition.toDisplay || source.mayHandOverTo transition.toDisplay
  let heading := source.recentMotion.sum
  match source.linkedEdge stay.target.display next (some stopped) guarded within,
    source.linkedEdge stay.target.display stay.position (some delta) guarded beyond,
    source.linkedEdge stay.target.display stay.position (some heading) guarded beyond with
  | .ok onward, .ok seam, .ok home => some (onward, seam, home)
  | _, _, _ => none

/-- Pushes the seam a motion on the peer's display leaves by, or moves along it. -/
def pushRemote (stay : RemoteStay F) (next : Point F)
    (seam : Option (Edge × EdgeTransition F)) (motion : Relative F) (now : Duration) : Turn F :=
  match seam with
  | none => turn.moveRemote stay next
  | some (edge, transition) =>
    match turn.source.pushBy stay.target.display edge motion.delta now with
    | (none, source) => { turn with source }.moveRemote stay next
    | (some beyond, source) =>
      { turn with source }.applyRemoteEdge stay.target stay.returnTarget stay.returnPosition
        (source.carriedInto transition beyond motion.gain motion.speed)

/-- Moves the pointer over the peer's display by a motion that stays finite. -/
def followRemote (stay : RemoteStay F) (display : Display F) (desired : Point F)
    (motion : Relative F) (now : Duration) : Turn F :=
  let (guarded, source) := turn.source.guardedEntryEdge stay.target.display stay.position
  let turn := { turn with source }
  let desired := source.heldAtEntryEdge stay.target.display desired guarded
  let next := display.bounds.clampHalfOpen desired
  let stopped : Point F := { x := desired.x - next.x, y := desired.y - next.y }
  match remoteEdges source stay next stopped motion.delta guarded with
  | none => turn.fail .topology
  | some (onward, seam, home) =>
    -- unless the hand heads straight home, or on to a third peer, through a seam there
    let homeward := home.any fun found => pushes found.1 source.recentMotion.sum
    match onward.filter fun _ => !homeward with
    | some (edge, transition) =>
      (turn.applyRemoteEdge stay.target stay.returnTarget stay.returnPosition transition).carryHop
        (pastEdge display.bounds desired edge)
    | none => turn.pushRemote stay next seam motion now

/-- The pointer moves on across the controlled computer's own display boundaries and stops
at the seam home, which only a push carries it over. -/
def applyRemoteMotion (motion : Relative F) (now : Duration) : Turn F :=
  match turn.source.state with
  | .remote stay =>
    -- the heading and the push follow the hand, so a pointer that cannot move still pushes
    let turn := turn.heads motion now
    match turn.source.topology.display stay.target.display with
    | .error _ => turn.fail .topology
    | .ok display =>
      let units := motion.gain * turn.source.logicalScale stay.target.display
      let desired := stay.position.moved (motion.delta.scaled (units * motion.speed))
      if !desired.isFinite then turn.fail .invalidCapturedInput
      else turn.followRemote stay display desired motion now
  | _ => turn

end Turn
end Geometry
end Monhop.Transport
