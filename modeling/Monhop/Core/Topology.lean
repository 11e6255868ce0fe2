import Monhop.Core.Types
import Monhop.Library.Sort

/-! # Display geometry and directed pointer-edge transitions

The displays of the connected computers and the links between their edges.  A motion that
leaves a display past a link's dead zone lands on the linked display.  Lookups are by id;
a source display's links are tried in the order the topology holds them.
-/

namespace Monhop.Core

structure Machine where
  id : DeviceId
  platform : Platform
  deriving DecidableEq

structure LogicalSize (F : Type) where
  width : F
  height : F
  deriving DecidableEq

structure LogicalRect (F : Type) where
  origin : Point F
  size : LogicalSize F

structure NativeSize where
  width : Nat
  height : Nat
  deriving DecidableEq

structure Display (F : Type) where
  id : DisplayId
  machine : DeviceId
  nativeSize : NativeSize
  logicalSize : LogicalSize F
  origin : Point F
  scaleFactor : F
  /-- False for a display the layout leaves out: it is never the pointer's display. -/
  inUse : Bool
  deriving DecidableEq

def Display.bounds {F : Type} (display : Display F) : LogicalRect F :=
  { origin := display.origin, size := display.logicalSize }

inductive Edge where
  | left
  | right
  | top
  | bottom
  deriving DecidableEq

structure NormalizedSpan (F : Type) where
  start : F
  stop : F
  deriving DecidableEq

structure EdgeLink (F : Type) where
  fromDisplay : DisplayId
  fromEdge : Edge
  fromSpan : NormalizedSpan F
  toDisplay : DisplayId
  toEdge : Edge
  toSpan : NormalizedSpan F
  hysteresis : F
  deriving DecidableEq

structure EdgeTransition (F : Type) where
  fromDisplay : DisplayId
  toDisplay : DisplayId
  fromEdge : Edge
  toEdge : Edge
  crossingPoint : Point F
  entryPoint : Point F
  deriving DecidableEq

/-- The errors a lookup or a motion can meet. -/
inductive TopologyError where
  | unknownMachine (machine : DeviceId)
  | unknownDisplay (display : DisplayId)
  | nonFiniteMotionPoint
  deriving DecidableEq

structure Topology (F : Type) where
  machines : List Machine
  /-- In id order. -/
  displays : List (Display F)
  links : List (EdgeLink F)
  deriving DecidableEq

section Geometry
variable {F : Type} [Scalar F]

namespace LogicalRect

variable (rect : LogicalRect F)

def maxX : F := rect.origin.x + rect.size.width

def maxY : F := rect.origin.y + rect.size.height

/-- Excludes the max edges so abutting displays never both claim the same point. -/
def containsHalfOpen (point : Point F) : Bool :=
  point.isFinite && Scalar.le rect.origin.x point.x && Scalar.lt point.x rect.maxX &&
    Scalar.le rect.origin.y point.y && Scalar.lt point.y rect.maxY

/-- The nearest point `containsHalfOpen` admits. -/
def clampHalfOpen (point : Point F) : Point F :=
  { x := Scalar.clamp point.x rect.origin.x (Scalar.nextDown rect.maxX)
    y := Scalar.clamp point.y rect.origin.y (Scalar.nextDown rect.maxY) }

end LogicalRect

namespace NormalizedSpan

/-- A part of an edge, not empty. -/
def new (start stop : F) : Option (NormalizedSpan F) :=
  let inside (position : F) := Scalar.le 0 position && Scalar.le position (Scalar.ofInt 1)
  if !Scalar.isFinite start || !Scalar.isFinite stop || !inside start || !inside stop ||
      Scalar.le stop start then none
  else some { start, stop }

def overlaps (first second : NormalizedSpan F) : Bool :=
  Scalar.lt first.start second.stop && Scalar.lt second.start first.stop

def same (first second : NormalizedSpan F) : Bool :=
  Scalar.same first.start second.start && Scalar.same first.stop second.stop

def contains (span : NormalizedSpan F) (position : F) : Bool :=
  Scalar.le span.start position &&
    (Scalar.lt position span.stop ||
      Scalar.same span.stop (Scalar.ofInt 1) && Scalar.same position (Scalar.ofInt 1))

def mapTo (span destination : NormalizedSpan F) (position : F) : F :=
  let progress := (position - span.start) / (span.stop - span.start)
  destination.start + progress * (destination.stop - destination.start)

end NormalizedSpan

def interpolateAtX (previous current : Point F) (x : F) : Point F :=
  let progress := (x - previous.x) / (current.x - previous.x)
  { x, y := previous.y + (current.y - previous.y) * progress }

def interpolateAtY (previous current : Point F) (y : F) : Point F :=
  let progress := (y - previous.y) / (current.y - previous.y)
  { x := previous.x + (current.x - previous.x) * progress, y }

variable (bounds : LogicalRect F)

/-- The motion is interpolated at the crossed dead-zone boundary and projected onto the
edge, which may lie behind both samples. -/
def crossingPoint (link : EdgeLink F) (previous current : Point F) : Option (Point F) :=
  match link.fromEdge with
  | .left =>
    let boundary := bounds.origin.x - link.hysteresis
    if Scalar.le previous.x bounds.maxX && Scalar.le boundary previous.x &&
        Scalar.lt current.x boundary && Scalar.lt current.x previous.x then
      some { x := bounds.origin.x, y := (interpolateAtX previous current boundary).y }
    else none
  | .right =>
    let boundary := bounds.maxX + link.hysteresis
    if Scalar.le bounds.origin.x previous.x && Scalar.le previous.x boundary &&
        Scalar.lt boundary current.x && Scalar.lt previous.x current.x then
      some { x := bounds.maxX, y := (interpolateAtX previous current boundary).y }
    else none
  | .top =>
    let boundary := bounds.origin.y - link.hysteresis
    if Scalar.le previous.y bounds.maxY && Scalar.le boundary previous.y &&
        Scalar.lt current.y boundary && Scalar.lt current.y previous.y then
      some { x := (interpolateAtY previous current boundary).x, y := bounds.origin.y }
    else none
  | .bottom =>
    let boundary := bounds.maxY + link.hysteresis
    if Scalar.le bounds.origin.y previous.y && Scalar.le previous.y boundary &&
        Scalar.lt boundary current.y && Scalar.lt previous.y current.y then
      some { x := (interpolateAtY previous current boundary).x, y := bounds.maxY }
    else none

def normalizedPosition (edge : Edge) (point : Point F) : F :=
  match edge with
  | .left | .right => (point.y - bounds.origin.y) / bounds.size.height
  | .top | .bottom => (point.x - bounds.origin.x) / bounds.size.width

def clampTangential (value low high : F) : F := Scalar.clamp value low (Scalar.nextDown high)

def destinationEntryPoint (edge : Edge) (position inset : F) : Point F :=
  let alongX := clampTangential (bounds.origin.x + bounds.size.width * position) bounds.origin.x
    bounds.maxX
  let alongY := clampTangential (bounds.origin.y + bounds.size.height * position) bounds.origin.y
    bounds.maxY
  match edge with
  | .left => { x := bounds.origin.x + inset, y := alongY }
  | .right => { x := bounds.maxX - inset, y := alongY }
  | .top => { x := alongX, y := bounds.origin.y + inset }
  | .bottom => { x := alongX, y := bounds.maxY - inset }

def Edge.normalExtent (edge : Edge) (bounds : LogicalRect F) : F :=
  match edge with
  | .left | .right => bounds.size.width
  | .top | .bottom => bounds.size.height

/-! ## Building a topology -/

def validLinkShape (fromDisplay toDisplay : DisplayId) (hysteresis : F) : Bool :=
  fromDisplay != toDisplay && Scalar.isFinite hysteresis && !Scalar.le hysteresis 0

def EdgeLink.new (fromDisplay : DisplayId) (fromEdge : Edge) (fromSpan : NormalizedSpan F)
    (toDisplay : DisplayId) (toEdge : Edge) (toSpan : NormalizedSpan F) (hysteresis : F) :
    Option (EdgeLink F) :=
  if validLinkShape fromDisplay toDisplay hysteresis then
    some { fromDisplay, fromEdge, fromSpan, toDisplay, toEdge, toSpan, hysteresis }
  else none

def validDisplay (display : Display F) : Bool :=
  let size := display.logicalSize
  display.nativeSize.width != 0 && display.nativeSize.height != 0 &&
    Scalar.isFinite size.width && Scalar.isFinite size.height &&
    !Scalar.le size.width 0 && !Scalar.le size.height 0 &&
    display.origin.isFinite &&
    Scalar.isFinite display.bounds.maxX && Scalar.isFinite display.bounds.maxY &&
    !Scalar.le display.bounds.maxX display.origin.x &&
    !Scalar.le display.bounds.maxY display.origin.y &&
    Scalar.isFinite display.scaleFactor && !Scalar.le display.scaleFactor 0

/-- A dead zone must leave room on both displays. -/
def validLink (displays : List (Display F)) (link : EdgeLink F) : Bool :=
  validLinkShape link.fromDisplay link.toDisplay link.hysteresis &&
    match displays.find? (·.id == link.fromDisplay), displays.find? (·.id == link.toDisplay) with
    | some source, some destination =>
      !Scalar.le (link.fromEdge.normalExtent source.bounds) link.hysteresis &&
        !Scalar.le (link.toEdge.normalExtent destination.bounds) link.hysteresis
    | _, _ => false

/-- No two links leave one edge through overlapping spans. -/
def noOverlaps : List (EdgeLink F) → Bool
  | [] => true
  | link :: rest =>
    (rest.all fun other => !(link.fromDisplay == other.fromDisplay &&
      link.fromEdge == other.fromEdge && link.fromSpan.overlaps other.fromSpan)) && noOverlaps rest

def maxTopologyDisplays : Nat := 16

def Topology.new (machines : List Machine) (displays : List (Display F))
    (links : List (EdgeLink F)) : Option (Topology F) :=
  if displays.isEmpty || decide (displays.length > maxTopologyDisplays) ||
      !decide (machines.map (·.id)).Nodup ||
      !(displays.all fun display =>
        validDisplay display && machines.any (·.id == display.machine)) ||
      !decide (displays.map (·.id)).Nodup ||
      !links.all (validLink displays) || !noOverlaps links then none
  else
    some { machines, displays := Library.sortBy (fun display => display.id.raw) displays, links }

namespace Topology

variable (topology : Topology F)

def display (id : DisplayId) : Except TopologyError (Display F) :=
  match topology.displays.find? fun display => display.id == id with
  | some display => .ok display
  | none => .error (.unknownDisplay id)

def machineForDisplay (id : DisplayId) : Except TopologyError Machine :=
  match topology.display id with
  | .error error => .error error
  | .ok display =>
    match topology.machines.find? fun machine => machine.id == display.machine with
    | some machine => .ok machine
    | none => .error (.unknownMachine display.machine)

/-- Where a motion crosses one link of its source display. -/
def crossLink (source : Display F) (link : EdgeLink F)
    (previous current : Point F) : Option (Except TopologyError (EdgeTransition F)) :=
  match crossingPoint source.bounds link previous current with
  | none => none
  | some crossingPoint =>
    let position := normalizedPosition source.bounds link.fromEdge crossingPoint
    if !link.fromSpan.contains position then none
    else
      some <| (topology.display link.toDisplay).map fun destination =>
        { fromDisplay := source.id, toDisplay := link.toDisplay, fromEdge := link.fromEdge
          toEdge := link.toEdge, crossingPoint
          entryPoint := destinationEntryPoint destination.bounds link.toEdge
            (link.fromSpan.mapTo link.toSpan position) link.hysteresis }

/-- The first link of the source display the motion crosses. -/
def transitionForMotion (sourceDisplay : DisplayId)
    (previous current : Point F) : Except TopologyError (Option (EdgeTransition F)) :=
  if !previous.isFinite || !current.isFinite then .error .nonFiniteMotionPoint
  else
    match topology.display sourceDisplay with
    | .error error => .error error
    | .ok source =>
      let links := topology.links.filter fun link => link.fromDisplay == sourceDisplay
      match links.findSome? fun link => topology.crossLink source link previous current with
      | none => .ok none
      | some (.ok transition) => .ok (some transition)
      | some (.error error) => .error error

end Topology
end Geometry
end Monhop.Core
