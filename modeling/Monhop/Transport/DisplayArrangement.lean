import Monhop.Core.Topology
import Monhop.Protocol.Frame

/-! # The pointer topology of a group

Each computer's own monitor adjacency is inherited from the geometry its system reports; the
links a layout gives join different computers only.  A hidden display keeps no adjacency.
-/

namespace Monhop.Transport

open Monhop.Core Protocol
variable {F : Type} [Scalar F]

/-- One member's displays and where its block sits in the shared coordinates. -/
structure MemberBlock (F : Type) where
  device : DeviceId
  platform : Platform
  displays : DisplayTopology F
  offset : Point F

/-- The seam between two displays along the overlap, both ways. -/
def addPair (links : List (EdgeLink F)) (first second : Display F) (fromEdge toEdge : Edge)
    (overlap : F × F) : Option (List (EdgeLink F)) := do
  let span (display : Display F) : Option (NormalizedSpan F) :=
    let (origin, size) := match fromEdge with
      | .left | .right => (display.origin.y, display.logicalSize.height)
      | .top | .bottom => (display.origin.x, display.logicalSize.width)
    NormalizedSpan.new ((overlap.1 - origin) / size) ((overlap.2 - origin) / size)
  let fromSpan ← span first
  let toSpan ← span second
  let there ← EdgeLink.new first.id fromEdge fromSpan second.id toEdge toSpan (Scalar.ofInt 1)
  let back ← EdgeLink.new second.id toEdge toSpan first.id fromEdge fromSpan (Scalar.ofInt 1)
  pure (links ++ [there, back])

/-- The seams of two displays of one computer; displays that overlap have none. -/
def inheritPair (hidden : List DisplayId) (first second : Display F)
    (seams : List (EdgeLink F)) : Option (List (EdgeLink F)) :=
  if first.machine != second.machine || hidden.contains first.id || hidden.contains second.id then
    some seams
  else
    let firstX := first.bounds.maxX
    let firstY := first.bounds.maxY
    let secondX := second.bounds.maxX
    let secondY := second.bounds.maxY
    let horizontal := (Scalar.max first.origin.x second.origin.x, Scalar.min firstX secondX)
    let vertical := (Scalar.max first.origin.y second.origin.y, Scalar.min firstY secondY)
    if Scalar.lt horizontal.1 horizontal.2 && Scalar.lt vertical.1 vertical.2 then none
    else do
      let seams ←
        if Scalar.lt vertical.1 vertical.2 then
          if Scalar.same firstX second.origin.x then
            addPair seams first second .right .left vertical
          else if Scalar.same secondX first.origin.x then
            addPair seams first second .left .right vertical
          else some seams
        else some seams
      if Scalar.lt horizontal.1 horizontal.2 then
        if Scalar.same firstY second.origin.y then
          addPair seams first second .bottom .top horizontal
        else if Scalar.same secondY first.origin.y then
          addPair seams first second .top .bottom horizontal
        else some seams
      else some seams

/-- Every pair of displays once, in order. -/
def inheritPairs (hidden : List DisplayId) :
    List (Display F) → List (EdgeLink F) → Option (List (EdgeLink F))
  | [], seams => some seams
  | first :: rest, seams => do
    let seams ← rest.foldlM (fun seams second => inheritPair hidden first second seams) seams
    inheritPairs hidden rest seams

/-- The links given join displays of different computers; the seams of each computer follow. -/
def inheritDisplayEdges (displays : List (Display F)) (seams : List (EdgeLink F))
    (hidden : List DisplayId) : Option (List (EdgeLink F)) :=
  let joins (seam : EdgeLink F) : Bool :=
    match displays.find? (·.id == seam.fromDisplay), displays.find? (·.id == seam.toDisplay) with
    | some source, some destination => source.machine != destination.machine
    | _, _ => false
  if seams.all joins then inheritPairs hidden displays seams else none

def maxGroupLinks : Nat := 64

/-- The whole group's topology: each member's displays moved by its own offset.  `widen` gives a
scale factor in the coordinates' format. -/
def groupTopology (widen : Single → F) (blocks : List (MemberBlock F)) (links : List (EdgeLink F))
    (hidden : List DisplayId) : Option (Topology F) :=
  if links.length > maxGroupLinks then none
  else if blocks.any fun block => !block.offset.isFinite then none
  else
    let displays : List (Display F) := blocks.flatMap fun block =>
      block.displays.displays.map fun display =>
        { id := display.id
          machine := block.device
          nativeSize := { width := display.nativeWidth, height := display.nativeHeight }
          logicalSize := { width := display.logicalSize.x, height := display.logicalSize.y }
          origin := display.logicalOrigin.moved block.offset
          scaleFactor := widen display.scaleFactor
          inUse := !hidden.contains display.id }
    if hidden.any fun id => !displays.any (·.id == id) then none
    else do
      let links ← inheritDisplayEdges displays links hidden
      if links.length > maxGroupLinks then none
      else
        Topology.new (blocks.map fun block => { id := block.device, platform := block.platform })
          displays links

end Monhop.Transport
