import Monhop.Setup.Layout

/-! # One saved layout for a group of computers

A record names its members, the displays each showed, and their layout.  It is agreed by
revision: where two copies meet, the greater `Stamp` wins, and the stamp's last part is a
digest of the record's content in canonical order.
-/

namespace Monhop.Setup

open Monhop.Core Library Protocol Transport

inductive PreferenceError where
  | invalid
  | inspectionChanged
  deriving DecidableEq

def PreferenceError.message : PreferenceError → String
  | .invalid => "The saved sharing setup is invalid."
  | .inspectionChanged => "The saved sharing setup no longer matches the paired computers."

structure GroupMember (F : Type) where
  fingerprint : Text
  platform : Platform
  displays : List (DisplaySnapshot F)
  deriving DecidableEq

def GroupMember.key {F : Type} (member : GroupMember F) : Text := fingerprintKey member.fingerprint

structure GroupRecord (F : Type) where
  version : Nat
  /-- At least 1. -/
  revision : Nat
  /-- The member that made this revision. -/
  author : Text
  /-- In order of their keys. -/
  members : List (GroupMember F)
  layout : LayoutRequest F
  deriving DecidableEq

def groupRecordVersion : Nat := 1
def maxGroupMembers : Nat := 8
def maxLinks : Nat := 64
def maxLayoutPayloadBytes : Nat := 32 * 1024
/-- Room is kept for the envelope a record is sent in. -/
def maxRecordBytes : Nat := maxLayoutPayloadBytes - 256

def tooManyLinks : String := "The layout supports at most 64 directed edges."
def nothingTouches : String := "Move the displays together until they touch."
def chooseControl : String := "Choose which computer can control the other."
def oneWay : String := "Every crossing must work in both directions."
def crossingsOverlap : String := "Crossings on the same display edge must not overlap."
def ownSeam : String :=
  "A crossing sits on an edge where one computer's own displays meet. Use a free edge."
def tooLarge : String := "The layout is too large to share with the other computers."

/-! ## Stamps -/

/-- A record's place in the one order every member applies. -/
structure Stamp where
  revision : Nat
  author : DeviceId
  content : Nat

/-- By revision, then the lower author, then the lower digest. -/
def Stamp.cmp (first second : Stamp) : Ordering :=
  (compare first.revision second.revision).then
    ((compare second.author.raw first.author.raw).then (compare second.content first.content))

namespace GroupRecord

variable {F : Type} [Format F]

/-! ## Reading a record -/

variable (record : GroupRecord F)

/-- The lower-case fingerprints in member order: the key of the group's member set. -/
def memberKeys : List Text := record.members.map (·.key)

def member (fingerprint : Text) : Option (GroupMember F) :=
  record.members.find? fun member => member.key == fingerprintKey fingerprint

def hasMember (fingerprint : Text) : Bool :=
  record.members.any fun member => member.key == fingerprintKey fingerprint

/-- Each display's number with the place of the member that shows it. -/
def owners : List (DisplayId × Nat) :=
  record.members.zipIdx.flatMap fun (member, index) =>
    member.displays.filterMap fun display =>
      match parseDisplay display.id with
      | .ok id => some (id, index)
      | .error _ => none

def ownerOf (id : DisplayId) : Option Nat :=
  (record.owners.find? fun owner => owner.1 == id).map (·.2)

/-- Every display as the arrangement's check for one member sees it. -/
def arranged (index : Nat) : List ArrangedDisplay :=
  record.members.zipIdx.flatMap fun (member, owner) =>
    member.displays.map fun display => { id := display.id, isLocal := owner == index }

/-! ## The saved text -/

def platformText : Platform → Text
  | .windows => "windows".toList
  | .macOs => "macos".toList

end GroupRecord

section Saved
variable {F : Type} [Format F]

def GroupMember.json (member : GroupMember F) : Json :=
  .object
    [field "fingerprint" (.string member.fingerprint),
      field "platform" (.string (GroupRecord.platformText member.platform)),
      field "displays" (.array (member.displays.map (·.json)))]

def GroupRecord.json (record : GroupRecord F) : Json :=
  .object
    [field "version" (jsonNat record.version), field "revision" (jsonNat record.revision),
      field "author" (.string record.author),
      field "members" (.array (record.members.map (·.json))),
      field "layout" record.layout.json]

end Saved

/-! ## Where a member's block sits -/

section Blocks
variable {F : Type} [Format F]

/-- How far the picture moved one computer's block: its anchor's position less the anchor's own
origin.  The anchor is the primary display when placed, else the lowest placed id. -/
def blockTranslation (arrangement : ArrangementRequest F) (displays : List (DisplaySnapshot F)) :
    Option (Point F) :=
  let placed (display : DisplaySnapshot F) :=
    arrangement.positions.find? fun position => position.display == display.id
  let numeric (display : DisplaySnapshot F) :=
    match parseDisplay display.id with
    | .ok id => id.raw
    | .error _ => u64Max
  let anchor :=
    match displays.find? fun display => display.primary && (placed display).isSome with
    | some display => some display
    | none => (displays.filter fun display => (placed display).isSome).argmin numeric
  match anchor with
  | none => none
  | some anchor => (placed anchor).map fun position =>
    { x := position.x - anchor.origin.x, y := position.y - anchor.origin.y }

/-- The identity a saved monitor key spells: three hexadecimal numbers joined by dashes. -/
def monitorFromKey (key : Text) : Option MonitorIdentity :=
  let number (digits : Text) (width : Nat) : Option Nat :=
    match (if digits.head? = some '+' then digits.tail else digits).mapM hexNibble with
    | some nibbles =>
      let value := nibbles.foldl (fun value nibble => value * 16 + nibble) 0
      if !nibbles.isEmpty && decide (value < 2 ^ width) then some value else none
    | none => none
  match key.splitOn '-' with
  | vendor :: product :: serial :: _ => do
    MonitorIdentity.new (← number vendor 16) (← number product 16) (← number serial 32)
  | _ => none

def DisplaySnapshot.description (display : DisplaySnapshot F) : Option (DisplayDescription F) :=
  match parseDisplay display.id with
  | .ok id => some
    { id, name := String.ofList display.name
      nativeWidth := display.nativeSize.width, nativeHeight := display.nativeSize.height
      logicalOrigin := display.origin, logicalSize := display.size
      scaleFactor := display.scale, isPrimary := display.primary
      monitor := display.monitor.bind monitorFromKey }
  | .error _ => none

/-- Saved displays as the topology a connection carries. -/
def topologyOf (displays : List (DisplaySnapshot F)) : Option (DisplayTopology F) := do
  let displays ← displays.mapM (·.description)
  (DisplayTopology.new displays).toOption

namespace GroupRecord

variable (record : GroupRecord F)

/-- A member's block offset from the local block; one that cannot be reproduced exactly on both
computers becomes zero. -/
def memberOffset (here there : GroupMember F) : Point F :=
  match record.layout.arrangement with
  | none => Point.origin
  | some arrangement =>
    match blockTranslation arrangement here.displays, blockTranslation arrangement there.displays with
    | some source, some destination =>
      let offset : Point F :=
        { x := Format.round (destination.x - source.x), y := Format.round (destination.y - source.y) }
      let exact (displays : List (DisplaySnapshot F)) (sign : F) : Bool :=
        displays.all fun display =>
          Scalar.same ((display.origin.x + sign * offset.x) - display.origin.x) (sign * offset.x) &&
          Scalar.same ((display.origin.y + sign * offset.y) - display.origin.y) (sign * offset.y)
      if offset.isFinite && exact there.displays (Scalar.ofInt 1) &&
          exact here.displays (Scalar.ofInt (-1)) then offset
      else Point.origin
    | _, _ => Point.origin

/-- The whole group's pointer topology as one member runs it. -/
def topologyAt (index : Nat) : Option (Topology F) := do
  let here ← record.members[index]?
  let displays ← record.members.mapM fun member => topologyOf member.displays
  let blocks ← (record.members.zip displays).zipIdx.mapM fun ((member, displays), place) => do
    let device ← deviceOf member.fingerprint
    pure
      { device, platform := member.platform, displays
        offset := if place = index then Point.origin else record.memberOffset here member }
  let links ← (record.layout.links.mapM parseLink).toOption
  let hidden ← ((record.layout.arrangement.map (·.hidden)).getD [] |>.mapM parseDisplay).toOption
  groupTopology Format.ofSingle blocks links hidden

/-! ## The checks -/

/-- `other` crosses the same seam as `link`, the other way. -/
def reverses (link other : EdgeLink F) : Bool :=
  other.fromDisplay == link.toDisplay && other.fromEdge == link.toEdge &&
    other.fromSpan.same link.toSpan && other.toDisplay == link.fromDisplay &&
    other.toEdge == link.fromEdge && other.toSpan.same link.fromSpan

/-- Canonical names, in order, and no display twice. -/
def validMembers : Bool :=
  (record.members.all fun member =>
    validFingerprint member.fingerprint && validDisplays member.displays) &&
    decide (record.memberKeys.IsChain (· < ·)) && decide (record.owners.map (·.1)).Nodup

/-- The two ends are shown by different members. -/
def joinsMembers (link : EdgeLink F) : Bool :=
  match record.ownerOf link.fromDisplay, record.ownerOf link.toDisplay with
  | some source, some destination => source != destination
  | _, _ => false

def check : Except String Unit := do
  let layout := record.layout
  ensure (record.version == groupRecordVersion && record.revision != 0 &&
    decide (2 ≤ record.members.length) && decide (record.members.length ≤ maxGroupMembers) &&
    record.members.any fun member => member.fingerprint == record.author)
    PreferenceError.invalid.message
  ensure record.validMembers PreferenceError.invalid.message
  ensure (decide (record.owners.length ≤ maxDisplays)) PreferenceError.invalid.message
  ensure (decide (layout.links.length ≤ maxLinks)) tooManyLinks
  let links ← layout.links.mapM parseLink
  ensure (!links.isEmpty) nothingTouches
  -- Once per member, so every member keeps at least one display in use.
  forM (List.range record.members.length) fun index =>
    checkArrangement layout (record.arranged index)
  ensure (layout.control.entries.length == record.members.length &&
    (record.members.all fun member => layout.control.containsKey member.key) &&
    layout.control.entries.any (·.2)) chooseControl
  ensure (links.all fun link => links.any (reverses link)) oneWay
  ensure (noOverlaps links) crossingsOverlap
  ensure (links.all record.joinsMembers &&
    (List.range record.members.length).all fun index => (record.topologyAt index).isSome) ownSeam
  ensure (decide (record.json.size ≤ maxRecordBytes)) tooLarge

/-- A record that passes its own checks. -/
def Valid : Prop := record.check = .ok ()

instance (record : GroupRecord F) : Decidable record.Valid :=
  match passed : record.check with
  | .ok () => isTrue passed
  | .error _ => isFalse fun valid => nomatch passed.symm.trans valid

end GroupRecord
end Blocks

/-! ## Content and stamp -/

section Content
variable {F : Type} [Format F]

/-- The canonical form the digest is taken of. -/
structure Content (F : Type) where
  members : List (GroupMember F)
  layout : LayoutRequest F

def Content.json (content : Content F) : Json :=
  .object [field "members" (.array (content.members.map (·.json))),
    field "layout" content.layout.json]

/-- The displays in order of their numbers, every name blank. -/
def GroupMember.canonical (member : GroupMember F) : GroupMember F :=
  { member with
    displays := (sortBy (fun display => displayOrder display.id) member.displays).map
      fun display => { display with name := [] } }

def ArrangementRequest.canonical (arrangement : ArrangementRequest F) : ArrangementRequest F where
  positions := sortBy (fun position => displayOrder position.display) arrangement.positions
  hidden := sortBy displayOrder arrangement.hidden

def LayoutRequest.canonical (layout : LayoutRequest F) : LayoutRequest F where
  links := sortBy (fun link => link.json.write) layout.links
  arrangement := layout.arrangement.map (·.canonical)
  control := layout.control

namespace GroupRecord

variable (record : GroupRecord F)

def content : Content F where
  members := (sortBy GroupMember.key record.members).map (·.canonical)
  layout := record.layout.canonical

/-- Revision and author are left out, so two computers that made the same layout agree on it. -/
def contentDigest : Nat :=
  Format.payloadDigest F record.content.json.write

def stamp : Stamp where
  revision := record.revision
  -- Only a record that fails its checks has an author that does not parse.
  author := (deviceOf record.author).getD ⟨2 ^ 128 - 1⟩
  content := record.contentDigest

/-! ## Records made from records -/

/-- The same content stamped as a new local change. -/
def restamped (revision : Nat) (author : Text) : Option (GroupRecord F) := do
  let author ← canonicalFingerprint author
  let record := { record with revision, author }
  if record.Valid then some record else none

/-- The layout without what names one of the displays. -/
def withoutDisplays (layout : LayoutRequest F) (gone : List Text) : LayoutRequest F :=
  { layout with
    links := layout.links.filter fun link =>
      !gone.contains link.fromDisplay && !gone.contains link.toDisplay
    arrangement := layout.arrangement.map fun arrangement =>
      { positions := arrangement.positions.filter fun position => !gone.contains position.display
        hidden := arrangement.hidden.filter fun id => !gone.contains id } }

/-- The group without one member: its displays, what names them and its control entry go. -/
def withoutMember (member : Text) (revision : Nat) (author : Text) : Option (GroupRecord F) := do
  let removed ← record.member member
  let layout := withoutDisplays record.layout (removed.displays.map (·.id))
  let record :=
    { record with
      members := record.members.eraseP fun other => other.key == fingerprintKey member
      layout := { layout with control := layout.control.remove (fingerprintKey member) } }
  record.restamped revision author

end GroupRecord
end Content
end Monhop.Setup
