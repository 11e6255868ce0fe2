import Monhop.Setup.Record

/-! # Records for the displays shown now

What a link shows of its two computers, and whether a saved record still fits it: the members'
displays and platforms are those shown now, whatever labels they carry.
-/

namespace Monhop.Setup

open Monhop.Core Library Protocol Transport
variable {F : Type} [Format F]

/-! ## What a link shows -/

/-- A number in lower-case hexadecimal, filled with zeros to a width. -/
def hexPadded (width value : Nat) : Text :=
  let digits := Nat.toDigits 16 value
  List.replicate (width - digits.length) '0' ++ digits

def monitorKey (display : DisplayDescription F) : Option Text :=
  display.monitor.map fun monitor =>
    hexPadded 4 monitor.vendor ++ '-' :: hexPadded 4 monitor.product ++
      '-' :: hexPadded 8 monitor.serial

/-- The displays of a connection as a record keeps them. -/
def snapshots (topology : DisplayTopology F) : List (DisplaySnapshot F) :=
  topology.displays.map fun display =>
    { id := displayText display.id
      name := display.name.toList
      origin := display.logicalOrigin
      size := display.logicalSize
      nativeSize := ⟨display.nativeWidth, display.nativeHeight⟩
      scale := display.scaleFactor
      primary := display.isPrimary
      monitor := monitorKey display }

structure KnownMember (F : Type) where
  platform : Platform
  displays : List (DisplaySnapshot F)

/-- What computers show now, by the key of their fingerprint. -/
structure KnownDisplays (F : Type) where
  members : Text → Option (KnownMember F)

/-- What one link shows of its two ends. -/
structure InspectedPeer (F : Type) where
  localDevice : DeviceId
  peerDevice : DeviceId
  localFingerprint : CertificateFingerprint
  peerFingerprint : CertificateFingerprint
  localPlatform : Platform
  peerPlatform : Platform
  localDisplays : DisplayTopology F
  peerDisplays : DisplayTopology F
  interfaceId : Text

variable (known : KnownDisplays F)

namespace KnownDisplays

def insert (fingerprint : Text) (platform : Platform)
    (displays : DisplayTopology F) : KnownDisplays F where
  members := Function.update known.members (fingerprintKey fingerprint)
    (some { platform, displays := snapshots displays })

def ofLink (inspection : InspectedPeer F) : KnownDisplays F :=
  let known : KnownDisplays F := { members := fun _ => none }
  let known := known.insert inspection.localFingerprint.fullHex inspection.localPlatform
    inspection.localDisplays
  known.insert inspection.peerFingerprint.fullHex inspection.peerPlatform inspection.peerDisplays

def get (member : GroupMember F) : Option (KnownMember F) :=
  known.members member.key

end KnownDisplays

/-! ## Displays that are the same monitor -/

def samePoint (left right : Point F) : Bool :=
  Scalar.same left.x right.x && Scalar.same left.y right.y

/-- Everything but the id, the name and the monitor's identity. -/
def sameGeometry (left right : DisplaySnapshot F) : Bool :=
  samePoint left.origin right.origin && samePoint left.size right.size &&
    left.nativeSize == right.nativeSize && singleSame left.scale right.scale &&
    left.primary == right.primary

def sameDisplayGeometry (left right : List (DisplaySnapshot F)) : Bool :=
  left.length == right.length &&
    left.all fun display => right.any fun candidate =>
      display.id == candidate.id && sameGeometry display candidate

/-! ## Fitting a record -/

/-- What is shown of a member now, when its displays or its platform changed. -/
def KnownDisplays.changed (member : GroupMember F) : Option (KnownMember F) :=
  (known.get member).filter fun live =>
    live.platform != member.platform || !sameDisplayGeometry member.displays live.displays

namespace GroupRecord

variable (record : GroupRecord F)

/-- Members shown with other displays or another platform than their entries hold. -/
def changedMembers : List (GroupMember F × KnownMember F) :=
  record.members.filterMap fun member => (known.changed member).map fun live => (member, live)

/-- Both link ends are members showing exactly the displays and platform their entries hold. -/
def fitsLink (inspection : InspectedPeer F) : Bool :=
  decide record.Valid &&
    ([inspection.localFingerprint, inspection.peerFingerprint].all fun fingerprint =>
      record.hasMember fingerprint.fullHex) &&
    (record.changedMembers (KnownDisplays.ofLink inspection)).isEmpty

/-- The labels the displays carry now. -/
def relabeled : GroupRecord F :=
  { record with
    members := record.members.map fun member =>
      match known.get member with
      | none => member
      | some live =>
        { member with
          displays := member.displays.map fun display =>
            match live.displays.find? fun now => now.id == display.id with
            | some now => { display with name := now.name }
            | none => display } }

end GroupRecord
end Monhop.Setup
