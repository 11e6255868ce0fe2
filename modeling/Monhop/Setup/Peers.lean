import Monhop.Setup.Adapt
import Monhop.Setup.FileRun

/-! # Peers and the setup file

Links propose layouts and tell summaries while the user edits the setup file.  A proposal is
checked and staged first, and written by a later commit that checks it again: the file may have
changed in between.  The setup file has one lock, so a write is one step; staging reads the file
without it, so staging takes three.

`Desk` is one computer: its file, its clock and what each peer's link holds.
-/

namespace Monhop.Setup

open Monhop.Core Library Protocol

/-- A proposal as its bytes spell it. -/
structure SharedGroup (F : Type) where
  version : Nat
  senderFingerprint : Text
  receiverFingerprint : Text
  record : GroupRecord F
  leftOut : Bool

def sharedGroupVersion : Nat := 3

inductive LinkRejectReason where
  | invalid
  | inspectionChanged
  | saveFailed
  | busy
  | cancelled

def PreferenceError.reject : PreferenceError → LinkRejectReason
  | .inspectionChanged => .inspectionChanged
  | .invalid => .invalid

variable {F : Type} [Format F]

/-! ## The checks -/

/-- The record a link peer proposed and whether its sender left something out.  Bytes that are
too long or spell no proposal are none. -/
def sharedGroupForLink (fresh : InspectedPeer F) :
    Option (SharedGroup F) → Except PreferenceError (GroupRecord F × Bool)
  | none => .error .invalid
  | some shared => do
    let here := fresh.localFingerprint.fullHex
    let there := fresh.peerFingerprint.fullHex
    let ends := (shared.senderFingerprint, shared.receiverFingerprint)
    ensure (shared.version == sharedGroupVersion) .invalid
    ensure (ends == (here, there) || ends == (there, here)) .inspectionChanged
    ensure (decide shared.record.Valid) .invalid
    ensure (shared.record.fitsLink fresh) .inspectionChanged
    pure (shared.record, shared.leftOut)

variable (file : SetupFile F)

/-- Sorted keys of this computer and every enabled one. -/
def activeMembers (here : Text) : List Text :=
  (sortBy id (file.enabled ++ [fingerprintKey here])).dedup

/-- Whether taking the record leaves the computers switched on as the user set them: a group
must be exactly them, and a pair may switch on its own computer but never another off. -/
def keepsEnabled (record : GroupRecord F) (file : SetupFile F) (here : Text) : Bool :=
  let members := record.memberKeys
  let active := activeMembers file here
  if members.length > 2 then members == active
  else active.all fun member => members.contains member

def sameTopology (first second : DisplayTopology F) : Bool :=
  first.displays.length == second.displays.length &&
    first.displays.all fun display => second.displays.any fun candidate =>
      display.id == candidate.id && display.nativeWidth == candidate.nativeWidth &&
        display.nativeHeight == candidate.nativeHeight &&
        samePoint display.logicalOrigin candidate.logicalOrigin &&
        samePoint display.logicalSize candidate.logicalSize &&
        singleSame display.scaleFactor candidate.scaleFactor &&
        display.isPrimary == candidate.isPrimary

def InspectedPeer.matches (held fresh : InspectedPeer F) : Bool :=
  held.localFingerprint == fresh.localFingerprint &&
    held.peerFingerprint == fresh.peerFingerprint &&
    held.localDevice == fresh.localDevice && held.peerDevice == fresh.peerDevice &&
    held.localPlatform == fresh.localPlatform && held.peerPlatform == fresh.peerPlatform &&
    held.interfaceId == fresh.interfaceId &&
    sameTopology held.localDisplays fresh.localDisplays &&
    sameTopology held.peerDisplays fresh.peerDisplays

/-! ## One computer -/

/-- A proposal whose revision was accepted, and the clock it was accepted at. -/
structure Staged (F : Type) where
  shared : SharedGroup F
  accepted : Nat

/-- What the links with one other computer hold. -/
structure PeerState (F : Type) where
  workerGeneration : Nat
  linkEpoch : Nat
  inspection : Option (InspectedPeer F)
  staged : Option (Staged F)
  /-- The file as the last commit left it. -/
  committed : Option (SetupFile F)

namespace PeerState

def discard (peer : PeerState F) : PeerState F := { peer with staged := none }

/-- Spends the link's epoch and drops its staged record. -/
def retirePersistence (peer : PeerState F) : PeerState F :=
  { peer with linkEpoch := peer.linkEpoch + 1, staged := none }

/-- A new worker with an epoch of its own. -/
def start (peer : PeerState F) : PeerState F :=
  { peer with workerGeneration := peer.workerGeneration + 1, linkEpoch := peer.linkEpoch + 1 }

def inspect (inspection : Option (InspectedPeer F)) (peer : PeerState F) : PeerState F :=
  { peer with inspection }

def complete (inspection : InspectedPeer F) (peer : PeerState F) : PeerState F :=
  { peer with inspection := some inspection, committed := none }

end PeerState

/-- A link worker: the computer it is with and the times it was started for. -/
structure Link where
  peer : CertificateFingerprint
  generation : Nat
  epoch : Nat

/-- A staging call under way; `checked` once it has read the file. -/
structure Staging (F : Type) where
  link : Link
  fresh : InspectedPeer F
  staged : Staged F
  checked : Bool

structure Desk (F : Type) where
  file : SetupFile F
  /-- The highest revision this computer made or saw, as its links read it. -/
  clock : Nat
  shutdown : Bool
  peers : CertificateFingerprint → PeerState F
  staging : List (Staging F)
  /-- Committed proposals whose completion the window has yet to handle. -/
  completions : List (CertificateFingerprint × Staged F)
  /-- Clocks of files written here that the links have yet to read. -/
  written : List Nat

inductive Action (F : Type) where
  /-- A proposal's first check; none is a proposal that cannot be read. -/
  | propose (link : Link) (fresh : InspectedPeer F) (shared : Option (SharedGroup F))
  /-- A staging call reads the file, which may fail. -/
  | checkFile (call : Nat) (readable : Bool)
  | store (call : Nat)
  /-- The link's commit; `disk` is whether reading and saving succeed. -/
  | commit (link : Link) (current : InspectedPeer F) (disk : Bool)
  | discard (peer : CertificateFingerprint)
  /-- The stamp a summary carries, if it can be read. -/
  | summary (peer : CertificateFingerprint) (summary : Option (Option Stamp))
  | complete (completion : Nat) (inspection : InspectedPeer F)
  /-- A local change of the file; `seen` is the clock as it was read before. -/
  | edit (seen : Nat) (change : Change F) (disk : Bool)
  | writeRecord (seen : Nat) (record : GroupRecord F) (disk : Bool)
  /-- The links read a clock written to the file. -/
  | mirror (written : Nat)
  | startLink (peer : CertificateFingerprint)
  | retire (peer : CertificateFingerprint)
  | inspect (peer : CertificateFingerprint) (inspection : Option (InspectedPeer F))
  | shutDown

variable (desk : Desk F)

namespace Desk

/-- A stop, a newer link or shutdown spent what this link was started for. -/
def linkRetired (link : Link) : Bool :=
  desk.shutdown || (desk.peers link.peer).workerGeneration != link.generation ||
    (desk.peers link.peer).linkEpoch != link.epoch

def setPeer (peer : CertificateFingerprint) (change : PeerState F → PeerState F) : Desk F :=
  { desk with
    peers := fun other => if other = peer then change (desk.peers peer) else desk.peers other }

/-! ### Staging -/

/-- The first part of staging: what the proposal and this computer's state decide. -/
def stageRecord (link : Link) (fresh : InspectedPeer F)
    (shared : Option (SharedGroup F)) : Except LinkRejectReason (GroupRecord F × Bool) := do
  let staged ← (sharedGroupForLink fresh shared).mapError PreferenceError.reject
  ensure (!desk.linkRetired link) .cancelled
  ensure ((desk.peers link.peer).inspection.all fun current => current.matches fresh)
    .inspectionChanged
  ensure (withinClockStep desk.clock staged.1.revision) .invalid
  pure staged

/-- The second part: what the file decides. -/
def stageFile (readable : Bool) (record : GroupRecord F) (here : Text) :
    Except LinkRejectReason Unit := do
  ensure (readable && !file.newer) .saveFailed
  ensure (keepsEnabled record file here) .invalid
  -- An older record with other content would undo a newer choice.
  ensure (file.activeGroup.all fun held =>
    decide (held.stamp ≤ record.stamp) || held.stamp.content == record.stamp.content) .busy

/-! ### Writing -/

/-- One load, edit and save; a refused edit or a failed save writes nothing. -/
def tryUpdate (disk : Bool) (edit : SetupFile F → Option (SetupFile F)) : Option (SetupFile F) :=
  if !disk || file.newer then none
  else (edit file).filter fun next => next.save.isOk

/-- The link's commit into the file as it is now. -/
def commitFile (seen : Nat) (record : GroupRecord F) (here : Text)
    (disk : Bool) : Option (SetupFile F) :=
  tryUpdate file disk fun file =>
    let file := file.observeClock seen
    if keepsEnabled record file here then (file.adopt here record).toOption.map (·.1) else none

/-- A local change; one that is refused writes nothing. -/
def editFile (seen : Nat) (change : Change F) (disk : Bool) : Option (SetupFile F) :=
  tryUpdate file disk fun file =>
    let file := file.observeClock seen
    match change with
    | .setEnabled fingerprint enabled => (file.setEnabled fingerprint enabled).toOption
    | change => some (file.apply change)

/-- A record made here, stamped as this computer's newest change, and a pause ends. -/
def writtenRecord (seen : Nat) (record : GroupRecord F) (here : Text)
    (disk : Bool) : Option (SetupFile F) :=
  tryUpdate file disk fun file => do
    let file := file.observeClock seen
    let record ← record.restamped (saturatingSucc u64Max file.clock) here
    ((file.resume).adopt here record).toOption.map (·.1)

/-! ### Steps -/

/-- A proposal that passes starts a staging call, which keeps the clock it was accepted at. -/
def propose (link : Link) (fresh : InspectedPeer F) (shared : Option (SharedGroup F)) : Desk F :=
  match shared, desk.stageRecord link fresh shared with
  | some shared, .ok _ =>
    { desk with
      staging := desk.staging ++
        [{ link, fresh, staged := { shared, accepted := desk.clock }, checked := false }] }
  | _, _ => desk

def checkFile (call : Nat) (readable : Bool) : Desk F :=
  match desk.staging[call]? with
  | none => desk
  | some staging =>
    match stageFile desk.file readable staging.staged.shared.record
        staging.fresh.localFingerprint.fullHex with
    | .ok _ => { desk with staging := desk.staging.set call { staging with checked := true } }
    | .error _ => { desk with staging := desk.staging.eraseIdx call }

def store (call : Nat) : Desk F :=
  match desk.staging[call]? with
  | none => desk
  | some staging =>
    let desk := { desk with staging := desk.staging.eraseIdx call }
    if !staging.checked || desk.linkRetired staging.link then desk
    else desk.setPeer staging.link.peer fun peer => { peer with staged := some staging.staged }

/-- A proposal is in the file; the window is told later. -/
def landed (peer : CertificateFingerprint) (staged : Staged F) (file : SetupFile F) : Desk F :=
  { desk with file, completions := desk.completions ++ [(peer, staged)] }.setPeer peer
    fun peer => { peer with committed := some file }

/-- What is staged is taken under the file lock, and gone even when it is then refused. -/
def commit (link : Link) (current : InspectedPeer F) (disk : Bool) : Desk F :=
  match desk.linkRetired link, (desk.peers link.peer).staged with
  | false, some staged =>
    let desk := desk.setPeer link.peer PeerState.discard
    let record := staged.shared.record.relabeled (KnownDisplays.ofLink current)
    match commitFile desk.file desk.clock record current.localFingerprint.fullHex disk with
    | none => desk
    | some file => desk.landed link.peer staged file
  | _, _ => desk

/-- A summary whose stamp runs far past the clock is dropped. -/
def summary : Option (Option Stamp) → Desk F
  | some (some stamp) =>
    if withinClockStep desk.clock stamp.revision then
      { desk with clock := max desk.clock stamp.revision }
    else desk
  | _ => desk

def complete (completion : Nat) (inspection : InspectedPeer F) : Desk F :=
  match desk.completions[completion]? with
  | none => desk
  | some (peer, staged) =>
    let desk := { desk with completions := desk.completions.eraseIdx completion }
    match sharedGroupForLink inspection (some staged.shared) with
    | .error _ => desk
    | .ok (record, _) =>
      let seen := ((desk.peers peer).committed.map (·.clock)).getD 0
      let desk := desk.setPeer peer (PeerState.complete inspection)
      { desk with clock := max (max desk.clock record.revision) seen }

/-- A file written here, its clock yet to be read. -/
def write : Desk F :=
  { desk with file, written := desk.written ++ [file.clock] }

def edit (seen : Nat) (change : Change F) (disk : Bool) : Desk F :=
  match editFile desk.file seen change disk with
  | none => desk
  | some file =>
    match change with
    -- A computer switched off may not be switched on again by a commit that is under way.
    | .setEnabled fingerprint false =>
      (desk.write file).setPeer fingerprint PeerState.retirePersistence
    | _ => desk.write file

def writeRecord (seen : Nat) (record : GroupRecord F) (here : Text) (disk : Bool) : Desk F :=
  match writtenRecord desk.file seen record here disk with
  | none => desk
  | some file => desk.write file

def after (here : CertificateFingerprint) (desk : Desk F) : Action F → Desk F
  | .propose link fresh shared => desk.propose link fresh shared
  | .checkFile call readable => desk.checkFile call readable
  | .store call => desk.store call
  | .commit link current disk => desk.commit link current disk
  | .discard peer => desk.setPeer peer PeerState.discard
  | .summary _ summary => desk.summary summary
  | .complete completion inspection => desk.complete completion inspection
  | .edit seen change disk => desk.edit seen change disk
  | .writeRecord seen record disk => desk.writeRecord seen record here.fullHex disk
  | .mirror written => { desk with clock := max desk.clock written }
  | .startLink peer => desk.setPeer peer PeerState.start
  | .retire peer => desk.setPeer peer PeerState.retirePersistence
  | .inspect peer inspection => desk.setPeer peer (PeerState.inspect inspection)
  | .shutDown => { desk with shutdown := true }

end Desk

namespace Action

/-- The computer a step is driven by, if it is another one. -/
def peer : Action F → Option CertificateFingerprint
  | .propose link _ _ => some link.peer
  | .checkFile call _ | .store call => (desk.staging[call]?).map (·.link.peer)
  | .commit link _ _ => some link.peer
  | .discard peer => some peer
  | .summary peer _ => some peer
  | .complete completion _ => (desk.completions[completion]?).map (·.1)
  | _ => none

/-- The clock as it was when the message behind a step was accepted. -/
def acceptedAt : Action F → Nat
  | .checkFile call _ | .store call => ((desk.staging[call]?).map (·.staged.accepted)).getD desk.clock
  | .commit link _ _ => ((desk.peers link.peer).staged.map (·.accepted)).getD desk.clock
  | .complete completion _ =>
    ((desk.completions[completion]?).map (·.2.accepted)).getD desk.clock
  | _ => desk.clock

/-- A link is with another computer and shows this computer and its own peer; a clock read
before is not ahead of the clock; local changes are not adoptions; and a clock mirrored was
written. -/
def Allowed (here : CertificateFingerprint) (desk : Desk F) : Action F → Prop
  | .propose link fresh _ =>
    link.peer ≠ here ∧ fresh.localFingerprint = here ∧ fresh.peerFingerprint = link.peer
  | .commit link current _ => current.localFingerprint = here ∧ current.peerFingerprint = link.peer
  | .edit seen change _ => seen ≤ desk.clock ∧ change.isLocal = true
  | .writeRecord seen _ _ => seen ≤ desk.clock
  | .mirror written => written ∈ desk.written
  | _ => True

end Action

/-- The runs of one computer that starts with a valid file and nothing staged. -/
def deskRuns (F : Type) [Format F] (here : CertificateFingerprint) : Lts (Desk F) (Action F) where
  init desk :=
    desk.file.validate = .ok () ∧ desk.staging = [] ∧ desk.completions = [] ∧ desk.written = [] ∧
      ∀ peer, (desk.peers peer).staged = none ∧ (desk.peers peer).committed = none
  step desk action next := action.Allowed here desk ∧ next = desk.after here action

end Monhop.Setup
