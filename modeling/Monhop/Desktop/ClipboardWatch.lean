import Monhop.Core.Types
import Monhop.Library.Transition

/-! # The clipboard watcher

The watcher polls the clipboard's change marker, reads what other programs copied, and writes what
peers sent unless the user copied something since that transfer began.  When a change happened is
inferred from the poll that noticed its marker, so a change that slips in between the marker check
and the read is taken for the one the poll noticed: `judge` records its marker and not its time.
A write looks at the marker once more, but on macOS nothing keeps other programs out after that.
Without such changes every change up to a recorded marker is covered by the recorded time
(`Covers`), and no write lands on a copy newer than its transfer.
-/

namespace Monhop.Desktop

open Monhop.Core Library List

/-- One read, between two looks at the change marker. -/
structure Snapshot (Key : Type) where
  before : Nat
  after : Nat
  /-- Whether the item carries the source marker. -/
  fromMonHop : Bool
  /-- The key of content fit to go to peers. -/
  content : Option Key

inductive Observation where
  | unchanged
  /-- The change is MonHop's own last write. -/
  | ownWrite
  /-- Something on this computer changed the clipboard. -/
  | changed

inductive Verdict (Key : Type) where
  | retry
  | received
  | repeated
  /-- Empty, or skipped. -/
  | nothing
  | share (key : Key)

structure EchoGuard (Key : Type) where
  writes : Nat
  lastSeen : Nat
  ownWrite : Option Nat
  localChangeAt : Option Duration
  lastContent : Option Key

namespace EchoGuard

variable {Key : Type} [DecidableEq Key]

def new (baseline : Nat) : EchoGuard Key :=
  { writes := 0, lastSeen := baseline, ownWrite := none, localChangeAt := none, lastContent := none }

variable (guard : EchoGuard Key)

def observe (marker : Nat) (now : Duration) : Observation × EchoGuard Key :=
  if marker = guard.lastSeen then (.unchanged, guard)
  else if guard.ownWrite = some marker then (.ownWrite, { guard with lastSeen := marker })
  else (.changed, { guard with lastSeen := marker, localChangeAt := some now })

def judge (snapshot : Snapshot Key) : Verdict Key × EchoGuard Key :=
  if snapshot.before ≠ snapshot.after then (.retry, guard)
  else
    let guard := { guard with lastSeen := snapshot.after }
    if snapshot.fromMonHop then (.received, guard)
    else
      match snapshot.content with
      | none => (.nothing, guard)
      | some key =>
        if guard.lastContent = some key then (.repeated, guard)
        else (.share key, { guard with lastContent := some key })

/-- The number of the source marker to write beside the content. -/
def beginApply (key : Key) : Nat × EchoGuard Key :=
  (guard.writes + 1, { guard with lastContent := some key, writes := guard.writes + 1 })

def applied (markerAfter : Nat) : EchoGuard Key :=
  { guard with ownWrite := some markerAfter }

/-- Nothing was copied since the transfer started, as far as the guard knows, and it has seen the
clipboard as it is. -/
def mayApply (startedAt : Duration) (currentMarker : Nat) : Bool :=
  (currentMarker == guard.lastSeen || guard.ownWrite == some currentMarker) &&
    guard.localChangeAt.all fun time => decide (time < startedAt)

end EchoGuard

structure ApplyJob (Key : Type) where
  startedAt : Duration
  key : Key

/-- Where the watcher stands in its loop, with the job it took. -/
inductive Stage (Key : Type) where
  | looping
  | polling (job : Option (ApplyJob Key))
  /-- The marker is read, the clock not yet. -/
  | observing (job : Option (ApplyJob Key)) (marker : Nat)
  | reading (job : Option (ApplyJob Key))
  /-- The read began at marker `before`. -/
  | opened (job : Option (ApplyJob Key)) (before : Nat)
  | polled (job : Option (ApplyJob Key))
  /-- The write was approved at marker `expected`. -/
  | writing (job : ApplyJob Key) (expected : Nat)
  /-- The adapter found the marker as expected. -/
  | checked (job : ApplyJob Key)
  | emptied (job : ApplyJob Key)
  /-- The item is in place, `inside` the marker right after it. -/
  | written (inside : Nat)

/-- A write, with the times of the other programs' changes before it. -/
structure Paste where
  startedAt : Duration
  changes : List Duration

structure Watch (Key : Type) where
  now : Duration
  marker : Nat
  guard : EchoGuard Key
  unread : Bool
  stage : Stage Key
  /-- The other programs' changes: the marker each left, and when. -/
  changes : List (Nat × Duration)
  pastes : List Paste

inductive WatchEvent (Key : Type) where
  | elapse (now : Duration)
  /-- Another program changes the clipboard, which moves the marker. -/
  | change (moved : Nat)
  | take (job : Option (ApplyJob Key))
  | look
  | observe
  /-- Nobody wants content, the clipboard is busy, or the read fails. -/
  | giveUp (unread : Bool)
  | openRead
  | finishRead (fromMonHop : Bool) (content : Option Key)
  | rest
  /-- The job is weighed, and the switch is looked at. -/
  | approve (watching : Bool)
  /-- The write failed before it changed anything. -/
  | abandon
  | check
  | empty (moved : Nat)
  | place (moved : Nat)
  /-- The write failed midway. -/
  | spoil (moved : Nat)
  /-- Windows adds the formats it makes itself. -/
  | close (moved : Nat)
  /-- The write returns the marker it finds or, on Windows when that may be another program's, the
  one inside. -/
  | recordWrite (settled : Bool)

namespace Watch

variable {Key : Type} [DecidableEq Key]

def next (watch : Watch Key) (event : WatchEvent Key) : Option (Watch Key) :=
  match event, watch.stage with
  | .elapse now, _ => if now < watch.now then none else some { watch with now }
  | .change moved, _ =>
    if moved = 0 then none
    else
      let marker := watch.marker + moved
      some { watch with marker, changes := watch.changes ++ [(marker, watch.now)] }
  | .take job, .looping =>
    if job.all fun job => decide (job.startedAt ≤ watch.now) then
      some { watch with stage := .polling job } else none
  | .look, .polling job => some { watch with stage := .observing job watch.marker }
  | .observe, .observing job marker =>
    match watch.guard.observe marker watch.now with
    | (.ownWrite, guard) => some { watch with guard, unread := false, stage := .polled job }
    | (.unchanged, guard) =>
      if watch.unread then some { watch with guard, stage := .reading job }
      else some { watch with guard, stage := .polled job }
    | (.changed, guard) => some { watch with guard, stage := .reading job }
  | .giveUp unread, .reading job => some { watch with unread, stage := .polled job }
  | .giveUp unread, .opened job _ => some { watch with unread, stage := .polled job }
  | .openRead, .reading job => some { watch with stage := .opened job watch.marker }
  | .finishRead fromMonHop content, .opened job before =>
    let snapshot := { before, after := watch.marker, fromMonHop, content }
    some { watch with
      guard := (watch.guard.judge snapshot).2, unread := false, stage := .polled job }
  | .rest, .polled none => some { watch with stage := .looping }
  | .approve watching, .polled (some job) =>
    if watch.guard.mayApply job.startedAt watch.marker && watching then
      some { watch with
        guard := (watch.guard.beginApply job.key).2, stage := .writing job watch.marker }
    else some { watch with stage := .looping }
  | .abandon, .writing _ _ | .abandon, .checked _ => some { watch with stage := .looping }
  | .check, .writing job expected =>
    some { watch with stage := if watch.marker = expected then .checked job else .looping }
  | .empty moved, .checked job =>
    some { watch with marker := watch.marker + moved, stage := .emptied job }
  | .place moved, .emptied job =>
    some { watch with
      marker := watch.marker + moved, stage := .written (watch.marker + moved)
      pastes := watch.pastes ++ [⟨job.startedAt, watch.changes.map Prod.snd⟩] }
  | .spoil moved, .emptied _ =>
    some { watch with marker := watch.marker + moved, stage := .looping }
  | .close moved, .written inside =>
    some { watch with marker := watch.marker + moved, stage := .written inside }
  | .recordWrite settled, .written inside =>
    let marker := if settled then watch.marker else inside
    some { watch with guard := watch.guard.applied marker, stage := .looping }
  | _, _ => none

/-- Sharing has just started. -/
def Initial (watch : Watch Key) : Prop :=
  watch.guard = .new watch.marker ∧ watch.stage = .looping ∧ watch.changes = [] ∧ watch.pastes = []

def lts (Key : Type) [DecidableEq Key] : Lts (Watch Key) (WatchEvent Key) := .ofNext Initial next

/-- No other program changes the clipboard between the marker check and the read it leads to, nor
from a write's own look at the marker to the look after it. -/
def Undisturbed (watch : Watch Key) : WatchEvent Key → Prop
  | .change _ =>
    match watch.stage with
    | .observing _ _ | .reading _ | .checked _ | .emptied _ | .written _ => False
    | _ => True
  | _ => True

/-- Every change up to `marker` is covered by the time the guard recorded. -/
def Covers (watch : Watch Key) (marker : Nat) : Prop :=
  marker ≤ watch.marker ∧ ∀ change ∈ watch.changes, change.1 ≤ marker →
    ∃ time, watch.guard.localChangeAt = some time ∧ change.2 ≤ time

/-- The job began after the time the guard recorded. -/
def Newer (watch : Watch Key) (job : ApplyJob Key) : Prop :=
  ∀ time, watch.guard.localChangeAt = some time → time < job.startedAt

/-- What each stage knows. -/
def Knows (watch : Watch Key) : Prop :=
  match watch.stage with
  | .observing _ marker => marker = watch.marker
  | .reading _ => watch.Covers watch.marker
  | .opened _ before => watch.Covers before
  | .writing job expected => watch.Covers expected ∧ watch.Newer job
  | .checked job | .emptied job => watch.Covers watch.marker ∧ watch.Newer job
  | .written inside => watch.Covers inside ∧ watch.Covers watch.marker
  | _ => True

structure Kept (watch : Watch Key) : Prop where
  past : ∀ change ∈ watch.changes, change.1 ≤ watch.marker ∧ change.2 ≤ watch.now
  seen : watch.Covers watch.guard.lastSeen
  own : ∀ marker, watch.guard.ownWrite = some marker → watch.Covers marker
  knows : watch.Knows
  newest : ∀ paste ∈ watch.pastes, ∀ time ∈ paste.changes, time < paste.startedAt

variable {watch after : Watch Key} {marker : Nat}

theorem judge_spec (guard : EchoGuard Key) (snapshot : Snapshot Key) :
    (guard.judge snapshot).2.ownWrite = guard.ownWrite ∧
      (guard.judge snapshot).2.localChangeAt = guard.localChangeAt ∧
      ((guard.judge snapshot).2.lastSeen = guard.lastSeen ∨
        snapshot.before = snapshot.after ∧ (guard.judge snapshot).2.lastSeen = snapshot.after) := by
  unfold EchoGuard.judge
  split
  · exact ⟨rfl, rfl, .inl rfl⟩
  next same =>
  refine ⟨?_, ?_, .inr ⟨not_not.mp same, ?_⟩⟩ <;> (dsimp only; repeat' split) <;> rfl

omit [DecidableEq Key]

/-- Another marker, guard and set of changes with the same time recorded and the same changes up
to the marker. -/
theorem Covers.mono (covers : watch.Covers marker) (moved : watch.marker ≤ after.marker)
    (time : after.guard.localChangeAt = watch.guard.localChangeAt)
    (same : ∀ change ∈ after.changes, change.1 ≤ marker → change ∈ watch.changes) :
    after.Covers marker := by
  refine ⟨Nat.le_trans covers.1 moved, fun change member below => ?_⟩
  rw [time]
  exact covers.2 change (same change member below) below

section
variable (kept : watch.Kept)
include kept

/-- The moment of a poll covers everything so far. -/
theorem Kept.covers_now (below : marker ≤ watch.marker) {guard : EchoGuard Key}
    (time : guard.localChangeAt = some watch.now) {unread : Bool} {stage : Stage Key} :
    Covers { watch with guard, unread, stage } marker :=
  ⟨below, fun change member _ => ⟨_, time, (kept.past change member).2⟩⟩

theorem Kept.restage {unread : Bool} {stage : Stage Key}
    (knows : Knows { watch with unread, stage }) : Kept { watch with unread, stage } :=
  ⟨kept.past, kept.seen, kept.own, knows, kept.newest⟩

theorem Kept.change {moved : Nat} (positive : moved ≠ 0)
    (undisturbed : Undisturbed watch (.change moved)) :
    Kept { watch with
      marker := watch.marker + moved
      changes := watch.changes ++ [(watch.marker + moved, watch.now)] } := by
  have covers : ∀ {marker}, watch.Covers marker → Covers { watch with
      marker := watch.marker + moved
      changes := watch.changes ++ [(watch.marker + moved, watch.now)] } marker := by
    intro marker covered
    refine covered.mono (Nat.le_add_right ..) rfl fun change member below => ?_
    rcases mem_append.mp member with old | new
    · exact old
    · have := covered.1
      rw [mem_singleton.mp new] at below
      omega
  refine ⟨forall_mem_append.mpr ⟨fun change member => ?_, forall_mem_singleton.mpr
    ⟨Nat.le_refl _, Nat.le_refl _⟩⟩, covers kept.seen, fun marker own => covers (kept.own marker own),
    ?_, kept.newest⟩
  · exact (kept.past change member).imp_left Nat.le_add_right_of_le
  · have knows := kept.knows
    obtain ⟨now, marker, guard, unread, stage, changes, pastes⟩ := watch
    cases stage with
    | observing | reading | checked | emptied | written => exact undisturbed.elim
    | opened job before => exact covers knows
    | writing job expected => exact ⟨covers knows.1, knows.2⟩
    | looping | polling | polled => trivial

/-- A write moves the marker, and with it whatever covered everything. -/
theorem Kept.covers_moved (covers : watch.Covers watch.marker) {moved : Nat} {stage : Stage Key}
    {pastes : List Paste} :
    Covers { watch with marker := watch.marker + moved, stage, pastes } (watch.marker + moved) :=
  ⟨Nat.le_refl _, fun change member _ => covers.2 change member (kept.past change member).1⟩

theorem Kept.move {moved : Nat} {stage : Stage Key} {pastes : List Paste}
    (knows : Knows { watch with marker := watch.marker + moved, stage, pastes })
    (newest : ∀ paste ∈ pastes, ∀ time ∈ paste.changes, time < paste.startedAt) :
    Kept { watch with marker := watch.marker + moved, stage, pastes } where
  past change member := (kept.past change member).imp_left Nat.le_add_right_of_le
  seen := kept.seen.imp_left Nat.le_add_right_of_le
  own marker written := (kept.own marker written).imp_left Nat.le_add_right_of_le
  knows := knows
  newest := newest

/-- Nothing the guard judges by changes as the write begins. -/
theorem Kept.approve {job : ApplyJob Key}
    (allowed : watch.guard.mayApply job.startedAt watch.marker = true) :
    Kept { watch with
      guard := (watch.guard.beginApply job.key).2, stage := .writing job watch.marker } := by
  simp only [EchoGuard.mayApply, Bool.and_eq_true, Bool.or_eq_true, beq_iff_eq, Option.all_eq_true,
    decide_eq_true_eq] at allowed
  refine ⟨kept.past, kept.seen, kept.own, ⟨?_, allowed.2⟩, kept.newest⟩
  rcases allowed.1 with seen | own
  · rw [seen]
    exact seen ▸ kept.seen
  · exact kept.own _ own

theorem Kept.place {job : ApplyJob Key} (covers : watch.Covers watch.marker)
    (newer : watch.Newer job) {moved : Nat} :
    Kept { watch with
      marker := watch.marker + moved, stage := .written (watch.marker + moved)
      pastes := watch.pastes ++ [⟨job.startedAt, watch.changes.map Prod.snd⟩] } := by
  refine kept.move ⟨kept.covers_moved covers, kept.covers_moved covers⟩ (forall_mem_append.mpr
    ⟨kept.newest, forall_mem_singleton.mpr fun time among => ?_⟩)
  obtain ⟨change, member, rfl⟩ := mem_map.mp among
  obtain ⟨noticed, recorded, le⟩ := covers.2 change member (kept.past change member).1
  exact Nat.lt_of_le_of_lt le (newer noticed recorded)

end

theorem Kept.initial (initial : watch.Initial) : watch.Kept := by
  obtain ⟨guard, stage, changes, pastes⟩ := initial
  refine ⟨?_, ⟨?_, ?_⟩, ?_, ?_, ?_⟩
  · simp [changes]
  · rw [guard]
    exact Nat.le_refl _
  · simp [changes]
  · rw [guard]
    nofun
  · rw [Knows, stage]
    trivial
  · simp [pastes]

variable [DecidableEq Key]

theorem Kept.observe (kept : watch.Kept) {job : Option (ApplyJob Key)}
    (stage : watch.stage = .observing job marker)
    (stepped : watch.next .observe = some after) : after.Kept := by
  have here : marker = watch.marker := by
    have knows := kept.knows
    rwa [Knows, stage] at knows
  simp only [next, stage, EchoGuard.observe] at stepped
  by_cases same : marker = watch.guard.lastSeen
  · rw [if_pos same] at stepped
    dsimp only at stepped
    split at stepped <;> cases stepped
    · have seen : watch.Covers watch.marker := by
        rw [← here, same]
        exact kept.seen
      exact kept.restage seen
    · exact kept.restage trivial
  rw [if_neg same] at stepped
  by_cases own : watch.guard.ownWrite = some marker
  · rw [if_pos own] at stepped
    cases stepped
    exact ⟨kept.past, kept.own marker own, kept.own, trivial, kept.newest⟩
  · rw [if_neg own] at stepped
    cases stepped
    exact ⟨kept.past, kept.covers_now (Nat.le_of_eq here) rfl,
      fun other written => kept.covers_now (kept.own other written).1 rfl,
      kept.covers_now (Nat.le_refl _) rfl, kept.newest⟩

theorem Kept.finishRead (kept : watch.Kept) {job : Option (ApplyJob Key)} {before : Nat}
    (stage : watch.stage = .opened job before) (fromMonHop : Bool) (content : Option Key) :
    Kept { watch with
      guard := (watch.guard.judge { before, after := watch.marker, fromMonHop, content }).2
      unread := false, stage := .polled job } := by
  obtain ⟨own, time, seen⟩ :=
    judge_spec watch.guard { before, after := watch.marker, fromMonHop, content }
  have knows : watch.Covers before := by
    have knows := kept.knows
    rwa [Knows, stage] at knows
  have covers : ∀ {marker}, watch.Covers marker → Covers { watch with
      guard := (watch.guard.judge { before, after := watch.marker, fromMonHop, content }).2
      unread := false, stage := .polled job } marker :=
    fun covered => covered.mono (Nat.le_refl _) time fun _ member _ => member
  refine ⟨kept.past, ?_, fun marker written => covers (kept.own marker (own ▸ written)), trivial,
    kept.newest⟩
  rcases seen with same | ⟨still, moved⟩
  · rw [same]
    exact covers kept.seen
  · rw [moved, ← still]
    exact covers knows

theorem Kept.step {event : WatchEvent Key} (kept : watch.Kept)
    (undisturbed : watch.Undisturbed event) (stepped : watch.next event = some after) :
    after.Kept := by
  have knows := kept.knows
  have whole := stepped
  unfold next at stepped
  split at stepped
  · split at stepped
    · cases stepped
    next later =>
    cases stepped
    exact { kept with past := fun change member =>
      ⟨(kept.past change member).1, Nat.le_trans (kept.past change member).2 (Nat.not_lt.mp later)⟩ }
  · split at stepped
    · cases stepped
    next positive =>
    cases stepped
    exact kept.change positive undisturbed
  · split at stepped
    · cases stepped
      exact kept.restage trivial
    · cases stepped
  · cases stepped
    exact kept.restage rfl
  · next stage => exact kept.observe stage whole
  · cases stepped
    exact kept.restage trivial
  · cases stepped
    exact kept.restage trivial
  · next stage =>
    rw [Knows, stage] at knows
    cases stepped
    exact kept.restage knows
  · next stage =>
    cases stepped
    exact kept.finishRead stage _ _
  · cases stepped
    exact kept.restage trivial
  · split at stepped
    · next allowed =>
      cases stepped
      exact kept.approve (Bool.and_eq_true_iff.mp allowed).1
    · cases stepped
      exact kept.restage trivial
  · cases stepped
    exact kept.restage trivial
  · cases stepped
    exact kept.restage trivial
  · next stage =>
    rw [Knows, stage] at knows
    cases stepped
    split
    · next same =>
      have covers : watch.Covers watch.marker := same ▸ knows.1
      exact kept.restage ⟨covers, knows.2⟩
    · exact kept.restage trivial
  · next stage =>
    rw [Knows, stage] at knows
    cases stepped
    exact kept.move ⟨kept.covers_moved knows.1, knows.2⟩ kept.newest
  · next stage =>
    rw [Knows, stage] at knows
    cases stepped
    exact kept.place knows.1 knows.2
  · cases stepped
    exact kept.move trivial kept.newest
  · next stage =>
    rw [Knows, stage] at knows
    cases stepped
    exact kept.move ⟨knows.1.imp_left Nat.le_add_right_of_le, kept.covers_moved knows.2⟩ kept.newest
  · next stage =>
    rw [Knows, stage] at knows
    cases stepped
    refine ⟨kept.past, kept.seen, fun marker written => ?_, trivial, kept.newest⟩
    cases Option.some.inj written
    split
    · exact knows.2
    · exact knows.1
  · cases stepped

theorem kept_of_reachable (reachable : ((lts Key).restrict Undisturbed).Reachable watch) :
    watch.Kept :=
  reachable.invariant Kept (fun _ => Kept.initial) fun _ _ _ kept (step : _ ∧ _) =>
    kept.step step.1 step.2

end Watch

namespace WatchRun

open Watch

/-- The watcher as sharing starts, at marker 5. -/
def atStart : Watch Nat :=
  { now := 0, marker := 5, guard := .new 5, unread := false, stage := .looping, changes := []
    pastes := [] }

end WatchRun
end Monhop.Desktop
