import Monhop.Core.Types
import Monhop.Library.Calls

/-! # Touch sessions stay on their route

One multi-finger touch session keeps the route it started on, so a gesture that spans a crossing
never splits between the two computers.

* `Within` — which session is open after how many records, said of the records alone.
* `GestureLatch.after_within` — the latch is open exactly on that session.
* `gesture_sessions_never_split` — what every record of every session gets.
-/

namespace Monhop.Core

open Library Option

/-- A session with no record for this long closes itself, so a lost end cannot pin its route. -/
def TOUCH_STREAM_IDLE : Duration := .fromMillis 500

/-- How a native record relates to the touch session. -/
inductive TouchRecord where
  /-- Starts a session, replacing any still open: a new session latches the route now. -/
  | opens
  | continues
  /-- Belongs to the open session and ends it. -/
  | closes
  /-- A whole gesture in one record. -/
  | standalone
  deriving DecidableEq

/-- What the capture callback does with one record. -/
structure LatchDecision where
  /-- Local apps receive the record. -/
  deliverLocally : Bool
  /-- The record is queued under the route now: forwarded when remote, seen only by take-back
  when local. -/
  publish : Bool
  deriving DecidableEq

def LatchDecision.routed (latchedRemote remote : Bool) : LatchDecision :=
  { deliverLocally := !latchedRemote, publish := latchedRemote == remote }

structure OpenSession where
  remote : Bool
  last : Duration

/-- Records outside an open session use the route now. -/
structure GestureLatch where
  session : Option OpenSession

variable (latch : GestureLatch)

namespace GestureLatch

def new : GestureLatch := ⟨none⟩

/-- The open session's route; none when no session is open at `now`. -/
def latched (now : Duration) : Option Bool :=
  (latch.session.filter fun session => now - session.last < TOUCH_STREAM_IDLE).map OpenSession.remote

def expire (now : Duration) : GestureLatch :=
  if (latch.latched now).isNone then ⟨none⟩ else latch

/-- Decides one record captured at `now` while the capture route is `remote`. -/
def decide (record : TouchRecord) (remote : Bool) (now : Duration) : LatchDecision × GestureLatch :=
  let latch := latch.expire now
  match record with
  | .opens => (.routed remote remote, ⟨some { remote, last := now }⟩)
  | .continues | .closes =>
    match latch.session with
    | none => (.routed remote remote, latch)
    | some session =>
      (.routed session.remote remote,
        if record = .closes then ⟨none⟩ else ⟨some { session with last := now }⟩)
  | .standalone => (.routed remote remote, latch)

end GestureLatch

/-! ## Sequences of records -/

structure TouchCall where
  record : TouchRecord
  remote : Bool
  now : Duration

variable {session : OpenSession}

namespace GestureLatch

def take (call : TouchCall) : LatchDecision × GestureLatch :=
  latch.decide call.record call.remote call.now

def after (calls : List TouchCall) : GestureLatch := afterCalls take .new calls

/-- What becomes of the record at `index`. -/
def decision (calls : List TouchCall) (index : Nat) : Option LatchDecision :=
  replyAt take .new calls index

/-- A session stays open over a record that comes in time. -/
theorem expire_open {now : Duration} (inTime : now - session.last < TOUCH_STREAM_IDLE) :
    (⟨some session⟩ : GestureLatch).expire now = ⟨some session⟩ := by
  simp [expire, latched, Option.filter, inTime]

theorem expire_late {now : Duration} (late : ¬ now - session.last < TOUCH_STREAM_IDLE) :
    (⟨some session⟩ : GestureLatch).expire now = ⟨none⟩ := by
  simp [expire, latched, Option.filter, late]

end GestureLatch

/-- After the first `count` records the session opened by the record `first` is open, and its
latest record came at `last`: nothing opened another or closed it since, and every record came
in time. -/
inductive Within (calls : List TouchCall) (first : Nat) : Nat → Duration → Prop where
  | opened {call : TouchCall} (here : calls[first]? = some call) (opens : call.record = .opens) :
      Within calls first (first + 1) call.now
  | continued {count : Nat} {last : Duration} {call : TouchCall} (before : Within calls first count last)
      (here : calls[count]? = some call) (inTime : call.now - last < TOUCH_STREAM_IDLE)
      (continues : call.record = .continues) : Within calls first (count + 1) call.now
  | passed {count : Nat} {last : Duration} {call : TouchCall} (before : Within calls first count last)
      (here : calls[count]? = some call) (inTime : call.now - last < TOUCH_STREAM_IDLE)
      (standalone : call.record = .standalone) : Within calls first (count + 1) last

/-- The record at `index` is one of the session the record `first` opened. -/
inductive OfSession (calls : List TouchCall) (first : Nat) : Nat → Prop where
  | opening {call : TouchCall} (here : calls[first]? = some call) (opens : call.record = .opens) :
      OfSession calls first first
  | following {index : Nat} {last : Duration} {call : TouchCall} (before : Within calls first index last)
      (here : calls[index]? = some call) (inTime : call.now - last < TOUCH_STREAM_IDLE)
      (kind : call.record = .continues ∨ call.record = .closes) : OfSession calls first index

namespace GestureLatch

variable {calls : List TouchCall} {first count index : Nat} {last : Duration}

/-- The latch holds a session that is open, under the route its opening record found. -/
theorem after_within (within : Within calls first count last) {opening : TouchCall}
    (opened : calls[first]? = some opening) :
    after (calls.take count) = ⟨some ⟨opening.remote, last⟩⟩ := by
  induction within with
  | @opened call here opens =>
    obtain rfl : call = opening := some.inj (here.symm.trans opened)
    rw [after, afterCalls_take_succ here, take, opens]
    rfl
  | @continued count last call before here inTime continues ih =>
    rw [after, afterCalls_take_succ here, ← after, ih, take, continues, decide, expire_open inTime]
    rfl
  | @passed count last call before here inTime standalone ih =>
    rw [after, afterCalls_take_succ here, ← after, ih, take, standalone, decide, expire_open inTime]

/-- The only ways a record leaves a session open. -/
theorem take_session {latch : GestureLatch} {call : TouchCall}
    (found : (latch.take call).2.session = some session) :
    (call.record = .opens ∧ session = ⟨call.remote, call.now⟩) ∨
      ∃ old, latch.session = some old ∧ call.now - old.last < TOUCH_STREAM_IDLE ∧
        (call.record = .continues ∧ session = ⟨old.remote, call.now⟩ ∨
          call.record = .standalone ∧ session = old) := by
  obtain ⟨record, remote, now⟩ := call
  obtain ⟨held⟩ := latch
  cases held with
  | none => cases record <;> cases found; exact .inl ⟨rfl, rfl⟩
  | some old =>
    by_cases inTime : now - old.last < TOUCH_STREAM_IDLE
    · rw [take, decide.eq_def, expire_open inTime] at found
      cases record with
      | opens => exact .inl ⟨rfl, (some.inj found).symm⟩
      | continues => exact .inr ⟨old, rfl, inTime, .inl ⟨rfl, (some.inj found).symm⟩⟩
      | closes => cases found
      | standalone => exact .inr ⟨old, rfl, inTime, .inr ⟨rfl, (some.inj found).symm⟩⟩
    · rw [take, decide.eq_def, expire_late inTime] at found
      cases record with
      | opens => exact .inl ⟨rfl, (some.inj found).symm⟩
      | continues | closes | standalone => cases found

theorem within_of_after
    (found : (after (calls.take count)).session = some session) (inside : count ≤ calls.length) :
    ∃ first opening, Within calls first count session.last ∧ calls[first]? = some opening ∧
      opening.remote = session.remote := by
  induction count generalizing session with
  | zero => cases found
  | succ count ih =>
    have here : calls[count]? = some calls[count] := List.getElem?_eq_getElem inside
    rw [after, afterCalls_take_succ here] at found
    rcases take_session found with ⟨opens, rfl⟩ | ⟨old, before, inTime, change⟩
    · exact ⟨count, _, .opened here opens, here, rfl⟩
    · obtain ⟨first, opening, within, opened, route⟩ := ih before (by omega)
      rcases change with ⟨continues, rfl⟩ | ⟨standalone, rfl⟩
      · exact ⟨first, opening, .continued within here inTime continues, opened, route⟩
      · exact ⟨first, opening, .passed within here inTime standalone, opened, route⟩

/-- A record of a session is decided by the route its opening record found. -/
theorem decision_ofSession (member : OfSession calls first index) {opening call : TouchCall}
    (opened : calls[first]? = some opening) (here : calls[index]? = some call) :
    decision calls index = some (.routed opening.remote call.remote) := by
  rw [decision, replyAt_eq here, ← after]
  cases member with
  | @opening start found opens =>
    obtain rfl : start = call := some.inj (found.symm.trans here)
    obtain rfl : start = opening := some.inj (found.symm.trans opened)
    rw [take, opens]
    rfl
  | @following _ last other before found inTime kind =>
    obtain rfl : other = call := some.inj (found.symm.trans here)
    rw [after_within before opened]
    rcases kind with continues | closes
    · rw [take, continues, decide, expire_open inTime]
    · rw [take, closes, decide, expire_open inTime]

end GestureLatch

/-- Gesture sessions never split.  For every sequence of records, routes and times: every record
of one session gets the local delivery its opening record got, and is published exactly while the
route is the one latched then; the latch is open after a number of records exactly on a session
that is open then, under its latched route; and a session open before a record is open after it
unless the record closes it, opens another or comes after the idle time. -/
theorem gesture_sessions_never_split (calls : List TouchCall) :
    (∀ first opening index call, calls[first]? = some opening → calls[index]? = some call →
      OfSession calls first index → ∃ decision, GestureLatch.decision calls index = some decision ∧
        decision.deliverLocally = !opening.remote ∧
        (decision.publish = true ↔ call.remote = opening.remote)) ∧
    (∀ count ≤ calls.length, ∀ session,
      (GestureLatch.after (calls.take count)).session = some session ↔
        ∃ first opening, Within calls first count session.last ∧ calls[first]? = some opening ∧
          opening.remote = session.remote) ∧
    (∀ first count last call, Within calls first count last → calls[count]? = some call →
      (∃ later, Within calls first (count + 1) later) ∨ call.record = .closes ∨
        call.record = .opens ∨ TOUCH_STREAM_IDLE ≤ call.now - last) := by
  refine ⟨?_, ?_, ?_⟩
  · intro first opening index call opened here member
    refine ⟨_, GestureLatch.decision_ofSession member opened here, rfl, ?_⟩
    exact beq_iff_eq.trans eq_comm
  · intro count inside session
    constructor
    · intro found
      exact GestureLatch.within_of_after found inside
    · rintro ⟨first, opening, within, opened, route⟩
      rw [GestureLatch.after_within within opened, route]
  · intro first count last call within here
    by_cases inTime : call.now - last < TOUCH_STREAM_IDLE
    · cases kind : call.record with
      | opens => exact .inr (.inr (.inl rfl))
      | continues => exact .inl ⟨_, .continued within here inTime kind⟩
      | closes => exact .inr (.inl rfl)
      | standalone => exact .inl ⟨_, .passed within here inTime kind⟩
    · exact .inr (.inr (.inr (Nat.not_lt.mp inTime)))

/-- A session opened on the remote route, kept over a flip to local and back. -/
example :
    (List.range 4).map (GestureLatch.decision [⟨.opens, true, 0⟩, ⟨.continues, false, 5⟩,
      ⟨.standalone, false, 6⟩, ⟨.closes, true, 9⟩]) =
      [some ⟨false, true⟩, some ⟨false, false⟩, some ⟨true, true⟩, some ⟨false, true⟩] := by
  decide

end Monhop.Core
