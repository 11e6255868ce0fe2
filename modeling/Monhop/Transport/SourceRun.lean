import Monhop.Library.Trace
import Monhop.Library.Transition
import Monhop.Transport.SourceSteps

/-! # Runs of a source controller

A run is any sequence of calls on a controller just built: with any floor the other threads
leave, any settings and any times.  Its history keeps each call with what it did.

* `Turn.run_effects` — what a call returns is what its trace asked for.
* `reachable_keeps` — a property of the log and the view that holds at the start and that
  every move keeps holds in every state a run reaches.
-/

namespace Monhop.Transport

open Monhop.Core Protocol List
open Library (Lts)
variable {F : Type}

/-! ## The start -/

section
variable [Scalar F]

/-- A controller of a session that has just become ready.  What readiness saw of the keyboard
and the mouse was never sent. -/
inductive SourceController.Started : SourceController F → Prop where
  | new (topology : Topology F) (localMachine : DeviceId) (localDisplay : DisplayId)
      (sessionEpoch : SessionEpoch) (nextControlSequence : Nat) (now : Duration)
      (source : SourceController F)
      (built : SourceController.new topology localMachine localDisplay sessionEpoch
        nextControlSequence now = .ok source) : Started source
  | withFloor {source : SourceController F} (started : Started source) (floor : FloorSnapshot)
      (enabled : Bool) : Started (source.withFloor floor enabled)
  | withPeer {source named : SourceController F} (started : Started source) (peer : DeviceId)
      (slot : FloorPeer) (known : source.withPeer peer slot = .ok named) : Started named
  | finishStartup {source : SourceController F} (started : Started source) (epoch : SessionEpoch)
      (nextHeartbeatOut : Nat) (lastHeartbeatIn : Option Nat) (health : PeerHealth)
      (limiter : RateLimiter) (now : Duration) :
      Started (source.finishStartup epoch nextHeartbeatOut lastHeartbeatIn health limiter now)
  | inheritBookkeeping {source : SourceController F} (started : Started source)
      (earlier : SourceController F) (unsentKeys : ∀ index, (earlier.keys index).remote = false)
      (unsentButtons : ∀ button, (earlier.buttons button).remote = false) :
      Started (source.inheritBookkeeping earlier)

end

/-- Nothing happened yet. -/
structure SourceController.AtStart (source : SourceController F) : Prop where
  failure : source.failure = none
  state : ∃ target, source.state = .localInput target none
  inputEpoch : source.inputEpoch = source.baseEpoch
  inputSequence : source.outboundInputSequence = 0
  inbound : source.inboundInputEpoch = none ∧ source.inboundInputSequence = none
  route : source.captureRoute = { remote := false, revision := 0, owned := true }
  requests : source.nextRouteRequest = 1
  keys : ∀ index, (source.keys index).remote = false
  buttons : ∀ button, (source.buttons button).remote = false
  waiting : source.pacer.waiting = none
  remoteTarget : source.remoteTarget = none
  held : source.heldSince = none ∧ source.releaseAcksPending = 0 ∧ source.holdPongSeen = false
  claim : source.floorClaim = none ∧ source.handover = none ∧ source.takeBack = false

theorem SourceController.fresh_atStart [Scalar F] (topology : Topology F) (home : PointerTarget)
    (ownership : PointerOwnership) (peer : Option DeviceId) (sessionEpoch : SessionEpoch)
    (nextControlSequence : Nat) (now : Duration) :
    (SourceController.fresh topology home ownership peer sessionEpoch nextControlSequence
      now).AtStart where
  failure := rfl
  state := ⟨home, rfl⟩
  inputEpoch := rfl
  inputSequence := rfl
  inbound := ⟨rfl, rfl⟩
  route := rfl
  requests := rfl
  keys _ := rfl
  buttons _ := rfl
  waiting := rfl
  remoteTarget := rfl
  held := ⟨rfl, rfl, rfl⟩
  claim := ⟨rfl, rfl, rfl⟩

theorem SourceController.Started.atStart [Scalar F] {source : SourceController F}
    (started : source.Started) : source.AtStart := by
  induction started with
  | new topology localMachine localDisplay sessionEpoch nextControlSequence now source built =>
    unfold SourceController.new at built
    split at built
    · cases built
    split at built
    · cases built
    simp only [] at built
    split at built
    · cases built
    · cases built
      apply fresh_atStart
  | withFloor _ _ _ start => exact { start with }
  | withPeer _ peer slot known start =>
    unfold SourceController.withPeer at known
    split at known
    · cases known
    · cases known
      exact { start with }
  | finishStartup _ _ _ _ _ _ _ start => exact { start with }
  | inheritBookkeeping _ _ unsentKeys unsentButtons start =>
    exact { start with keys := unsentKeys, buttons := unsentButtons }

/-! ## Runs -/

/-- A controller with the floor as its last call left it and what its calls did so far. -/
structure SourceRun (F : Type) where
  source : SourceController F
  floor : FloorSnapshot
  /-- Each call with what it did, oldest first. -/
  history : List (SourceCall F × List (SourceEvent F))

/-- A call, with what the other threads leave on the floor before each of its accesses. -/
structure SourceLabel (F : Type) where
  call : SourceCall F
  script : List FloorSnapshot
  settings : SourceSettings

namespace SourceRun

def log (run : SourceRun F) : List (SourceEvent F) := run.history.flatMap Prod.snd

def turn (run : SourceRun F) (label : SourceLabel F) : Turn F :=
  { source := run.source, floor := run.floor, script := label.script, settings := label.settings
    trace := [] }

variable [Scalar F]

def after (run : SourceRun F) (label : SourceLabel F) : Turn F :=
  ((run.turn label).run label.call).2

def next (run : SourceRun F) (label : SourceLabel F) : SourceRun F :=
  { source := (run.after label).source, floor := (run.after label).floor
    history := run.history ++ [(label.call, (run.after label).trace)] }

theorem log_next (run : SourceRun F) (label : SourceLabel F) :
    (run.next label).log = run.log ++ (run.after label).trace := by
  simp [log, next]

end SourceRun

def sourceLts (F : Type) [Scalar F] : Lts (SourceRun F) (SourceLabel F) where
  init run := run.source.Started ∧ run.history = []
  step run label later := later = run.next label

/-! ## What a call returns -/

namespace Turn

variable [Scalar F]

theorem takeHandover_effects (turn : Turn F) (handover : Handover F) (now : Duration) :
    (turn.takeHandover handover now).1.effects = (turn.takeHandover handover now).2.effects := by
  unfold takeHandover
  split
  · split <;> rfl
  · rfl

/-- The effects a call returns are those its trace asked for, in order. -/
theorem run_effects {turn : Turn F} (fresh : turn.trace = []) (call : SourceCall F) :
    (turn.run call).1.effects = (turn.run call).2.effects := by
  have silent : ∀ source, (turn.silent source).1.effects = (turn.silent source).2.effects := by
    intro source
    show [] = turn.trace.filterMap SourceEvent.effect?
    rw [fresh, filterMap_nil]
  cases call with
  | suppressionBudget | observePath | seedFromGroup | setReachable | setPeerOffset
  | setDoubleClickInterval | setCaptureReady => exact silent _
  | acceptHandover handover now =>
    simp only [run, acceptHandover]
    repeat' split
    all_goals first | rfl | exact takeHandover_effects _ _ _
  | bindCaptureRoute | failCaptureRouteSubmission | refuseCaptureActivation | captured | bookkeeping
  | observePointer | remoteFrame | requestLocal | observeForeignRoute | abandon | tick =>
    -- every branch of these ends in an outcome
    simp only [run, bindCaptureRoute, failCaptureRouteSubmission, refuseCaptureActivation,
      onCaptured, bookkeeping, observePointer, onRemoteFrame, requestLocal, observeForeignRoute,
      abandon, tick]
    repeat' split
    all_goals rfl

end Turn

/-! ## What a move adds to the trace -/

/-- What a failing call may still do: it takes frames, restores, and sends a release that
overtakes nothing. -/
def SourceEvent.IsLast : SourceEvent F → Prop
  | .accepted _ | .asked (.restoreLocalAt _ _ _) _ => True
  | .asked (.remoteFrame frame) waiting => frame.message = .releaseAll ∧ waiting = none
  | _ => False

variable {reason : SourceFailure} {display : DisplayId} {position : Point F}

namespace View

/-- The events a move adds are all of one kind. -/
def Adds (view later : View F) (kind : SourceEvent F → Prop) : Prop :=
  ∃ events, later.trace = view.trace ++ events ∧ ∀ event ∈ events, kind event

section
variable {view later : View F} {kind other : SourceEvent F → Prop} {first second : SourceEvent F}

theorem Adds.none (same : later.trace = view.trace) : view.Adds later kind :=
  ⟨[], by rw [same, append_nil], nofun⟩

theorem Adds.one (trace : later.trace = view.trace ++ [first]) (holds : kind first) :
    view.Adds later kind :=
  ⟨[first], trace, forall_mem_singleton.mpr holds⟩

theorem Adds.two (trace : later.trace = view.trace ++ [first] ++ [second])
    (holds : kind first ∧ kind second) : view.Adds later kind :=
  ⟨[first, second], by rw [trace, append_assoc]; rfl, by simpa using holds⟩

theorem Adds.trans {middle : View F} (front : view.Adds middle kind)
    (back : middle.Adds later kind) : view.Adds later kind := by
  obtain ⟨early, split, holds⟩ := front
  obtain ⟨late, trace, kept⟩ := back
  refine ⟨early ++ late, by rw [trace, split, append_assoc], fun event member => ?_⟩
  exact (mem_append.mp member).elim (holds event) (kept event)

theorem Adds.mono (adds : view.Adds later kind) (weaker : ∀ event, kind event → other event) :
    view.Adds later other := by
  obtain ⟨events, trace, holds⟩ := adds
  exact ⟨events, trace, fun event member => weaker event (holds event member)⟩

end

/-! ## What a failing call still asks for -/

def lastRelease (view : View F) : SourceEvent F :=
  .asked (.remoteFrame (.new view.inputEpoch view.inputSequence .releaseAll)) none

theorem push_trace {view : View F} (still : view.waiting = none) (effect : SourceEffect F) :
    ∃ asked, (view.push effect).trace = view.trace ++ asked ∧ (view.push effect).waiting = none ∧
      (asked = [] ∨ view.hasRoom = true ∧ asked = [.asked effect none]) := by
  unfold push
  split
  · next room => exact ⟨_, rfl, still, .inr ⟨room, by rw [still]⟩⟩
  · exact ⟨[], (append_nil _).symm, still, .inl rfl⟩

/-- A failing call asks for a release and for a restore, each at most once. -/
theorem fail_trace (view : View F) :
    ∃ released restored, (view.fail reason display position).trace =
        view.trace ++ released ++ restored ∧
      (released = [] ∨ view.hasRoom = true ∧ released = [view.lastRelease]) ∧
      (restored = [] ∨
        ∃ request, restored = [.asked (.restoreLocalAt request display position) none]) := by
  let stopped := { view with failure := some reason, phase := .failed, waiting := none }
  have release : ∃ released, (stopped.failRelease view.remoteMayHold).trace =
      view.trace ++ released ∧ (stopped.failRelease view.remoteMayHold).waiting = none ∧
      (released = [] ∨ view.hasRoom = true ∧ released = [view.lastRelease]) := by
    have nothing : view.trace = view.trace ++ [] := (append_nil _).symm
    unfold failRelease
    split
    · split
      · exact ⟨[], nothing, rfl, .inl rfl⟩
      · exact push_trace rfl _
    · exact ⟨[], nothing, rfl, .inl rfl⟩
  obtain ⟨released, sent, still, which⟩ := release
  refine ⟨released, ?_⟩
  rw [← sent]
  unfold fail failRestore
  dsimp only
  split
  · split
    · exact ⟨[], (append_nil _).symm, which, .inl rfl⟩
    · next next _ =>
      obtain ⟨restored, asked, -, asks⟩ := @push_trace F
        { (stopped.failRelease view.remoteMayHold).clearRemote with requests := next } still _
      exact ⟨restored, asked, which, asks.imp_right fun ⟨_, same⟩ => ⟨_, same⟩⟩
  · exact ⟨[], (append_nil _).symm, which, .inl rfl⟩

theorem Drift.fail_adds {view drifted : View F} (drift : view.Drift drifted) :
    view.Adds (drifted.fail reason display position) SourceEvent.IsLast := by
  obtain ⟨frames, taken⟩ := drift.trace
  obtain ⟨released, restored, trace, releases, restores⟩ :=
    drifted.fail_trace
  refine ⟨frames.map .accepted ++ (released ++ restored), ?_, ?_⟩
  · rw [trace, taken]
    simp only [append_assoc]
  intro event member
  simp only [mem_append, mem_map] at member
  rcases member with ⟨frame, -, rfl⟩ | member | member
  · exact trivial
  · rcases releases with rfl | ⟨-, rfl⟩
    · cases member
    · rw [mem_singleton.mp member]
      exact ⟨rfl, rfl⟩
  · rcases restores with rfl | ⟨request, rfl⟩
    · cases member
    · rw [mem_singleton.mp member]
      exact trivial

end View

/-- What the trace of a failed controller ends with. -/
theorem Move.ended {call : SourceCall F} {view later : View F} (move : Move call view later)
    (failed : later.failure ≠ none) : view.Adds later SourceEvent.IsLast := by
  cases move with
  | fail drifted reason display position alive drift => exact drift.fail_adds
  | holdFail drifted reason display position alive free still drift =>
    have barrier : view.Adds view.holdBarrier SourceEvent.IsLast := .one rfl ⟨rfl, still⟩
    exact barrier.trans drift.fail_adds
  | overflow left alive full failure trace => exact .none trace
  | afterFail left failed stays => exact .none stays.trace
  | takeBack | handover | markHandover | latch => exact .none rfl
  | arrive =>
    unfold View.arrive
    split <;> exact .none rfl
  | released frame display position alive =>
    split at failed <;> exact absurd alive failed
  | hold now display position alive =>
    unfold View.retreat at failed
    repeat' split at failed
    all_goals exact absurd alive failed
  | _ => exact absurd (by assumption) failed

/-! ## The invariant rule -/

namespace View

/-- What happened before this call and during it. -/
def log (view : View F) (past : List (SourceEvent F)) : List (SourceEvent F) := past ++ view.trace

/-- The next call's view: an empty trace, and what the other threads will do. -/
def reopened (view : View F) (script : List FloorSnapshot) : View F :=
  { view with script, trace := [] }

end View

/-- The view of a controller between two calls. -/
def SourceRun.view (run : SourceRun F) : View F :=
  ({ source := run.source, floor := run.floor, script := []
     settings := ⟨false, 0, false⟩, trace := [] } : Turn F).view

theorem Moves.keeps {call : SourceCall F} {property : View F → Prop}
    (kept : ∀ view later, Move call view later → property view → property later)
    {view later : View F} (moves : Moves call view later) (holds : property view) :
    property later := by
  induction moves with
  | refl => exact holds
  | tail _ move ih => exact kept _ _ move ih

variable [Scalar F]

/-- The invariant rule for runs: the property of a log and a view holds at the start, passes
from a call to the next, and is kept by every move. -/
theorem reachable_keeps (property : List (SourceEvent F) → View F → Prop)
    (base : ∀ source floor, source.AtStart →
      property [] (SourceRun.view { source, floor, history := [] }))
    (reopens : ∀ past view script, property past view →
      property (view.log past) (view.reopened script))
    (kept : ∀ past call view later, Move call view later → property past view →
      property past later)
    {run : SourceRun F} (reachable : (sourceLts F).Reachable run) : property run.log run.view := by
  refine Lts.Reachable.invariant (fun run : SourceRun F => property run.log run.view) ?_ ?_ reachable
  · intro run ⟨started, empty⟩
    have start := base run.source run.floor started.atStart
    rw [SourceRun.log, empty]
    exact start
  rintro run label later holds rfl
  have opened : property run.log (run.turn label).view := by
    have again := reopens run.log run.view label.script holds
    rwa [View.log, show run.view.trace = [] from rfl, append_nil] at again
  have done : property run.log (run.after label).view :=
    ((run.turn label).run_moves label.call).keeps (kept run.log label.call) opened
  rw [SourceRun.log_next]
  exact reopens run.log (run.after label).view [] done

end Monhop.Transport
