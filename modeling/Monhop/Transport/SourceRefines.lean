import Monhop.Transport.SourceProtocol

/-! # The controller follows its protocol

Every function of the controller, seen through `Turn.view`, is a chain of moves.  Each
lemma says what one function does to the view: sends that succeed are given exactly, and a
send that fails the controller is a chain that ends in `Move.fail`.
-/

namespace Monhop.Transport

open Monhop.Core Protocol
open Relation (ReflTransGen)
variable {F : Type} [Scalar F] {call : SourceCall F}
variable {display : DisplayId} {turn : Turn F} {view other later : View F} {good : View F → Prop}
variable {message : Message F} {reason : SourceFailure}

namespace View

/-- Two views a failing send cannot tell apart. -/
structure Apart (view other : View F) : Prop extends view.Kept other where
  inputSequence : other.inputSequence = view.inputSequence
  reached : other.reached = view.reached
  trace : other.trace = view.trace

section

omit [Scalar F]

theorem Alike.refl (view : View F) : view.Alike view := by constructor <;> rfl

theorem Alike.trans (left : view.Alike other) (right : other.Alike later) : view.Alike later where
  baseEpoch := right.baseEpoch.trans left.baseEpoch
  slot := right.slot.trans left.slot
  inputEpoch := right.inputEpoch.trans left.inputEpoch
  route := right.route.trans left.route
  failure := right.failure.trans left.failure
  claim := right.claim.trans left.claim
  handover := right.handover.trans left.handover
  floor := right.floor.trans left.floor

theorem Kept.trans (left : view.Kept other) (right : other.Kept later) : view.Kept later where
  toAlike := left.toAlike.trans right.toAlike
  phase := right.phase.trans left.phase
  heldSince := right.heldSince.trans left.heldSince
  script := right.script.trans left.script
  controlSequence := left.controlSequence.trans right.controlSequence
  requests := left.requests.trans right.requests

theorem Apart.refl (view : View F) : view.Apart view :=
  ⟨⟨.refl view, rfl, rfl, rfl, le_rfl, le_rfl⟩, rfl, rfl, rfl⟩

theorem Apart.drift (apart : view.Apart other) : view.Drift other where
  toKept := apart.toKept
  inputSequence := .inl apart.inputSequence
  remoteMayHold := by simp only [remoteMayHold, apart.reached, apart.phase]
  trace := ⟨[], by simp [apart.trace]⟩

theorem Apart.waits (apart : view.Apart other) (waiting : Option (Point F)) :
    view.Apart { other with waiting } :=
  { apart with }

theorem Alive.flushed (alive : view.Alive) : view.flushed.Alive := by
  unfold View.flushed
  split <;> exact alive

theorem flushed_waiting (view : View F) : view.flushed.waiting = none := by
  unfold flushed
  split
  · assumption
  · rfl

theorem Apart.flushed (apart : view.Apart other) (waiting : other.waiting = view.waiting) :
    view.flushed.Apart other.flushed := by
  unfold View.flushed
  rw [waiting]
  split
  · exact apart
  exact { apart with
    inputSequence := congrArg (· + 1) apart.inputSequence
    trace := by
      simp only [sendInput, ask, record, withWaiting, apart.trace, apart.inputEpoch,
        apart.inputSequence] }

end

/-- A view later in the same phase of the same epoch. -/
structure Grows (view later : View F) : Prop where
  phase : later.phase = view.phase
  inputEpoch : later.inputEpoch = view.inputEpoch
  trace : ∀ event ∈ view.trace, event ∈ later.trace

section

omit [Scalar F]

theorem Grows.trans {first second third : View F} (left : first.Grows second)
    (right : second.Grows third) : first.Grows third :=
  ⟨right.phase.trans left.phase, right.inputEpoch.trans left.inputEpoch,
    fun event member => right.trace event (left.trace event member)⟩

theorem grows_sendInput : view.Grows (view.sendInput message) :=
  ⟨rfl, rfl, fun _ => List.mem_append_left _⟩

theorem grows_withWaiting (view : View F) (waiting : Option (Point F)) :
    view.Grows (view.withWaiting waiting) :=
  ⟨rfl, rfl, fun _ member => member⟩

theorem grows_flushed (view : View F) : view.Grows view.flushed := by
  unfold flushed
  split
  · exact ⟨rfl, rfl, fun _ member => member⟩
  · exact ⟨rfl, rfl, fun _ => List.mem_append_left _⟩

theorem Answered.grows (answered : view.Answered display) (grows : view.Grows later) :
    later.Answered display := by
  obtain ⟨frame, accepted, isAck, epoch⟩ := answered
  exact ⟨frame, grows.trace _ accepted, isAck, epoch.trans grows.inputEpoch.symm⟩

theorem Landing.grows (landing : view.Landing) (grows : view.Grows later) : later.Landing := by
  cases landing with
  | barrier request ticket phase => exact .barrier request ticket (grows.phase.trans phase)
  | answered display handedOver phase answered =>
    exact .answered display handedOver (grows.phase.trans phase) (answered.grows grows)

theorem Hopping.grows (hopping : view.Hopping display) (grows : view.Grows later) :
    later.Hopping display :=
  ⟨grows.phase.trans hopping.phase, hopping.answered.grows grows⟩

theorem Hopping.landing (hopping : view.Hopping display) : view.Landing :=
  .answered display false hopping.phase hopping.answered

end

/-! ## What a failure keeps -/

section

omit [Scalar F]

theorem hasRoom_congr (same : other.trace = view.trace) : other.hasRoom = view.hasRoom := by
  unfold hasRoom
  rw [same]

theorem push_eq {effect : SourceEffect F} :
    ∃ trace, view.push effect = { view with trace } ∧
      (view.hasRoom = false → trace = view.trace) := by
  unfold push
  split
  · next room => exact ⟨_, rfl, fun full => nomatch full.symm.trans room⟩
  · exact ⟨_, rfl, fun _ => rfl⟩

variable {position : Point F}

/-- What every part of a failure's cleanup keeps, the failure keeps. -/
@[elab_as_elim]
theorem fail_rule {motive : View F → Prop}
    (start : motive { view with failure := some reason, phase := .failed, waiting := none })
    (released : ∀ (view : View F) next trace, checkedSucc view.inputSequence = some next →
      (view.hasRoom = false → trace = view.trace) → motive view →
        motive { view with inputSequence := next, trace })
    (cleared : ∀ view : View F, motive view → motive view.clearRemote)
    (restored : ∀ (view : View F) requests trace, (view.hasRoom = false → trace = view.trace) →
      motive view → motive { view with requests, trace }) :
    motive (view.fail reason display position) := by
  have kept : ∀ stopped : View F, motive stopped →
      motive (stopped.failRelease view.remoteMayHold).clearRemote := by
    intro stopped kept
    apply cleared
    unfold failRelease
    split
    · split
      · exact kept
      · next next following =>
        obtain ⟨trace, pushed, room⟩ := push_eq
        exact pushed ▸ released stopped next trace following room kept
    · exact kept
  replace kept := kept _ start
  unfold fail failRestore
  dsimp only
  generalize View.clearRemote _ = stopped at kept ⊢
  split
  · split
    · exact kept
    · next next _ =>
      obtain ⟨trace, pushed, room⟩ := push_eq
      exact pushed ▸ restored stopped next trace room kept
  · exact kept

theorem fail_trace_of_full (full : view.hasRoom = false) :
    (view.fail reason display position).trace = view.trace := by
  refine fail_rule rfl (fun left _ _ _ room same => ?_) (fun _ same => same)
    fun left _ _ room same => ?_ <;> exact (room ((hasRoom_congr same).trans full)).trans same

theorem fail_inputSequence_of_exhausted (exhausted : checkedSucc view.inputSequence = none) :
    (view.fail reason display position).inputSequence = view.inputSequence := by
  refine fail_rule rfl (fun left next _ following _ same => ?_) (fun _ same => same)
    fun _ _ _ _ same => same
  rw [same, exhausted] at following
  cases following

theorem fail_rest :
    let left := view.fail reason display position
    left.inputEpoch = view.inputEpoch ∧ left.baseEpoch = view.baseEpoch ∧ left.slot = view.slot ∧
      left.claim = view.claim ∧ left.floor = view.floor ∧ left.handover = view.handover ∧
      left.route = view.route :=
  fail_rule ⟨rfl, rfl, rfl, rfl, rfl, rfl, rfl⟩ (fun _ _ _ _ _ kept => kept) (fun _ kept => kept)
    fun _ _ _ _ kept => kept

theorem fail_failure : (view.fail reason display position).failure = some reason :=
  fail_rule rfl (fun _ _ _ _ _ kept => kept) (fun _ kept => kept) fun _ _ _ _ kept => kept

theorem fail_phase : (view.fail reason display position).phase = .failed :=
  fail_rule rfl (fun _ _ _ _ _ kept => kept) (fun _ kept => kept) fun _ _ _ _ kept => kept

end
end View

namespace Turn

/-- A failed turn that no send can get a frame out of. -/
structure Jammed (turn : Turn F) : Prop where
  failed : turn.isFailed = true
  stuck : turn.hasRoom = false ∨ checkedSucc turn.source.outboundInputSequence = none

section

omit [Scalar F]

theorem Alive.seen (alive : turn.Alive) : turn.view.Alive :=
  Option.isSome_eq_false_iff.mp alive |> Option.isNone_iff_eq_none.mp

theorem isFailed_of_view (alive : turn.view.Alive) : turn.Alive :=
  congrArg Option.isSome alive

theorem Jammed.dead (jammed : turn.Jammed) : ¬turn.Alive := ne_false_of_eq_true jammed.failed

theorem hasRoom_view (turn : Turn F) : turn.view.hasRoom = turn.hasRoom := rfl

theorem remoteMayHold_view (turn : Turn F) :
    turn.view.remoteMayHold = turn.source.remoteMayHold := by
  unfold View.remoteMayHold SourceController.remoteMayHold Phase.mayHold view State.phase
  cases turn.source.state <;> rfl

theorem nativeMayBeRemote_view (turn : Turn F) :
    turn.view.nativeMayBeRemote = turn.source.nativeMayBeRemote := by
  unfold View.nativeMayBeRemote SourceController.nativeMayBeRemote Phase.mayBeRemote view
    State.phase
  cases turn.source.state <;> rfl

end

/-! ## Failing -/

theorem fail_of_failed (failed : turn.isFailed = true) (reason : SourceFailure) :
    turn.fail reason = turn := by
  simp [fail, failed]

section

omit [Scalar F]

@[simp] theorem hasRoom_update (turn : Turn F) (change : SourceController F → SourceController F) :
    (turn.update change).hasRoom = turn.hasRoom := rfl

theorem push_view (turn : Turn F) (effect : SourceEffect F) :
    (turn.push effect).view = turn.view.push effect := by
  unfold push View.push
  rw [hasRoom_view]
  cases turn.hasRoom <;> rfl

theorem failRelease_view (turn : Turn F) (remoteMayHold : Bool) :
    (turn.failRelease remoteMayHold).view = turn.view.failRelease remoteMayHold := by
  unfold failRelease View.failRelease
  simp only [view_inputSequence]
  cases remoteMayHold with
  | false => rfl
  | true =>
    cases checkedSucc turn.source.outboundInputSequence with
    | none => rfl
    | some next => exact push_view _ _

theorem failRestore_view (turn : Turn F) (nativeMayBeRemote : Bool)
    (restore : PointerTarget × Point F) :
    (turn.failRestore nativeMayBeRemote restore).view =
      turn.view.failRestore nativeMayBeRemote restore.1.display restore.2 := by
  unfold failRestore View.failRestore
  simp only [view_requests]
  cases nativeMayBeRemote with
  | false => rfl
  | true =>
    cases checkedSucc turn.source.nextRouteRequest with
    | none => rfl
    | some next => exact push_view _ _

end

theorem fail_view (alive : turn.Alive) (reason : SourceFailure) :
    (turn.fail reason).view =
      turn.view.fail reason turn.source.failureRestoreTarget.1.display
        turn.source.failureRestoreTarget.2 := by
  unfold fail View.fail
  rw [if_neg (by simp [alive]), remoteMayHold_view, nativeMayBeRemote_view]
  simp only [failRestore_view]
  congr 1
  show View.clearRemote (failRelease _ _).view = _
  rw [failRelease_view]
  rfl

theorem isFailed_fail (turn : Turn F) (reason : SourceFailure) :
    (turn.fail reason).isFailed = true := by
  cases alive : turn.isFailed with
  | true => rw [fail_of_failed alive, alive]
  | false =>
    have failure := congrArg View.failure (fail_view alive reason)
    rw [View.fail_failure, view_failure] at failure
    simp [isFailed, SourceController.isFailed, failure]

theorem fail_dead (turn : Turn F) (reason : SourceFailure) : ¬(turn.fail reason).Alive :=
  ne_false_of_eq_true (isFailed_fail turn reason)

theorem fail_phase (alive : turn.Alive) (reason : SourceFailure) :
    (turn.fail reason).view.phase = .failed := by
  rw [fail_view alive, View.fail_phase]

theorem fail_moves (alive : view.Alive) (drift : view.Drift turn.view)
    (fault : Fault call view reason) :
    Moves call view (turn.fail reason).view := by
  rw [fail_view (isFailed_of_view (drift.failure.trans alive))]
  exact .single (.fail _ _ _ _ alive drift fault)

theorem jammed_of_full (full : turn.hasRoom = false) : (turn.fail reason).Jammed := by
  refine ⟨isFailed_fail _ _, .inl ?_⟩
  cases alive : turn.isFailed with
  | true => rwa [fail_of_failed alive]
  | false =>
    have room : turn.view.hasRoom = false := full
    rw [← hasRoom_view, fail_view alive, View.hasRoom_congr (View.fail_trace_of_full room)]
    exact room

theorem jammed_of_exhausted (exhausted : checkedSucc turn.source.outboundInputSequence = none) :
    (turn.fail reason).Jammed := by
  refine ⟨isFailed_fail _ _, .inr ?_⟩
  cases alive : turn.isFailed with
  | true => rwa [fail_of_failed alive]
  | false =>
    rw [← view_inputSequence, fail_view alive, View.fail_inputSequence_of_exhausted exhausted]
    exact exhausted

/-! ## Sending -/

/-- What a send comes to: the frame went out and the view is `sent`, or the controller
failed. -/
def Sends (call : SourceCall F) (view : View F) (turn : Turn F) (sent : View F) : Prop :=
  turn.Alive ∧ turn.view = sent ∨
    turn.Jammed ∧ turn.view.phase = .failed ∧ Moves call view turn.view

theorem sendInput_sends (alive : view.Alive) (apart : view.Apart turn.view) (message : Message F) :
    Sends call view (turn.sendInput message) (turn.view.sendInput message) := by
  have living := isFailed_of_view (apart.failure.trans alive)
  unfold sendInput
  split
  · next exhausted =>
    exact .inr ⟨jammed_of_exhausted exhausted, fail_phase living _,
      fail_moves alive apart.drift trivial⟩
  next next following =>
  obtain ⟨-, rfl⟩ := checkedSucc_eq_some.mp following
  unfold pushEffect
  split
  · next room =>
    refine .inl ⟨?_, ?_⟩
    · rw [push, if_pos room]
      exact living
    · show (push _ _).view = _
      rw [push_view, View.push, if_pos (by exact room)]
      rfl
  · next full =>
    have full : turn.hasRoom = false := Bool.eq_false_iff.mpr full
    refine .inr ⟨jammed_of_full (by exact full), fail_phase (by exact living) _,
      fail_moves alive ?_ trivial⟩
    refine { apart.drift with inputSequence := .inr ?_ }
    rw [← View.hasRoom_congr apart.trace, hasRoom_view]
    exact full

theorem flushMotion_spec (alive : view.Alive) (apart : view.Apart turn.view) :
    (∃ after, turn.flushMotion = (true, after) ∧ after.view = turn.view.flushed ∧
        after.Alive) ∨
      ∃ after, turn.flushMotion = (false, after) ∧ after.Jammed ∧ after.view.phase = .failed ∧
        Moves call view after.view := by
  have living := isFailed_of_view (apart.failure.trans alive)
  unfold flushMotion MotionPacer.flush
  cases waits : turn.source.pacer.waiting with
  | none =>
    refine .inl ⟨_, rfl, ?_, living⟩
    simp only [View.flushed, view_waiting, waits]
    rfl
  | some position =>
    have quiet : view.Apart (turn.update fun source =>
        { source with
          pacer := { waiting := none, lastSent := some turn.source.lastNow } }).view :=
      apart.waits none
    have sends : Sends call view _ _ := sendInput_sends alive quiet (.motion (.absolute position))
    rcases sends with ⟨lives, sent⟩ | failed
    · refine .inl ⟨_, by simp only [lives, Bool.not_false], ?_, lives⟩
      simp only [sent, View.flushed, view_waiting, waits]
      rfl
    · exact .inr ⟨_, by simp only [failed.1.failed, Bool.not_true], failed⟩

omit [Scalar F] in
theorem flushed_moves (alive : view.Alive) : Moves call view view.flushed := by
  unfold View.flushed
  split
  · exact .refl
  · next position waits => exact .single (.motion _ alive waits)

/-- A message that is no absolute motion waits for nothing but the motion before it. -/
theorem pushInput_sends (alive : view.Alive) (apart : view.Apart turn.view)
    (waiting : turn.view.waiting = view.waiting)
    (plain : ∀ position, message ≠ .motion (.absolute position)) :
    Sends call view (turn.pushInput message) (turn.view.flushed.sendInput message) := by
  have unfolded : turn.pushInput message =
      if turn.flushMotion.1 then turn.flushMotion.2.sendInput message else turn.flushMotion.2 := by
    unfold pushInput
    split
    · exact absurd rfl (plain _)
    · rcases turn.flushMotion with ⟨_ | _, after⟩ <;> rfl
  rw [unfolded]
  rcases flushMotion_spec alive apart with ⟨after, flushed, seen, lives⟩ | ⟨after, flushed, failed⟩
  · rw [flushed, ← seen]
    have quiet : view.flushed.Apart after.view := seen ▸ apart.flushed waiting
    have lively : view.flushed.Alive := quiet.failure.symm.trans lives.seen
    have sends : Sends call view.flushed _ _ := sendInput_sends lively quiet message
    rcases sends with sent | ⟨jammed, stopped, moves⟩
    · exact .inl sent
    · exact .inr ⟨jammed, stopped, (flushed_moves alive).trans moves⟩
  · rw [flushed]
    exact .inr failed

theorem pushMotion_spec (alive : turn.Alive) (forwards : turn.view.Forwards) (position : Point F) :
    Moves call turn.view (turn.pushMotion position).view ∧
      ((turn.pushMotion position).Alive ∧
          ((turn.pushMotion position).view = turn.view.withWaiting (some position) ∨
            (turn.pushMotion position).view =
              (turn.view.withWaiting none).sendInput (.motion (.absolute position))) ∨
        (turn.pushMotion position).Jammed) := by
  have offered : Move call turn.view (turn.view.withWaiting (some position)) :=
    .offer _ alive.seen forwards
  have lively : (turn.view.withWaiting (some position)).Alive := alive.seen
  unfold pushMotion MotionPacer.offer MotionPacer.due MotionPacer.flush
  split
  · next pacer decided =>
    have waits : pacer.waiting = some position := by
      split at decided
      · cases decided
      · cases decided; rfl
    have same : (turn.update fun source => { source with pacer }).view =
        turn.view.withWaiting (some position) := by
      rw [← waits]
      rfl
    exact ⟨same ▸ .single offered, .inl ⟨alive, .inl same⟩⟩
  · next sent pacer decided =>
    have sends : sent = position ∧ pacer.waiting = none := by
      split at decided
      · cases decided; exact ⟨rfl, rfl⟩
      · cases decided
    obtain ⟨rfl, still⟩ := sends
    have same : (turn.update fun source => { source with pacer }).view =
        turn.view.withWaiting none := by
      rw [← still]
      rfl
    have quiet : (turn.view.withWaiting (some sent)).Apart
        (turn.update fun source => { source with pacer }).view := by
      rw [same]
      exact (View.Apart.refl (turn.view.withWaiting (some sent))).waits none
    have out : Sends call (turn.view.withWaiting (some sent)) _ _ :=
      sendInput_sends lively quiet (.motion (.absolute sent))
    rw [same] at out
    rcases out with ⟨lives, seen⟩ | ⟨jammed, -, moves⟩
    · refine ⟨?_, .inl ⟨lives, .inr seen⟩⟩
      rw [seen]
      exact (ReflTransGen.single offered).tail (.motion _ lively rfl)
    · exact ⟨(ReflTransGen.single offered).trans moves, .inr jammed⟩

/-! ## After a failure -/

end Turn

namespace View.Stays

section

omit [Scalar F]

theorem refl (view : View F) : view.Stays view := ⟨.refl view, rfl⟩

theorem trans (left : view.Stays other) (right : other.Stays later) : view.Stays later :=
  ⟨left.toAlike.trans right.toAlike, right.trace.trans left.trace⟩

theorem moves {left : View F} (stays : view.Stays left) (failed : view.failure.isSome = true) :
    Moves call view left :=
  .single (.afterFail _ failed stays)

end
end View.Stays

namespace Turn

theorem sendInput_jammed (jammed : turn.Jammed) (message : Message F) :
    (turn.sendInput message).Jammed ∧ turn.view.Stays (turn.sendInput message).view := by
  unfold sendInput
  split
  · rw [fail_of_failed jammed.failed]
    exact ⟨jammed, .refl _⟩
  next next following =>
  have full : turn.hasRoom = false := by
    rcases jammed.stuck with full | exhausted
    · exact full
    · rw [exhausted] at following
      cases following
  unfold pushEffect
  rw [if_neg (by exact Bool.eq_false_iff.mp full)]
  rw [fail_of_failed (by exact jammed.failed)]
  exact ⟨⟨jammed.failed, .inl full⟩, { View.Stays.refl _ with }⟩

omit [Scalar F] in
/-- Changing only what calls may change after a failure keeps a turn jammed. -/
theorem Jammed.of_stays {other : Turn F} (jammed : turn.Jammed) (stays : turn.view.Stays other.view)
    (sequence : other.source.outboundInputSequence = turn.source.outboundInputSequence) :
    other.Jammed := by
  refine ⟨?_, ?_⟩
  · have failed := jammed.failed
    unfold isFailed SourceController.isFailed at failed ⊢
    rw [← view_failure, stays.failure]
    exact failed
  · rcases jammed.stuck with full | exhausted
    · refine .inl ?_
      rw [← hasRoom_view, View.hasRoom_congr stays.trace]
      exact full
    · exact .inr (sequence ▸ exhausted)

variable {pacer : MotionPacer F}

omit [Scalar F] in
theorem paced_jammed (jammed : turn.Jammed) :
    (turn.update fun source => { source with pacer }).Jammed ∧
      turn.view.Stays (turn.update fun source => { source with pacer }).view :=
  ⟨jammed.of_stays { View.Stays.refl _ with } rfl, { View.Stays.refl _ with }⟩

theorem sendPaced_jammed (jammed : turn.Jammed) :
    ((turn.update fun source => { source with pacer }).sendInput message).Jammed ∧
      turn.view.Stays
        ((turn.update fun source => { source with pacer }).sendInput message).view := by
  obtain ⟨jammed, stays⟩ := paced_jammed jammed
  have sent := sendInput_jammed jammed message
  exact ⟨sent.1, stays.trans sent.2⟩

theorem flushMotion_jammed (jammed : turn.Jammed) :
    turn.flushMotion.2.Jammed ∧ turn.view.Stays turn.flushMotion.2.view := by
  unfold flushMotion
  split
  · exact paced_jammed jammed
  · exact sendPaced_jammed jammed

theorem pushInput_jammed (jammed : turn.Jammed) (message : Message F) :
    (turn.pushInput message).Jammed ∧ turn.view.Stays (turn.pushInput message).view := by
  unfold pushInput
  split
  · unfold pushMotion
    split
    · exact paced_jammed jammed
    · exact sendPaced_jammed jammed
  · have flushed := flushMotion_jammed jammed
    split
    · next after shown =>
      rw [shown] at flushed
      have sent := sendInput_jammed flushed.1 message
      exact ⟨sent.1, flushed.2.trans sent.2⟩
    · next after shown =>
      rw [shown] at flushed
      exact flushed

/-! ## Held input follows the pointer -/

/-- The turn follows from a view by moves; it is good or jammed. -/
structure Follows (call : SourceCall F) (view : View F) (good : View F → Prop) (turn : Turn F) :
    Prop where
  moves : Moves call view turn.view
  state : turn.Alive ∧ good turn.view ∨ turn.Jammed

section

omit [Scalar F]

theorem Follows.jam {after : Turn F} (follows : Follows call view good turn) (jammed : after.Jammed)
    (failed : turn.isFailed = true) (stays : turn.view.Stays after.view) :
    Follows call view good after :=
  ⟨follows.moves.trans (stays.moves failed), .inr jammed⟩

/-- A send that succeeds as one move keeps what growing keeps. -/
theorem Follows.of_sends {sent : View F} (sends : Sends call view turn sent)
    (moves : Moves call view sent) (holds : good sent) : Follows call view good turn := by
  rcases sends with ⟨lives, seen⟩ | ⟨jammed, -, moved⟩
  · exact ⟨seen ▸ moves, .inl ⟨lives, seen ▸ holds⟩⟩
  · exact ⟨moved, .inr jammed⟩

section
variable (view)

theorem flushed_withKeys (keys : KeyTable) :
    View.flushed { view with keys } = { view.flushed with keys } := by
  unfold View.flushed
  split <;> simp_all [View.withWaiting, View.sendInput, View.ask, View.record]

theorem flushed_withButtons (buttons : ButtonTable) :
    View.flushed { view with buttons } = { view.flushed with buttons } := by
  unfold View.flushed
  split <;> simp_all [View.withWaiting, View.sendInput, View.ask, View.record]

@[simp] theorem flushed_keys : view.flushed.keys = view.keys := by
  unfold View.flushed
  split <;> rfl

@[simp] theorem flushed_buttons : view.flushed.buttons = view.buttons := by
  unfold View.flushed
  split <;> rfl

@[simp] theorem flushed_rest :
    view.flushed.failure = view.failure ∧ view.flushed.pending = view.pending ∧
      view.flushed.heldSince = view.heldSince ∧ view.flushed.nextToken = view.nextToken ∧
      view.flushed.claim = view.claim ∧
      view.flushed.nativeMayBeRemote = view.nativeMayBeRemote := by
  unfold View.flushed
  split <;> exact ⟨rfl, rfl, rfl, rfl, rfl, rfl⟩

end
end

section
variable (alive : turn.Alive) (grows : ∀ later, turn.view.Grows later → good later)
include alive grows

theorem sendKey_follows {keys : KeyTable} {index : Nat} (isDown isRepeat : Bool)
    (move : Move call turn.view.flushed (turn.view.flushed.sendKey keys index isDown isRepeat)) :
    Follows call turn.view good ((turn.update fun source => { source with keys }).pushInput
      (.key { usage := ⟨index⟩, isDown, isRepeat, modifiers := keys.remoteModifiers })) := by
  have lively := alive.seen
  have quiet : turn.view.Apart (turn.update fun source => { source with keys }).view :=
    { View.Apart.refl turn.view with }
  refine .of_sends (pushInput_sends lively quiet rfl nofun)
    ((flushed_moves lively).tail ?_) (grows _ ?_)
  · show Move call _ (View.sendInput (View.flushed { turn.view with keys }) _)
    rw [flushed_withKeys turn.view keys]
    exact move
  · show View.Grows _ (View.sendInput (View.flushed { turn.view with keys }) _)
    rw [flushed_withKeys turn.view keys]
    exact (View.grows_flushed _).trans ⟨rfl, rfl, fun _ => List.mem_append_left _⟩

theorem sendButton_follows {changed : Turn F} {buttons : ButtonTable}
    (same : changed.view = { turn.view with buttons }) {button : MouseButton} {isDown : Bool}
    {clickCount : Nat} (move : Move call turn.view.flushed
      (turn.view.flushed.sendButton buttons button isDown clickCount)) :
    Follows call turn.view good (changed.pushInput (.button { button, isDown, clickCount })) := by
  have lively := alive.seen
  have quiet : turn.view.Apart changed.view := same ▸ { View.Apart.refl turn.view with }
  refine .of_sends (pushInput_sends lively quiet (by rw [same]) nofun)
    ((flushed_moves lively).tail ?_) (grows _ ?_)
  · rw [same, flushed_withButtons turn.view buttons]
    exact move
  · rw [same, flushed_withButtons turn.view buttons]
    exact (View.grows_flushed _).trans ⟨rfl, rfl, fun _ => List.mem_append_left _⟩

theorem pressRemoteKey_follows (landing : turn.view.Landing)
    {index : Nat} (waits : keyWaits turn.source index = true) (allowed : index ∈ modifierUsages ∨
      index ∈ ordinaryUsages ∧ ∃ display, turn.view.Hopping display) :
    Follows call turn.view good (turn.pressRemoteKey index) := by
  have waits : (turn.view.keys index).physical = true ∧ (turn.view.keys index).remote = false := by
    simpa [keyWaits] using waits
  have grown := View.grows_flushed turn.view
  have allowed : index ∈ modifierUsages ∨
      index ∈ ordinaryUsages ∧ ∃ display, turn.view.flushed.Hopping display :=
    allowed.imp_right fun ⟨ordinary, display, hopping⟩ => ⟨ordinary, display, hopping.grows grown⟩
  have move : Move call turn.view.flushed _ :=
    .catchPress index alive.seen.flushed (landing.grows grown)
      (View.flushed_waiting _) (by simpa using waits) allowed
  rw [flushed_keys] at move
  exact sendKey_follows alive grows true false move

theorem releaseRemoteKey_follows (hopping : turn.view.Hopping display)
    {index : Nat} (lingers : keyLingers turn.source index = true) :
    Follows call turn.view good (turn.releaseRemoteKey index) := by
  have lingers : (turn.view.keys index).remote = true ∧ (turn.view.keys index).physical = false := by
    simpa [keyLingers] using lingers
  have move : Move call turn.view.flushed _ :=
    .catchRelease index display alive.seen.flushed
      (hopping.grows (View.grows_flushed _)) (View.flushed_waiting _) (by simpa using lingers)
  rw [flushed_keys] at move
  exact sendKey_follows alive grows false false move

theorem pressRemoteButton_follows (landing : turn.view.Landing)
    {button : MouseButton} (waits : buttonWaits turn.source button = true) :
    Follows call turn.view good (turn.pressRemoteButton button) := by
  have waits : (turn.view.buttons button).physical = true ∧
      (turn.view.buttons button).remote = false := by
    simpa [buttonWaits] using waits
  have move : Move call turn.view.flushed _ :=
    .catchPressButton button alive.seen.flushed
      (landing.grows (View.grows_flushed _)) (View.flushed_waiting _) (by simpa using waits)
  rw [flushed_buttons] at move
  exact sendButton_follows alive grows (by rfl) move

theorem releaseRemoteButton_follows (hopping : turn.view.Hopping display)
    {button : MouseButton} (lingers : buttonLingers turn.source button = true) :
    Follows call turn.view good (turn.releaseRemoteButton button) := by
  have lingers : (turn.view.buttons button).remote = true ∧
      (turn.view.buttons button).physical = false := by
    simpa [buttonLingers] using lingers
  have move : Move call turn.view.flushed _ :=
    .catchReleaseButton button display alive.seen.flushed
      (hopping.grows (View.grows_flushed _)) (View.flushed_waiting _) (by simpa using lingers)
  rw [flushed_buttons] at move
  exact sendButton_follows alive grows (by rfl) move

end

/-! ### Loops -/

/-- A change of the tables and a send leave a jammed turn jammed. -/
def Harmless {Index : Type} (change : Turn F → Index → Turn F) : Prop :=
  ∀ turn index, turn.Jammed → (change turn index).Jammed ∧ turn.view.Stays (change turn index).view

theorem pushInput_harmless (jammed : turn.Jammed) {change : SourceController F → SourceController F}
    (stays : turn.view.Stays (turn.update change).view)
    (sequence : (change turn.source).outboundInputSequence = turn.source.outboundInputSequence) :
    ((turn.update change).pushInput message).Jammed ∧
      turn.view.Stays ((turn.update change).pushInput message).view := by
  have sent := pushInput_jammed (jammed.of_stays stays sequence) message
  exact ⟨sent.1, stays.trans sent.2⟩

theorem pressRemoteKey_harmless : Harmless (pressRemoteKey : Turn F → Nat → Turn F) := by
  intro turn index jammed
  unfold pressRemoteKey
  exact pushInput_harmless jammed { View.Stays.refl _ with } rfl

theorem releaseRemoteKey_harmless : Harmless (releaseRemoteKey : Turn F → Nat → Turn F) := by
  intro turn index jammed
  unfold releaseRemoteKey
  exact pushInput_harmless jammed { View.Stays.refl _ with } rfl

theorem pressRemoteButton_harmless : Harmless (pressRemoteButton : Turn F → MouseButton → Turn F) :=
  fun _ _ jammed => pushInput_harmless jammed { View.Stays.refl _ with } rfl

theorem releaseRemoteButton_harmless :
    Harmless (releaseRemoteButton : Turn F → MouseButton → Turn F) :=
  fun _ _ jammed => pushInput_harmless jammed { View.Stays.refl _ with } rfl

section Loops
variable {Index : Type} {needs : SourceController F → Index → Bool}
  {change : Turn F → Index → Turn F} {good : View F → Prop} {indices : List Index}

section

omit [Scalar F]

theorem Follows.changed (follows : Follows call view good turn) (harmless : Harmless change)
    {index : Index}
    (kept : turn.Alive → good turn.view → Follows call turn.view good (change turn index)) :
    Follows call view good (change turn index) := by
  rcases follows.state with ⟨lives, holds⟩ | jammed
  · have after := kept lives holds
    exact ⟨follows.moves.trans after.moves, after.state⟩
  · have after := harmless turn index jammed
    exact follows.jam after.1 jammed.failed after.2

variable (harmless : Harmless change)
  (kept : ∀ turn : Turn F, turn.Alive → good turn.view → ∀ index ∈ indices,
    needs turn.source index = true → Follows call turn.view good (change turn index))
include harmless kept

/-- The loop that goes on after a failure. -/
theorem foldl_follows : ∀ {view : View F} {turn : Turn F}, Follows call view good turn →
    Follows call view good (indices.foldl (forEach needs change) turn) := by
  induction indices with
  | nil => exact fun follows => follows
  | cons index rest ih =>
    intro view turn follows
    refine ih
      (fun turn lives holds other member => kept turn lives holds other (.tail _ member)) ?_
    unfold forEach
    split
    · next needed =>
      exact follows.changed harmless fun lives holds => kept turn lives holds index (.head _) needed
    · exact follows

/-- The loop that a failure ends. -/
theorem pressEach_follows : ∀ {view : View F} {turn : Turn F}, Follows call view good turn →
    Follows call view good (pressEach needs change indices turn).2 := by
  induction indices with
  | nil => exact fun follows => follows
  | cons index rest ih =>
    intro view turn follows
    have onward := @ih
      (fun turn lives holds other member => kept turn lives holds other (.tail _ member)) view
    unfold pressEach
    split
    · next needed =>
      have changed := follows.changed harmless fun lives holds =>
        kept turn lives holds index (.head _) needed
      show Follows call view good (if (change turn index).isFailed then _ else _ : Bool × Turn F).2
      split
      · exact changed
      · exact onward changed
    · exact onward follows

end
end Loops

omit [Scalar F] in
theorem Follows.congr {other : Turn F} (follows : Follows call view good turn)
    (same : other.view = turn.view) : Follows call view good other := by
  refine ⟨same ▸ follows.moves, ?_⟩
  have failed : other.isFailed = turn.isFailed := congrArg (fun view => view.failure.isSome) same
  rcases follows.state with ⟨lives, holds⟩ | jammed
  · exact .inl ⟨failed.trans lives, same ▸ holds⟩
  · refine .inr (jammed.of_stays ?_ (congrArg View.inputSequence same))
    rw [same]
    exact .refl _

/-- The turn follows from a view by moves, and is good unless it failed. -/
structure Ends (call : SourceCall F) (view : View F) (good : View F → Prop) (turn : Turn F) :
    Prop where
  moves : Moves call view turn.view
  living : turn.Alive → good turn.view

omit [Scalar F] in
theorem Follows.ends (follows : Follows call view good turn) : Ends call view good turn := by
  refine ⟨follows.moves, fun lives => ?_⟩
  rcases follows.state with ⟨-, holds⟩ | jammed
  · exact holds
  · exact absurd lives jammed.dead

theorem transferToRemote_follows (follows : Follows call view View.Landing turn) :
    Follows call view View.Landing turn.transferToRemote := by
  have keys : Follows call view View.Landing
      (pressEach keyWaits pressRemoteKey modifierUsages turn.resetClicks).2 :=
    pressEach_follows pressRemoteKey_harmless
      (fun turn lives landing index member waits =>
        pressRemoteKey_follows lives (fun _ grows => landing.grows grows) landing waits
          (.inl member))
      (follows.congr rfl)
  unfold transferToRemote
  split
  · next after pressed => rwa [pressed] at keys
  next after pressed =>
  rw [pressed] at keys
  exact pressEach_follows pressRemoteButton_harmless
    (fun turn lives landing button _ waits =>
      pressRemoteButton_follows lives (fun _ grows => landing.grows grows) landing waits)
    keys

theorem applyRemoteChanges_follows
    (follows : Follows call view (·.Hopping display) turn) :
    Follows call view (·.Hopping display) turn.applyRemoteChanges := by
  have release : ∀ indices : List Nat, ∀ {turn : Turn F},
      Follows call view (·.Hopping display) turn →
      Follows call view (·.Hopping display)
        (indices.foldl (forEach keyLingers releaseRemoteKey) turn) := fun indices _ =>
    foldl_follows releaseRemoteKey_harmless fun turn lives hopping index _ lingers =>
      releaseRemoteKey_follows lives (fun _ grows => hopping.grows grows) hopping lingers
  have press : ∀ indices : List Nat,
      (∀ index ∈ indices, index ∈ modifierUsages ∨ index ∈ ordinaryUsages) → ∀ {turn : Turn F},
      Follows call view (·.Hopping display) turn →
      Follows call view (·.Hopping display)
        (indices.foldl (forEach keyWaits pressRemoteKey) turn) := fun indices known _ =>
    foldl_follows pressRemoteKey_harmless fun turn lives hopping index member waits =>
      pressRemoteKey_follows lives (fun _ grows => hopping.grows grows) hopping.landing waits
        ((known index member).imp_right fun ordinary => ⟨ordinary, display, hopping⟩)
  have keysUp := release modifierUsages (release ordinaryUsages follows)
  have buttonsUp : Follows call view (·.Hopping display)
      (MouseButton.ALL.foldl (forEach buttonLingers releaseRemoteButton) _) :=
    foldl_follows releaseRemoteButton_harmless
      (fun turn lives hopping button _ lingers =>
        releaseRemoteButton_follows lives (fun _ grows => hopping.grows grows) hopping lingers)
      keysUp
  have keysDown := press ordinaryUsages (fun _ member => .inr member)
    (press modifierUsages (fun _ member => .inl member) buttonsUp)
  exact foldl_follows pressRemoteButton_harmless
    (fun turn lives hopping button _ waits =>
      pressRemoteButton_follows lives (fun _ grows => hopping.grows grows) hopping.landing waits)
    keysDown

theorem synchronize_ends (follows : Follows call view (·.Hopping display) turn) :
    Ends call view (·.Hopping display) turn.synchronizeReanchoredRemoteInput := by
  have quiet : Follows call view (·.Hopping display) turn.resetClicks :=
    follows.congr rfl
  show Ends call view _ (if _ then _ else _ : Turn F)
  split
  · refine ⟨?_, fun lives => ?_⟩
    · rcases quiet.state with ⟨lives, -⟩ | jammed
      · exact quiet.moves.trans
          (fail_moves lives.seen (View.Apart.refl _).drift trivial)
      · rw [fail_of_failed jammed.failed]
        exact quiet.moves
    · exact absurd lives (fail_dead _ _)
  · exact (applyRemoteChanges_follows quiet).ends

section
variable (forwards : ∀ later, good later → later.Forwards)
  (grows : ∀ first later : View F, first.Grows later → good first → good later)
  (moves : Moves call view turn.view) (lives : turn.Alive) (holds : good turn.view)
include forwards grows moves lives holds

theorem pushMotion_follows (position : Point F) :
    Follows call view good (turn.pushInput (.motion (.absolute position))) := by
  show Follows call view good (turn.pushMotion position)
  have spec : Moves call _ _ ∧ _ := pushMotion_spec lives (forwards _ holds) position
  refine ⟨moves.trans spec.1, spec.2.imp_left fun ⟨living, seen⟩ => ⟨living, ?_⟩⟩
  have queued := View.grows_withWaiting turn.view
  rcases seen with seen | seen
  · rw [seen]
    exact grows _ _ (queued _) holds
  · rw [seen]
    exact grows _ _ ((queued none).trans View.grows_sendInput) holds

theorem sendMoved_follows (display : DisplayId) (known position : Point F) :
    Follows call view good (turn.sendMoved display known position) := by
  unfold sendMoved
  split
  · exact ⟨moves, .inl ⟨lives, holds⟩⟩
  · exact pushMotion_follows forwards grows moves lives holds _

end
end Turn
end Monhop.Transport
