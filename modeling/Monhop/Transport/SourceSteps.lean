import Monhop.Transport.SourceFrames

/-! # Every call is a chain of moves

The calls of the controller's owner, and `run_moves`: whatever call is made, on whatever
controller and floor, what it does is a chain of moves.
-/

namespace Monhop.Transport

open Monhop.Core Protocol PeerHealth SourceController
open Relation (ReflTransGen)
variable {F : Type} [Scalar F] {call : SourceCall F}
variable {turn : Turn F} {rest stopped : Turn F → SourceOutcome F × Turn F} {view : View F}
variable {now : Duration} {request : RouteRequest} {ticket : Nat} {record : TaggedInput F}
variable {point : Point F} {target : PointerTarget} {handover : Handover F}

namespace Turn

theorem outcome_after (moves : Moves call view turn.view) : Moves call view turn.outcome.2.view :=
  moves.trans outcome_moves

omit [Scalar F] in
/-- A call goes on after a step that passed and stops after one that failed. -/
theorem passes_moves {good : View F → Prop} {result : Bool × Turn F}
    (passes : Passes call view good result)
    (stop : ∀ after : Turn F, Moves call view after.view → after.isFailed = true →
      Moves call view (stopped after).2.view)
    (go : ∀ after : Turn F, Moves call view after.view → after.Alive →
      good after.view → Moves call view (rest after).2.view) :
    Moves call view
      (match result with
        | (false, turn) => stopped turn
        | (true, turn) => rest turn).2.view := by
  obtain ⟨passed, after⟩ := result
  cases passed with
  | false => exact stop after passes.moves (passes.fails rfl)
  | true =>
    obtain ⟨lives, good⟩ := passes.passes rfl
    exact go after passes.moves lives good

/-- What every call begins with: the clock moves on. -/
theorem afterTime_moves (alive : turn.Alive)
    (stop : ∀ after : Turn F, Moves call turn.view after.view → after.isFailed = true →
      Moves call turn.view (stopped after).2.view)
    (go : ∀ after : Turn F, after.view = turn.view → after.Alive →
      Moves call turn.view (rest after).2.view) :
    Moves call turn.view
      (match turn.observeTime now with
        | (false, turn) => stopped turn
        | (true, turn) => rest turn).2.view :=
  passes_moves (observeTime_passes alive) stop fun after _ lives same => go after same lives

/-- Two calls go on with a failed controller as well. -/
theorem observed_moves
    (go : ∀ after : Turn F, after.view = turn.view → Moves call turn.view (rest after).2.view) :
    Moves call turn.view
      (match turn.observeTime now with
        | (false, turn) => turn.outcome
        | (true, turn) => rest turn).2.view := by
  cases failed : turn.isFailed with
  | true =>
    have same : (turn.observeTime now).2.view = turn.view := by
      unfold observeTime
      split
      · exact congrArg view (fail_of_failed failed _)
      · rfl
    generalize turn.observeTime now = observed at same ⊢
    obtain ⟨_ | _, after⟩ := observed
    · exact outcome_after (same ▸ .refl)
    · exact go after same
  | false =>
    exact afterTime_moves failed (fun after moves _ => outcome_after moves)
      fun after same _ => go after same

/-- Most calls leave a failed controller alone. -/
theorem living_moves
    (go : ∀ after : Turn F, after.view = turn.view → after.Alive →
      Moves call turn.view (rest after).2.view) :
    Moves call turn.view
      (if turn.isFailed then turn.outcome
        else match turn.observeTime now with
          | (false, turn) => turn.outcome
          | (true, turn) => rest turn).2.view := by
  split
  · exact outcome_moves
  next alive =>
  exact observed_moves fun after same =>
    go after same ((isFailed_of_view_eq same).trans (Bool.eq_false_iff.mpr alive))

/-- What most calls go on with: the peer's health is checked. -/
theorem afterHealth_moves (same : turn.view = view) (alive : turn.Alive)
    (stop : ∀ after : Turn F, Moves call view after.view → after.isFailed = true →
      Moves call view (stopped after).2.view)
    (go : ∀ after : Turn F, Moves call view after.view → after.Alive →
      Moves call view (rest after).2.view) :
    Moves call view
      (match turn.checkHealth now with
        | (false, turn) => stopped turn
        | (true, turn) => rest turn).2.view := by
  subst same
  exact passes_moves (checkHealth_passes alive) stop fun after moves lives _ =>
    go after moves lives

/-! ## Route tickets -/

theorem bindTicket_moves (alive : turn.Alive) (newer : turn.view.route.revision < ticket) :
    Moves (.bindCaptureRoute request ticket now) turn.view (turn.bindTicket request ticket).view := by
  have mismatch : turn.view.phase ≠ .entering request none ∧
      turn.view.phase ≠ .leaving request none →
      Moves (.bindCaptureRoute request ticket now) turn.view (turn.fail .routeMismatch).view := by
    intro other
    refine fail_here alive (.inl ⟨request, ticket, now, rfl, ?_⟩)
    rintro ⟨-, entering | leaving⟩
    · exact other.1 entering
    · exact other.2 leaving
  unfold bindTicket
  split
  · next wait state =>
    have phase : turn.view.phase = .entering wait.request wait.ticket := congrArg State.phase state
    split
    · next bound =>
      obtain ⟨rfl, unbound⟩ := bound
      rw [unbound] at phase
      exact .single (.bindRemote _ ticket now alive.seen rfl phase newer)
    · next other =>
      refine mismatch ⟨fun entering => other ?_, by rw [phase]; nofun⟩
      rw [phase] at entering
      simpa using entering
  · next wait state =>
    have phase : turn.view.phase = .leaving wait.request wait.ticket := congrArg State.phase state
    split
    · next bound =>
      obtain ⟨rfl, unbound⟩ := bound
      rw [unbound] at phase
      exact .single (.bindLocal _ ticket now alive.seen rfl phase newer)
    · next other =>
      refine mismatch ⟨by rw [phase]; nofun, fun leaving => other ?_⟩
      rw [phase] at leaving
      simpa using leaving
  · next state =>
    have phase : turn.view.phase = .failed := congrArg State.phase state
    split
    · exact .refl
    · exact mismatch ⟨by rw [phase]; nofun, by rw [phase]; nofun⟩
  · next notEntering notLeaving notFailed =>
    refine mismatch ?_
    rw [view_phase]
    cases state : turn.source.state with
    | awaitRemoteBarrier wait => exact absurd state (notEntering wait)
    | awaitLocalBarrier wait => exact absurd state (notLeaving wait)
    | _ => exact ⟨nofun, nofun⟩

theorem bindTicket_stays (failed : turn.isFailed = true) :
    turn.view.Stays (turn.bindTicket request ticket).view := by
  unfold bindTicket
  rw [fail_of_failed failed]
  split
  · split
    · exact { View.Stays.refl _ with }
    · exact .refl _
  · split
    · exact { View.Stays.refl _ with }
    · exact .refl _
  · split <;> exact .refl _
  · exact .refl _

theorem bindCaptureRoute_moves :
    Moves (.bindCaptureRoute request ticket now) turn.view
      (turn.bindCaptureRoute request ticket now).2.view := by
  unfold bindCaptureRoute
  split
  · exact outcome_moves
  refine observed_moves fun after same => ?_
  rw [← same]
  split
  · next stale =>
    refine outcome_after (fail_after .refl fun _ => .inl ⟨request, ticket, now, rfl, ?_⟩)
    rintro ⟨newer, -⟩
    rw [view_route] at newer
    omega
  · next fresh =>
    cases failed : after.isFailed with
    | true => exact outcome_after ((bindTicket_stays failed).moves failed)
    | false =>
      refine outcome_after (bindTicket_moves failed ?_)
      rw [view_route]
      omega

theorem failCaptureRouteSubmission_moves :
    Moves call turn.view (turn.failCaptureRouteSubmission request now).2.view := by
  unfold failCaptureRouteSubmission
  split
  · exact outcome_moves
  exact observed_moves fun after same =>
    outcome_after (fail_after (same ▸ .refl) fun _ => trivial)

theorem refuseActivation_moves (alive : turn.Alive) :
    Moves call turn.view (turn.refuseActivation request now).view := by
  unfold refuseActivation
  split
  · next wait state =>
    have entering : turn.view.phase = .entering wait.request wait.ticket :=
      congrArg State.phase state
    split
    · exact .head (by exact .takeBack false)
        (beginReturnTo_moves (by exact alive) (.inr ⟨_, _, by exact entering⟩) ..).1
    · exact fail_here alive trivial
  · exact fail_here alive trivial

theorem refuseCaptureActivation_moves :
    Moves call turn.view (turn.refuseCaptureActivation request now).2.view := by
  refine living_moves fun after same lives => ?_
  rw [← same]
  exact outcome_after (refuseActivation_moves lives)

/-! ## Records and polls -/

theorem onCaptured_moves :
    Moves (.captured record now) turn.view (turn.onCaptured record now).2.view := by
  refine living_moves fun after same lives => ?_
  refine afterHealth_moves same lives (fun after moves failed => ?_) fun after moves lives => ?_
  · rw [fail_of_failed failed]
    exact outcome_after moves
  · split
    · exact outcome_after (fail_after moves fun _ => trivial)
    · exact outcome_after (moves.trans (captured_moves lives))

theorem applyLocal_stays (failed : turn.isFailed = true) {input : NormalizedInput F}
    (entered : (∃ usage pressed isRepeat modifiers, input = .key usage pressed isRepeat modifiers) ∨
      ∃ button pressed stamp, input = .button button pressed stamp) :
    turn.view.Stays (turn.applyLocal input now).view := by
  rcases entered with ⟨usage, pressed, isRepeat, modifiers, rfl⟩ | ⟨button, pressed, stamp, rfl⟩
  · unfold applyLocal
    simp only []
    split
    · exact { View.Stays.refl _ with }
    · rw [fail_of_failed (by exact failed)]
      exact { View.Stays.refl _ with }
  · exact { View.Stays.refl _ with }

theorem bookkeeping_moves :
    Moves (.bookkeeping record) turn.view (turn.bookkeeping record).2.view := by
  have entered : ∀ input, record.event = input →
      ((∃ usage pressed isRepeat modifiers, input = .key usage pressed isRepeat modifiers) ∨
        ∃ button pressed stamp, input = .button button pressed stamp) →
      Moves (.bookkeeping record) turn.view
        (turn.applyLocal record.event turn.source.lastNow).view := by
    rintro input rfl isInput
    cases failed : turn.isFailed with
    | true => exact (applyLocal_stays failed isInput).moves failed
    | false =>
      exact applyLocal_moves failed (by exact fun captured => absurd captured Bool.false_ne_true)
        (by rfl)
  unfold bookkeeping
  split
  · next event => exact outcome_after (entered _ event (.inl ⟨_, _, _, _, rfl⟩))
  · next event => exact outcome_after (entered _ event (.inr ⟨_, _, _, rfl⟩))
  · exact outcome_moves

theorem rebase_moves (alive : turn.Alive) (home : turn.view.phase = .home) :
    Moves call turn.view (turn.rebase point target).view := by
  have rested : ∀ after : Turn F, Moves call turn.view after.view →
      Moves call turn.view (after.update fun source =>
        { source with rebasePointer := false, edgePushes := .none }).view :=
    fun after moves => moves
  refine rested _ ?_
  split
  · split
    · exact adoptLocalTarget_moves alive home ..
    · exact setLocal_view home .. ▸ .refl
  · exact setLocal_view home .. ▸ .refl

theorem pollPointer_moves (alive : turn.Alive) (home : turn.view.phase = .home) :
    Moves call turn.view (turn.pollPointer point now target).view := by
  have allowed := localCrossingAllowed_view turn
  have lives := (alive.arrive.of_eq allowed).arrive
  have moves : Moves call turn.view turn.localCrossingAllowed.2.arrive.view :=
    (allowed ▸ arrive_moves turn : Moves call turn.view _).trans (arrive_moves _)
  have home : turn.localCrossingAllowed.2.arrive.view.phase = .home := by
    rw [view_phase, arrive_source, ← view_phase, allowed, view_phase, arrive_source]
    exact home
  unfold pollPointer floorSnapshot
  simp only []
  split
  · exact moves.trans (rebase_moves lives home)
  · split
    · exact moves.trans (applyLocalMotion_moves lives)
    · exact moves

theorem observePointer_moves : Moves call turn.view (turn.observePointer point now).2.view := by
  unfold observePointer
  split
  · exact outcome_moves
  next usable =>
  have alive : turn.Alive := by
    simp only [Bool.or_eq_true, not_or] at usable
    exact Bool.eq_false_iff.mpr usable.1
  refine afterTime_moves alive (fun after moves _ => outcome_after moves)
    fun after same lives => ?_
  refine afterHealth_moves same lives (fun after moves _ => outcome_after moves)
    fun after moves lives => ?_
  split
  · exact outcome_after moves
  split
  · next target cursor state =>
    exact outcome_after (moves.trans (pollPointer_moves lives (congrArg State.phase state)))
  · exact outcome_after moves

/-! ## Frames and the owner's own calls -/

theorem onRemoteFrame_moves {frame : Frame F} :
    Moves (.remoteFrame frame now) turn.view (turn.onRemoteFrame frame now).2.view := by
  refine living_moves fun after same lives => ?_
  refine afterHealth_moves same lives (fun after moves _ => outcome_after moves)
    fun after moves lives => ?_
  split
  · exact outcome_after moves
  split
  · next limiter limited =>
    exact outcome_after (moves.trans (fail_same (by rfl) lives trivial))
  next limiter admitted =>
  have handled : Moves (.remoteFrame frame now)
      (after.update fun source => { source with remoteLimiter := limiter }).view _ :=
    onAdmittedFrame_moves (by exact lives) frame rfl now
  exact outcome_after (moves.trans handled)

theorem requestLocal_moves : Moves call turn.view (turn.requestLocal now).2.view := by
  refine living_moves fun after same lives => ?_
  refine afterHealth_moves same lives (fun after moves _ => outcome_after moves)
    fun after moves lives => ?_
  split
  · next stay state =>
    exact outcome_after (moves.trans
      (beginReturnTo_moves lives (.inl (congrArg State.phase state)) ..).1)
  · exact outcome_after moves

theorem returnHandover_after (moves : Moves call view turn.view) :
    Moves call view (turn.returnHandover handover).2.view :=
  outcome_after (moves.tail (.handover (some handover)))

omit [Scalar F] in
/-- The activation of a handover is marked as one, unless it failed. -/
theorem markHandover_moves {display : DisplayId} (asked : Ends (.acceptHandover handover now) view
      (fun view => view.phase = .asking display false false) turn) :
    Moves (.acceptHandover handover now) view (turn.markHandover handover).view := by
  unfold markHandover
  split
  · next wait state =>
    cases failed : turn.isFailed with
    | true =>
      refine asked.moves.trans (View.Stays.moves ?_ failed)
      exact { View.Stays.refl _ with }
    | false =>
      have phase := asked.living failed
      have shape := asked_of_state state
      have marked : Move (.acceptHandover handover now) turn.view _ :=
        .markHandover display handover now rfl phase
      rw [shape] at phase
      obtain ⟨same, remote, -⟩ : wait.target.display = display ∧
          wait.captureAlreadyRemote = true ∧ wait.handover = false := by simpa using phase
      refine asked.moves.tail ?_
      show Move _ turn.view { turn.view with
        phase := .asking wait.target.display (!wait.captureAlreadyRemote) true }
      rw [same, remote]
      exact marked
  · exact asked.moves

theorem enterHandover_moves (alive : turn.Alive) (home : turn.view.phase = .home)
    (free : turn.view.heldSince = none) (unclaimed : turn.view.claim = none)
    (newer : turn.view.route.revision ≤ handover.routeRevision) {sending : FloorSnapshot}
    (swap : (FloorOp.handOver handover.claim turn.view.slot).run turn.view.floor = .ok sending) :
    Moves (.acceptHandover handover now) turn.view
      ((turn.swapped sending).enterHandover handover sending).view := by
  have taken : Move (.acceptHandover handover now) turn.view (turn.view.takeOver handover sending) :=
    .takeOver handover now sending rfl alive.seen home free unclaimed newer swap
  have same : ((turn.swapped sending).takeOver handover sending).view =
      { turn.view.takeOver handover sending with takeBack := false } := by
    show { turn.view.takeOver handover sending with takeBack := false, phase := .home } = _
    rw [← home]
    rfl
  have moves : Moves (.acceptHandover handover now) turn.view
      ((turn.swapped sending).takeOver handover sending).view := by
    rw [same]
    exact (ReflTransGen.single taken).tail (.takeBack false)
  have asked : Ends (.acceptHandover handover now)
      ((turn.swapped sending).takeOver handover sending).view
      (fun view => view.phase = .asking handover.target.display (!true) false)
      (((turn.swapped sending).takeOver handover sending).beginRemoteActivation handover.target
        handover.entry handover.toEdge handover.returnTarget handover.returnPosition true) :=
    beginRemoteActivation_ends (by exact alive)
      (.inl ⟨rfl, by exact free, rfl, .inr ⟨handover, now, rfl⟩⟩) handover.target handover.entry
      handover.toEdge handover.returnTarget handover.returnPosition
  exact moves.trans (markHandover_moves asked)

omit [Scalar F] in
theorem acceptable_spec {source : SourceController F}
    (accepts : acceptable source handover now = true) :
    source.isLocal = true ∧ source.heldSince = none ∧ source.floorClaim = none ∧
      source.captureRoute.revision ≤ handover.routeRevision := by
  simp only [acceptable, Bool.and_eq_true, Bool.not_eq_true', decide_eq_true_eq,
    Option.isNone_iff_eq_none] at accepts
  refine ⟨by tauto, ?_, by tauto, by tauto⟩
  have unheld : source.isHeld = false := by tauto
  simpa [SourceController.isHeld] using unheld

theorem acceptHandover_moves :
    Moves (.acceptHandover handover now) turn.view (turn.acceptHandover handover now).2.view := by
  unfold acceptHandover
  split
  · exact returnHandover_after .refl
  next alive =>
  refine afterTime_moves (Bool.eq_false_iff.mpr alive)
    (fun after moves _ => returnHandover_after moves) fun after same lives => ?_
  refine afterHealth_moves same lives
    (fun after moves _ => returnHandover_after moves) fun after moves lives => ?_
  unfold takeHandover
  split
  · next accepts =>
    rcases floorCall_spec after (.handOver handover.claim after.source.slot) with
      ⟨sending, swap, called⟩ | ⟨found, called⟩
    · simp only [called]
      refine outcome_after ((moves.trans (arrive_moves after)).trans ?_)
      have able := acceptable_spec accepts
      exact enterHandover_moves lives.arrive
        (by simpa using phase_of_isLocal able.1) (by simpa using able.2.1)
        (by simpa using able.2.2.1) (by simpa using able.2.2.2)
        (by simpa using swap)
    · simp only [called]
      exact returnHandover_after (moves.trans (arrive_moves after))
  · exact returnHandover_after moves

omit [Scalar F] in
theorem isLocal_of_phase (home : turn.view.phase = .home) : turn.source.isLocal = true := by
  unfold isLocal SourceController.mode
  cases state : turn.source.state <;> simp_all [State.mode, State.phase]

theorem observeForeignRoute_moves {remote : Bool} {revision : Nat} :
    Moves (.observeForeignRoute remote revision now) turn.view
      (turn.observeForeignRoute remote revision now).2.view := by
  refine living_moves fun after same lives => ?_
  rw [← same]
  refine outcome_after ?_
  unfold adoptRoute
  split
  · next refused =>
    refine fail_here lives (.inr ⟨remote, revision, now, rfl, ?_⟩)
    rintro ⟨home, newer⟩
    rcases refused with away | stale
    · rw [isLocal_of_phase home] at away
      cases away
    · rw [view_route] at newer
      omega
  · next adopted =>
    rw [not_or, not_le, Bool.not_eq_true, Bool.not_eq_false'] at adopted
    exact .single (.foreign remote revision now lives.seen rfl
      (phase_of_isLocal adopted.1) adopted.2)

theorem abandon_moves : Moves call turn.view (turn.abandon now).2.view := by
  unfold abandon
  split
  · exact outcome_moves
  · next alive =>
    exact outcome_after (fail_same (by rfl) (Bool.eq_false_iff.mpr alive) trivial)

/-! ## Ticks -/

theorem challenge_moves (alive : turn.Alive) {health : PeerHealth}
    (next : health.nextToken = turn.source.health.nextToken + 1)
    (acked : health.lastAcked = turn.source.health.lastAcked) :
    Moves call turn.view
      ((turn.update fun source => { source with health }).challenge turn.source.health.nextToken
        now).view := by
  have same : ((turn.update fun source => { source with health }).update fun source =>
      { source with
        quality := source.quality.challengeSent turn.source.health.nextToken now }).view =
      { turn.view with nextToken := turn.view.nextToken + 1 } := by
    show { turn.view with nextToken := health.nextToken, lastAcked := health.lastAcked } = _
    rw [next, acked]
    rfl
  refine pushControl_moves alive.seen ?_ ?_
  · rw [same]
    exact { View.Apart.refl turn.view with }
  · rw [same]
    exact .ping alive.seen

theorem polled_moves (alive : turn.Alive) {sent : Option Nat} {health : PeerHealth}
    (polls : turn.source.health.Polls sent health) (now : Duration) :
    Moves call turn.view
      (match sent with
        | some token => (turn.update fun source => { source with health }).challenge token now
        | none => turn.update fun source => { source with health }).view := by
  rcases polls with ⟨rfl, next, acked⟩ | ⟨rfl, kept⟩
  · exact challenge_moves alive next acked
  · exact withHealth_view kept ▸ .refl

theorem pollHeld_moves (alive : turn.Alive) :
    Moves call turn.view (turn.pollHeld now).view := by
  unfold pollHeld
  split
  · next polled => exact polled_moves alive (pollWhileHeld_tokens polled) now
  · next polled => exact polled_moves alive (pollWhileHeld_tokens polled) now
  · exact fail_health alive _ _

theorem tickHeld_moves (alive : turn.Alive) (held : turn.view.heldSince.isSome = true)
    {since : Duration} : Moves call turn.view (turn.tickHeld since now).view := by
  unfold tickHeld
  split
  · exact fail_here alive trivial
  split
  · next due =>
    have barrier : _ ∨ _ ∧ Moves call turn.view _ :=
      sendHoldBarrier_spec alive.seen (View.Apart.refl _) rfl now
    rcases barrier with ⟨lives, sent⟩ | ⟨failed, moves⟩
    · rw [if_neg (by rw [lives]; decide)]
      have resent : Move call turn.view.flushed _ :=
        .resend alive.seen.flushed (by simpa using held)
          (by simpa using due.1) (View.flushed_waiting _)
      rw [(flushed_rest _).2.1, ← sent] at resent
      exact ((flushed_moves alive.seen).tail resent).trans (pollHeld_moves lives)
    · rw [if_pos failed]
      exact moves
  · rw [if_neg (by rw [alive]; decide)]
    exact pollHeld_moves alive

theorem pollHealth_moves (alive : turn.Alive) (free : turn.view.heldSince = none) :
    Moves call turn.view (turn.pollHealth now).view := by
  unfold pollHealth
  split
  · next polled => exact polled_moves alive (poll_tokens polled) now
  · next polled => exact polled_moves alive (poll_tokens polled) now
  · next health polled =>
    have same := withHealth_view (poll_expired_tokens polled)
    rw [← same]
    exact hold_moves (by exact alive) (by exact free) now
  · exact fail_health alive _ _

omit [Scalar F] in
/-- A motion is due only if it waits, and then nothing waits any more. -/
theorem due_spec (pacer : MotionPacer F) (interval now : Duration) :
    match pacer.due interval now with
    | (none, after) => after = pacer
    | (some position, after) => pacer.waiting = some position ∧ after.waiting = none := by
  unfold MotionPacer.due MotionPacer.flush
  cases waits : pacer.waiting <;> cases pacer.isOpen interval now <;> simp

theorem sendDueMotion_moves (alive : turn.Alive) :
    Moves call turn.view (turn.sendDueMotion now).view := by
  have due := due_spec turn.source.pacer turn.source.quality.quality.motionInterval now
  unfold sendDueMotion
  split
  · next pacer unsent =>
    rw [unsent] at due
    obtain rfl := due
    exact .refl
  next position pacer sent =>
  rw [sent] at due
  have quiet : turn.view.Apart (turn.update fun source => { source with pacer }).view :=
    (View.Apart.refl turn.view).waits pacer.waiting
  have sends : Sends call turn.view _ _ :=
    sendInput_sends alive.seen quiet (.motion (.absolute position))
  rcases sends with ⟨-, seen⟩ | ⟨-, -, moves⟩
  · have move : Move call turn.view _ := .motion position alive.seen due.1
    rw [seen]
    show Moves call turn.view (View.sendInput (turn.view.withWaiting pacer.waiting) _)
    rw [due.2]
    exact .single move
  · exact moves

theorem tickFree_moves (alive : turn.Alive) (free : turn.view.heldSince = none) :
    Moves call turn.view (turn.tickFree now).view := by
  have polled : Moves call turn.view (turn.pollHealth now).view := pollHealth_moves alive free
  unfold tickFree
  split
  · exact hold_moves alive free now
  · simp only []
    split
    · exact polled
    · next lives => exact polled.trans (sendDueMotion_moves (Bool.eq_false_iff.mpr lives))

theorem tick_moves : Moves call turn.view (turn.tick now).2.view := by
  refine living_moves fun after same lives => ?_
  have judged : (after.update fun source =>
      { source with quality := (source.quality.tick now).2 }).view = turn.view := same
  simp only []
  generalize (after.update fun source =>
    { source with quality := (source.quality.tick now).2 }) = ticked at judged ⊢
  have alive : ticked.Alive :=
    (isFailed_of_view_eq (judged.trans same.symm)).trans lives
  rw [← judged]
  split
  · next since held =>
    exact outcome_after (tickHeld_moves alive (by rw [view_heldSince, held]; rfl))
  · next free => exact outcome_after (tickFree_moves alive free)

/-! ## All calls -/

omit [Scalar F] in
theorem suppressionBudget_view :
    ({ turn with source := (turn.source.suppressionBudget now).2 } : Turn F).view = turn.view := by
  have tokens := turn.source.health.check_tokens now
  unfold suppressionBudget
  split
  · rfl
  split
  · rfl
  simp only []
  split
  · rfl
  split
  · rfl
  unfold PeerHealth.remaining
  generalize turn.source.health.check now = checked at tokens ⊢
  obtain ⟨result, health⟩ := checked
  have same := withHealth_view tokens
  cases result with
  | error error => exact same
  | ok => exact same

omit [Scalar F] in
theorem seedFromGroup_moves {keys : List HidUsage} {buttons : List MouseButton}
    {route : Bool × Nat} {captureReady : Bool} :
    Moves (.seedFromGroup keys buttons route captureReady) turn.view
      ({ turn with source := (turn.source.seedFromGroup keys buttons route captureReady).2 } :
        Turn F).view := by
  unfold seedFromGroup
  split
  · exact .refl
  next alive =>
  split
  · exact .refl
  next unclaimed =>
  split
  · exact .refl
  next newer =>
  split
  · exact .refl
  have settled : turn.source.isLocal = true ∧ turn.view.claim = none := by
    simpa using unclaimed
  have newer : turn.view.route.revision ≤ route.2 := by
    simp only [Bool.or_eq_true, not_or, decide_eq_true_eq, not_lt] at newer
    exact newer.2
  exact .single (.seed keys buttons route.1 route.2 captureReady alive rfl
    (phase_of_isLocal settled.1) settled.2 newer)

theorem run_moves (turn : Turn F) (call : SourceCall F) :
    Moves call turn.view (turn.run call).2.view := by
  cases call with
  | bindCaptureRoute request ticket now => exact bindCaptureRoute_moves
  | failCaptureRouteSubmission request now => exact failCaptureRouteSubmission_moves
  | refuseCaptureActivation request now => exact refuseCaptureActivation_moves
  | captured record now => exact onCaptured_moves
  | bookkeeping record => exact bookkeeping_moves
  | observePointer point now => exact observePointer_moves
  | remoteFrame frame now => exact onRemoteFrame_moves
  | requestLocal now => exact requestLocal_moves
  | acceptHandover handover now => exact acceptHandover_moves
  | observeForeignRoute remote revision now =>
    exact observeForeignRoute_moves
  | abandon now => exact abandon_moves
  | tick now => exact tick_moves
  | suppressionBudget now => exact suppressionBudget_view ▸ .refl
  | seedFromGroup keys buttons route captureReady =>
    exact seedFromGroup_moves
  | observePath | setReachable | setPeerOffset | setDoubleClickInterval | setCaptureReady =>
    exact .refl

end Turn
end Monhop.Transport
