import Monhop.Transport.SourceRefines

/-! # Trips as chains of moves

Landing on the peer, holds, the floor, returns and activations, one lemma for each function
a call is made of: what it does to the view where it succeeds, and that it is a chain of
moves in any case.
-/

namespace Monhop.Transport

open Monhop.Core Protocol
open Relation (ReflTransGen)
variable {F : Type} [Scalar F] {call : SourceCall F}
variable {reason : SourceFailure} {turn : Turn F} {view : View F}

/-- A step that may fail: false failed the controller, and true left the view good. -/
structure Passes (call : SourceCall F) (view : View F) (good : View F → Prop)
    (result : Bool × Turn F) : Prop where
  moves : Moves call view result.2.view
  fails : result.1 = false → result.2.isFailed = true
  passes : result.1 = true → result.2.Alive ∧ good result.2.view

variable {wait : Activation F} {now : Duration}

namespace Turn

omit [Scalar F] in
theorem isFailed_of_view_eq {other : Turn F} (same : other.view = turn.view) :
    other.isFailed = turn.isFailed :=
  congrArg (fun view => view.failure.isSome) same

omit [Scalar F] in
theorem Alive.of_eq {other : Turn F} (alive : turn.Alive) (same : other.view = turn.view) :
    other.Alive :=
  (isFailed_of_view_eq same).trans alive

section
variable (alive : turn.Alive)
include alive

theorem fail_here (fault : Fault call turn.view reason) :
    Moves call turn.view (turn.fail reason).view :=
  fail_moves alive.seen (View.Apart.refl _).drift fault

omit alive in
theorem fail_same {other : Turn F} (same : other.view = turn.view) (alive : turn.Alive)
    (fault : Fault call turn.view reason) : Moves call turn.view (other.fail reason).view := by
  rw [← same] at fault ⊢
  exact fail_here (alive.of_eq same) fault

omit alive in
theorem fail_after (moves : Moves call view turn.view)
    (fault : turn.Alive → Fault call turn.view reason) :
    Moves call view (turn.fail reason).view := by
  cases alive : turn.isFailed with
  | true => rwa [fail_of_failed alive]
  | false => exact moves.trans (fail_here alive (fault alive))

/-! ## Landing on the peer -/

theorem landRemote_moves (display : Display F)
    (asked : turn.view.phase = .asking wait.target.display false wait.handover)
    (answered : turn.view.Answered wait.target.display) :
    Moves call turn.view (turn.landRemote wait display).view := by
  have forwards : ∀ later : View F, later.Landing → later.Forwards := fun _ landing => .inr landing
  have grows : ∀ first later : View F, first.Grows later → first.Landing → later.Landing :=
    fun _ _ grows landing => landing.grows grows
  -- what is held is brought where the hand was when a button changed
  have brought : ∀ known changed : Point F, Ends call turn.view View.Landing
      ((turn.sendMoved wait.target.display known changed).bringHeldInput wait.handover) := by
    intro known changed
    unfold bringHeldInput
    split
    · have landing : turn.view.Landing := .answered _ _ asked answered
      exact (transferToRemote_follows
        (sendMoved_follows forwards grows .refl alive landing _ _ _)).ends
    next hop =>
    have hop : wait.handover = false := Bool.eq_false_iff.mpr hop
    have hopping : turn.view.Hopping wait.target.display := ⟨hop ▸ asked, answered⟩
    have moved : Follows call turn.view (fun view => view.Hopping wait.target.display)
        (turn.sendMoved wait.target.display known changed) :=
      sendMoved_follows (fun _ hopping => .inr hopping.landing)
        (fun _ _ grows hopping => hopping.grows grows) .refl alive hopping _ _ _
    have ends := synchronize_ends moved
    exact ⟨ends.moves, fun lives => (ends.living lives).landing⟩
  have ends := brought wait.entry
    (display.bounds.clampHalfOpen (wait.entry.moved (wait.atButton.getD wait.carried)))
  unfold landRemote
  simp only []
  split
  · exact ends.moves
  next lives =>
  have lives := Bool.eq_false_iff.mpr lives
  have moved := sendMoved_follows forwards grows ends.moves lives (ends.living lives)
    wait.target.display
    (display.bounds.clampHalfOpen (wait.entry.moved (wait.atButton.getD wait.carried)))
    (display.bounds.clampHalfOpen (wait.entry.moved wait.carried))
  split
  · exact moved.moves
  · next lives =>
    have lives : Turn.Alive _ := Bool.eq_false_iff.mpr lives
    exact moved.moves.tail (.land lives.seen (moved.ends.living lives))

omit alive in
theorem sendMoved_away (moves : Moves call view turn.view) (alive : turn.Alive)
    (away : turn.view.phase = .away) (display : DisplayId) (known position : Point F) :
    Moves call view (turn.sendMoved display known position).view := by
  have follows : Follows call view (fun view => view.phase = .away) _ :=
    sendMoved_follows (fun _ away => .inl away)
      (fun _ _ grows away => grows.phase.trans away) moves alive away display known position
  exact follows.moves

theorem enterRemote_moves {wait : RemoteBarrier F} {revision : Nat}
    (entering : turn.view.phase = .entering wait.request (some revision))
    (brought : call.event? = some (.routeChanged true revision)) :
    Moves call turn.view (turn.enterRemote wait revision).view := by
  have transferred : Follows call turn.view View.Landing
      (turn.update fun source =>
        { source with
          captureRoute := { remote := true, revision, owned := true } }).transferToRemote := by
    refine transferToRemote_follows ⟨.single ?_, .inl ⟨alive, .barrier _ _ entering⟩⟩
    exact .routeRemote wait.request revision alive.seen entering brought
  unfold enterRemote
  simp only []
  split
  · exact transferred.moves
  · next lives =>
    have lives : Turn.Alive _ := Bool.eq_false_iff.mpr lives
    refine sendMoved_away (transferred.moves.tail ?_) (by exact lives) rfl _ _ _
    exact .land lives.seen (transferred.ends.living lives)

/-! ## Requests to native capture -/

theorem restoreLocal_spec {target : PointerTarget} {position : Point F} :
    (∃ after, turn.restoreLocal target position = (true, after) ∧
        after.view = turn.view.restore target.display position ∧ after.Alive) ∨
      ∃ (failing : Turn F) (reason : SourceFailure),
        turn.restoreLocal target position = (false, failing.fail reason) ∧
        turn.view.Drift failing.view ∧
        (reason = .routeRequestExhausted ∨ reason = .effectCapacityExceeded) := by
  unfold restoreLocal allocateRouteRequest
  cases following : checkedSucc turn.source.nextRouteRequest with
  | none => exact .inr ⟨turn, _, rfl, (View.Apart.refl _).drift, .inl rfl⟩
  | some next =>
    obtain ⟨-, rfl⟩ := checkedSucc_eq_some.mp following
    cases room : turn.hasRoom with
    | false =>
      simp only [pushEffect, hasRoom_update, room, Bool.false_eq_true, if_false]
      refine .inr ⟨_, _, rfl, ?_, .inr rfl⟩
      exact { (View.Apart.refl turn.view).drift with requests := Nat.le_succ _ }
    | true =>
      simp only [pushEffect, push, hasRoom_update, room, if_true]
      exact .inl ⟨_, rfl, rfl, alive⟩

theorem activateRemote_moves
    {handedOver : Bool} (asked : turn.view.phase = .asking wait.target.display true handedOver)
    (answered : turn.view.Answered wait.target.display) :
    Moves call turn.view (turn.activateRemote wait).view := by
  unfold activateRemote allocateRouteRequest
  cases following : checkedSucc turn.source.nextRouteRequest with
  | none => exact fail_here alive trivial
  | some next =>
    obtain ⟨-, rfl⟩ := checkedSucc_eq_some.mp following
    cases room : turn.hasRoom with
    | false =>
      simp only [pushEffect, hasRoom_update, room, Bool.false_eq_true, if_false]
      refine fail_moves alive.seen ?_ trivial
      exact { (View.Apart.refl turn.view).drift with requests := Nat.le_succ _ }
    | true =>
      simp only [pushEffect, push, hasRoom_update, room, if_true]
      exact .single (.enter _ _ alive.seen asked answered)

end

/-! ## Holds -/

section

omit [Scalar F]

theorem flushed_withPending (view : View F) (pending lastAcked : Nat) :
    View.flushed { view with pending, lastAcked } = { view.flushed with pending, lastAcked } := by
  unfold View.flushed
  split <;> simp_all [View.withWaiting, View.sendInput, View.ask, View.record]

@[simp] theorem flushed_phase (view : View F) : view.flushed.phase = view.phase :=
  (View.grows_flushed view).phase

theorem flushed_owed (view : View F) : view.flushed.owed = view.owed := by
  simp [View.owed]

end

/-- The rest of a hold once its barrier went out: the whole is one move. -/
theorem retreatHome_moves (alive : view.Alive) (free : view.heldSince = none)
    (still : view.waiting = none) (lives : turn.Alive)
    (sent : turn.view = view.holdBarrier) (restore : PointerTarget × Point F) :
    Moves call view (turn.retreatHome
      (match view.phase with
        | .leaving _ _ => true
        | _ => false) view.nativeMayBeRemote restore now).view := by
  have whole : Move call view (view.retreat now restore.1.display restore.2) :=
    .hold _ _ _ alive free still
  unfold View.retreat at whole
  unfold retreatHome
  cases phase : view.phase with
  | leaving request ticket =>
    simp only [phase] at whole
    rw [← sent] at whole
    exact .single whole
  | home | asking | entering | away | releasing | failed =>
    simp only [phase] at whole
    simp only [Bool.false_eq_true, if_false]
    cases native : view.nativeMayBeRemote with
    | false =>
      simp only [native, Bool.false_eq_true, if_false] at whole ⊢
      rw [← sent] at whole
      exact .single whole
    | true =>
      simp only [native, if_true] at whole ⊢
      rcases restoreLocal_spec lives with
        ⟨after, restored, seen, -⟩ | ⟨failing, reason, restored, drift, exhausted⟩
      · rw [restored]
        rw [← sent, ← seen] at whole
        exact .single whole
      rw [restored]
      have unfailed : failing.Alive :=
        isFailed_of_view (drift.failure.trans lives.seen)
      simp only [fail_view unfailed]
      rw [sent] at drift
      exact .single (.holdFail _ _ _ _ alive free still drift exhausted)

omit [Scalar F] in
theorem restorePending_view (turn : Turn F) :
    (turn.source.mode == .awaitLocalCaptureBarrier) =
      match turn.view.phase with
      | .leaving _ _ => true
      | _ => false := by
  unfold SourceController.mode State.mode view State.phase
  cases turn.source.state <;> rfl

omit [Scalar F] in
theorem owed_view (turn : Turn F) :
    (if turn.source.mode = .awaitRemoteReleaseAcknowledgement then 1 else 0) = turn.view.owed := by
  unfold SourceController.mode State.mode View.owed view State.phase
  cases turn.source.state <;> rfl

theorem sendHoldBarrier_spec (alive : view.Alive) (apart : view.Apart turn.view)
    (waiting : turn.view.waiting = view.waiting) (now : Duration) :
    (turn.sendHoldBarrier now).Alive ∧
        (turn.sendHoldBarrier now).view =
          View.sendInput
            { turn.view.flushed with pending := saturatingSucc u32Max turn.view.pending } .releaseAll ∨
      (turn.sendHoldBarrier now).isFailed = true ∧
        Moves call view (turn.sendHoldBarrier now).view := by
  have sends : Sends call view (turn.pushInput .releaseAll) _ :=
    pushInput_sends alive apart waiting nofun
  unfold sendHoldBarrier
  rcases sends with ⟨lives, sent⟩ | ⟨jammed, -, moves⟩
  · refine .inl ?_
    simp only [lives, Bool.false_eq_true, if_false]
    refine ⟨lives, ?_⟩
    have pending : (turn.pushInput .releaseAll).view.pending = turn.view.pending := by
      rw [sent]
      exact (flushed_rest _).2.1
    show { (turn.pushInput .releaseAll).view with
      pending := saturatingSucc u32Max (turn.pushInput .releaseAll).view.pending } = _
    rw [pending, sent]
    rfl
  · rw [if_pos jammed.failed]
    exact .inr ⟨jammed.failed, moves⟩

theorem retreat_moves (alive : view.Alive) (free : view.heldSince = none)
    (same : turn.view = { view with lastAcked := view.nextToken - 1 }) :
    Moves call view (turn.retreat now).view := by
  have owing : ∀ (ownership : PointerOwnership) (owed : Nat), (turn.owe ownership owed).view =
      { view with
        lastAcked := view.nextToken - 1, pending := min (view.pending + owed) u32Max } := by
    intro ownership owed
    show { turn.view with pending := min (turn.view.pending + owed) u32Max } = _
    rw [same]
  have apart : ∀ (ownership : PointerOwnership) (owed : Nat),
      view.Apart (turn.owe ownership owed).view := by
    intro ownership owed
    rw [owing]
    exact { View.Apart.refl view with }
  unfold retreat
  simp only [owed_view]
  split
  · next ownership recovered =>
    have drift : view.Drift (turn.update fun source => { source with ownership }).view := by
      show view.Drift turn.view
      rw [same]
      exact { (View.Apart.refl view).drift with }
    exact fail_moves alive drift trivial
  · next ownership recovered =>
    have owed : turn.view.owed = view.owed := by rw [same]; rfl
    have waiting : (turn.owe ownership turn.view.owed).view.waiting = view.waiting := by
      rw [owing]
    have barrier : _ ∨ _ ∧ Moves call view _ :=
      sendHoldBarrier_spec alive (apart ownership turn.view.owed) waiting now
    rcases barrier with ⟨lives, sent⟩ | ⟨failed, moves⟩
    · rw [if_neg (by rw [lives]; decide)]
      have phase : turn.view.phase = view.flushed.phase := by rw [same, flushed_phase]
      have native : turn.source.nativeMayBeRemote = view.flushed.nativeMayBeRemote := by
        rw [← nativeMayBeRemote_view, (flushed_rest view).2.2.2.2.2, same]
        rfl
      have cleared : ((turn.owe ownership turn.view.owed).sendHoldBarrier now).forgetRemote.view =
          view.flushed.holdBarrier := by
        show ((turn.owe ownership turn.view.owed).sendHoldBarrier now).view.clearRemote = _
        rw [sent, owing, flushed_withPending, owed]
        unfold View.holdBarrier
        rw [flushed_owed, (flushed_rest view).2.1, (flushed_rest view).2.2.2.1]
        rfl
      rw [restorePending_view, phase, native]
      refine (flushed_moves alive).trans ?_
      exact retreatHome_moves alive.flushed (by simpa using free) (View.flushed_waiting _)
        (by exact lives) cleared _
    · rw [if_pos failed]
      exact moves

theorem hold_moves (alive : turn.Alive) (free : turn.view.heldSince = none)
    (now : Duration) : Moves call turn.view (turn.hold now).view := by
  unfold hold
  cases held : turn.source.health.hold now with
  | mk result health =>
    cases result with
    | error error =>
      have drift : turn.view.Drift (turn.update fun source => { source with health }).view :=
        { (View.Apart.refl turn.view).drift with }
      exact fail_moves alive.seen drift trivial
    | ok =>
      obtain ⟨next, acked⟩ := PeerHealth.hold_tokens held
      refine retreat_moves alive.seen free ?_
      rw [view_nextToken, ← acked, ← next]
      rfl

theorem observeTime_passes (alive : turn.Alive) :
    Passes call turn.view (· = turn.view) (turn.observeTime now) := by
  unfold observeTime
  split
  · exact ⟨fail_here alive trivial, fun _ => isFailed_fail _ _, nofun⟩
  · exact ⟨.refl, nofun, fun _ => ⟨alive, rfl⟩⟩

omit [Scalar F] in
/-- Health that kept its tokens does not show. -/
theorem withHealth_view {health : PeerHealth} (tokens : turn.source.health.SameTokens health) :
    (turn.update fun source => { source with health }).view = turn.view := by
  obtain ⟨next, acked⟩ := tokens
  show { turn.view with nextToken := health.nextToken, lastAcked := health.lastAcked } = _
  rw [next, acked]
  rfl

theorem fail_health (alive : turn.Alive) (health : PeerHealth) (error : HealthError) :
    Moves call turn.view
      ((turn.update fun source => { source with health }).fail (.peerHealth error)).view := by
  have drift : turn.view.Drift (turn.update fun source => { source with health }).view :=
    { (View.Apart.refl turn.view).drift with }
  exact fail_moves alive.seen drift trivial

omit [Scalar F] in
theorem heldSince_view (free : ¬turn.source.isHeld = true) : turn.view.heldSince = none := by
  simpa [SourceController.isHeld] using free

theorem checkHealth_passes (alive : turn.Alive) :
    Passes call turn.view (fun _ => True) (turn.checkHealth now) := by
  have tokens := turn.source.health.check_tokens now
  unfold checkHealth
  split
  · exact ⟨.refl, nofun, fun _ => ⟨alive, trivial⟩⟩
  next free =>
  split
  · next health checked =>
    rw [checked] at tokens
    exact ⟨by rw [withHealth_view tokens], nofun, fun _ => ⟨alive, trivial⟩⟩
  · next health checked =>
    rw [checked] at tokens
    have held : Moves call (turn.update fun source => { source with health }).view _ :=
      hold_moves (by exact alive) (by exact heldSince_view free) now
    rw [withHealth_view tokens] at held
    exact ⟨held, fun failed => by simpa using failed,
      fun passed => ⟨by simpa using passed, trivial⟩⟩
  · exact ⟨fail_health alive _ _, fun _ => isFailed_fail _ _, nofun⟩

omit [Scalar F] in
theorem tryResume_moves (alive : turn.Alive) :
    Moves call turn.view (turn.tryResume now).view := by
  have tokens := turn.source.health.resume_tokens now
  unfold tryResume
  split
  · exact .refl
  next since held =>
  have held : turn.view.heldSince.isSome = true := by simp [held]
  split
  · exact .refl
  next owing =>
  have settled : turn.view.pending = 0 ∧ turn.view.pongSeen = true := by
    simpa [not_or] using owing
  split
  · next error health resumed =>
    rw [resumed] at tokens
    have latched : (turn.update fun source =>
        { source with
          health, failure := source.failure.or (some (.peerHealth error)) }).view =
        { turn.view with failure := some (.peerHealth error) } := by
      have failure : turn.source.failure = none := alive.seen
      have same := withHealth_view tokens
      rw [← same]
      show { turn.view with
        nextToken := health.nextToken, lastAcked := health.lastAcked
        failure := turn.source.failure.or (some (.peerHealth error)) } = _
      rw [failure]
      rfl
    rw [latched]
    exact .single (.latch error alive.seen held)
  · next health resumed =>
    rw [resumed] at tokens
    have same := withHealth_view tokens
    have move : Move call turn.view _ :=
      .resume now alive.seen held settled.1 settled.2
    exact .single (same ▸ move)

/-! ## The floor -/

section

omit [Scalar F]

section
variable (turn)

theorem arrive_view : turn.arrive.view = turn.view.arrive := by
  unfold arrive View.arrive
  rw [view_script]
  cases turn.script <;> rfl

@[simp] theorem arrive_source : turn.arrive.source = turn.source := by
  unfold arrive
  split <;> rfl

theorem arrive_update (change : SourceController F → SourceController F) :
    (turn.update change).arrive = turn.arrive.update change := by
  obtain ⟨source, floor, script, settings, trace⟩ := turn
  cases script <;> rfl

theorem arrive_moves : Moves call turn.view turn.arrive.view :=
  arrive_view turn ▸ .single (.arrive)

theorem arrive_grows : view.Grows view.arrive := by
  unfold View.arrive
  split <;> exact ⟨rfl, rfl, fun _ member => member⟩

theorem isFailed_arrive : turn.arrive.isFailed = turn.isFailed := by
  simp [isFailed]

theorem Alive.arrive (alive : turn.Alive) : turn.arrive.Alive := (isFailed_arrive turn).trans alive

theorem floorCall_spec (operation : FloorOp) :
    (∃ floor, operation.run turn.arrive.floor = .ok floor ∧
        turn.floorCall operation = (.ok floor, turn.arrive.swapped floor)) ∨
      ∃ found, turn.floorCall operation = (.error found, turn.arrive) := by
  unfold floorCall
  cases swap : operation.run turn.arrive.floor with
  | ok floor => exact .inl ⟨floor, rfl, rfl⟩
  | error found => exact .inr ⟨found, rfl⟩

end
end

section
variable (alive : turn.Alive)
include alive

/-- A transition of the claim, given the move that swaps it. -/
theorem transition_passes {owned : FloorSnapshot} {target : FloorState}
    (move : ∀ next, (FloorOp.transition owned target).run turn.arrive.floor = .ok next →
      Move call turn.arrive.view (turn.arrive.view.swapClaim next)) :
    let result : Bool × Turn F := match turn.floorCall (.transition owned target) with
      | (.ok next, turn) =>
        (true, turn.update fun source => { source with floorClaim := some next })
      | (.error _, turn) => (false, turn.fail .ownership)
    Passes call turn.view turn.view.Grows result ∧
      (result.1 = false → result.2.view.phase = .failed) := by
  have lives := alive.arrive
  rcases floorCall_spec turn (.transition owned target) with
    ⟨next, swap, called⟩ | ⟨found, called⟩
  · rw [called]
    have grows : turn.view.Grows turn.arrive.view := arrive_view turn ▸ arrive_grows
    exact ⟨⟨(arrive_moves turn).tail (move next swap), nofun, fun _ => ⟨lives,
      grows.trans ⟨rfl, rfl, fun _ => List.mem_append_left _⟩⟩⟩, nofun⟩
  · rw [called]
    exact ⟨⟨fail_after (arrive_moves turn) fun _ => trivial, fun _ => isFailed_fail _ _, nofun⟩,
      fun _ => fail_phase lives _⟩

theorem returnFloor_passes
    (away : turn.view.phase = .away ∨ (∃ request ticket, turn.view.phase = .entering request ticket) ∨
      ∃ display handedOver, turn.view.phase = .asking display false handedOver) :
    Passes call turn.view turn.view.Grows turn.returnFloor ∧
      (turn.returnFloor.1 = false → turn.returnFloor.2.view.phase = .failed) := by
  unfold returnFloor
  split
  · exact ⟨⟨.refl, nofun, fun _ => ⟨alive, rfl, rfl, fun _ member => member⟩⟩, nofun⟩
  · next owned holds =>
    exact transition_passes alive fun returning swap => .returning owned returning
      alive.arrive.seen (by simpa using away) (by simpa using holds) swap

omit alive in
theorem beginOwnershipTransition_spec (turn : Turn F) (target : PointerTarget) :
    (∃ epoch ownership, turn.beginOwnershipTransition target =
        (some epoch, turn.update fun source => { source with ownership })) ∨
      ∃ failing : Turn F, turn.beginOwnershipTransition target = (none, failing.fail .ownership) ∧
        failing.view = turn.view := by
  unfold beginOwnershipTransition
  split
  · exact .inl ⟨_, _, rfl⟩
  · exact .inr ⟨_, rfl, rfl⟩

theorem releaseAll_sends :
    Sends call turn.view (turn.pushInput .releaseAll) (turn.view.flushed.sendInput .releaseAll) :=
  pushInput_sends alive.seen (View.Apart.refl _) rfl nofun

/-- Coming home, or going on to a third peer; a step of it that fails leaves nothing local. -/
theorem beginReturnTo_moves
    (away : turn.view.phase = .away ∨ ∃ request ticket, turn.view.phase = .entering request ticket)
    (home : PointerTarget) (homePosition : Point F) (entryGuard : Option (DisplayId × Edge))
    (handover : Option (HandoverTarget F)) :
    Moves call turn.view (turn.beginReturnTo home homePosition entryGuard handover).view ∧
      (turn.beginReturnTo home homePosition entryGuard handover).view.phase ≠ .home := by
  obtain ⟨returned, stopped⟩ : Passes call turn.view _ _ ∧ _ :=
    returnFloor_passes alive (away.imp_right .inl)
  unfold beginReturnTo
  split
  · next after called =>
    rw [called] at returned stopped
    exact ⟨returned.moves, by rw [stopped rfl]; nofun⟩
  next after called =>
  rw [called] at returned
  obtain ⟨lives, grows⟩ := returned.passes rfl
  have away : after.view.phase = .away ∨
      ∃ request ticket, after.view.phase = .entering request ticket := by rwa [grows.phase]
  rcases beginOwnershipTransition_spec after home with
    ⟨epoch, ownership, begun⟩ | ⟨failing, begun, same⟩
  · simp only [begun]
    have sends : Sends call after.view
        ((after.update fun source => { source with ownership }).pushInput .releaseAll) _ :=
      releaseAll_sends lives
    rcases sends with ⟨living, sent⟩ | ⟨jammed, failed, moves⟩
    · rw [if_neg (by rw [living]; decide)]
      refine ⟨returned.moves.trans ((flushed_moves lives.seen).tail ?_), nofun⟩
      have move : Move call after.view.flushed _ :=
        .comeBack handover.isSome lives.seen.flushed
          (by simpa using away) (View.flushed_waiting _)
      show Move call after.view.flushed { (pushInput _ .releaseAll).view with
        phase := .releasing handover.isSome }
      rw [sent]
      exact move
    · rw [if_pos jammed.failed]
      exact ⟨returned.moves.trans moves, by rw [failed]; nofun⟩
  · simp only [begun]
    have living : failing.Alive := lives.of_eq same
    refine ⟨returned.moves.trans ?_, by rw [fail_phase living]; nofun⟩
    rw [← same]
    exact fail_here living trivial

/-! ## The end of a call -/

theorem settleTakeBack_moves :
    Moves call turn.view turn.settleTakeBack.view ∧
      (turn.settleTakeBack.Alive ∨ turn.settleTakeBack.view.phase ≠ .home) := by
  have cleared : Moves call turn.view
      (turn.update fun source => { source with takeBack := false }).view :=
    .single (.takeBack false)
  unfold settleTakeBack
  split
  · split
    · next stay state =>
      have away : (turn.update fun source => { source with takeBack := false }).view.phase = .away := by
        show turn.source.state.phase = _
        rw [state]
        rfl
      have returned : Moves call _ _ ∧ _ := beginReturnTo_moves (by exact alive) (.inl away)
        stay.returnTarget stay.returnPosition none none
      exact ⟨cleared.trans returned.1, .inr returned.2⟩
    · exact ⟨cleared, .inl alive⟩
    · exact ⟨.refl, .inl alive⟩
  · exact ⟨.refl, .inl alive⟩

end

section

omit [Scalar F]

theorem releaseFloor_moves (alive : turn.Alive) (home : turn.view.phase = .home)
    (settled : turn.view.pending = 0 ∨ turn.view.heldSince = none) :
    Moves call turn.view turn.releaseFloor.view := by
  -- the claim is given up before the floor is asked; the moves give it up with the swap
  have freed : ∀ before : Turn F, Moves call turn.view before.view →
      before.source = turn.source → ∀ owned : FloorSnapshot, turn.view.claim = some owned →
      ∀ operation : FloorOp,
        (operation = .transition owned .free ∨ operation = .release .outbound owned.generation) →
        ∀ next, operation.run before.floor = .ok next →
        Moves call turn.view (View.record { before.view with floor := next, claim := none }
          (.swapped before.floor next)) := by
    intro before moves same owned holds operation named next swap
    refine moves.tail (.free owned next operation ?_ ?_ ?_ ?_ named swap)
    · rw [View.Alive, view_failure, same]
      exact alive.seen
    · rw [view_phase, same]
      exact home
    · rw [view_pending, view_heldSince, same]
      exact settled
    · rw [view_claim, same]
      exact holds
  have dropped : ∀ before : Turn F, Moves call turn.view before.view →
      before.source = turn.source → Moves call turn.view { before.view with claim := none } := by
    intro before moves same
    refine moves.tail (.lose ?_ ?_ ?_)
    · rw [View.Alive, view_failure, same]
      exact alive.seen
    · rw [view_phase, same]
      exact home
    · rw [view_pending, view_heldSince, same]
      exact settled
  unfold releaseFloor
  split
  · exact dropped turn .refl rfl
  next owned holds =>
  rcases floorCall_spec turn.dropClaim (.transition owned .free) with
    ⟨free, swap, called⟩ | ⟨found, called⟩
  · have moves := freed turn.arrive (arrive_moves turn) (arrive_source turn) owned holds _ (.inl rfl)
      free (by rwa [dropClaim, arrive_update] at swap)
    simp only [called]
    rw [dropClaim, arrive_update]
    split
    · exact moves
    · exact moves
  · have moves : Moves call turn.view turn.arrive.arrive.view :=
      (arrive_moves turn).trans (arrive_moves turn.arrive)
    simp only [called]
    rw [dropClaim, arrive_update]
    rcases floorCall_spec turn.arrive.dropClaim (.release .outbound owned.generation) with
      ⟨free, swap, called⟩ | ⟨found, called⟩
    · rw [dropClaim] at called
      rw [called, arrive_update]
      rw [dropClaim, arrive_update] at swap
      exact freed turn.arrive.arrive moves (by simp) owned holds _ (.inr rfl) free swap
    · rw [dropClaim] at called
      rw [called, arrive_update]
      exact dropped turn.arrive.arrive moves (by simp)

theorem phase_of_isLocal (isLocal : turn.source.isLocal = true) : turn.view.phase = .home := by
  unfold SourceController.isLocal SourceController.mode at isLocal
  cases state : turn.source.state <;> simp_all [State.mode, State.phase]

theorem settleFloor_moves (alive : turn.Alive ∨ turn.view.phase ≠ .home) :
    Moves call turn.view turn.settleFloor.view := by
  unfold settleFloor
  split
  · next settled =>
    have settled : turn.source.isLocal = true ∧ turn.view.pending = 0 := by simpa using settled
    have home := phase_of_isLocal settled.1
    exact releaseFloor_moves (alive.resolve_right (not_not_intro home)) home (.inl settled.2)
  · exact .refl

end

/-- Every call ends so. -/
theorem outcome_moves : Moves call turn.view turn.outcome.2.view := by
  unfold outcome
  split
  · exact .single (.handover none)
  · next lives =>
    have settled : Moves call _ _ ∧ _ := settleTakeBack_moves (Bool.eq_false_iff.mpr lives)
    exact (settled.1.trans (settleFloor_moves settled.2)).tail (.handover none)

end Turn
end Monhop.Transport
