import Monhop.Transport.SourceRecords

/-! # Frames of the peer as chains of moves

Heartbeats, the acknowledgements of barriers, take-backs, the answers to activations and
releases.  Each is accepted in its order or fails the controller.
-/

namespace Monhop.Transport

open Monhop.Core Protocol List SourceController
open Relation (ReflTransGen)
variable {F : Type} [Scalar F] {call : SourceCall F}
variable {wait : Activation F} {handedOver : Bool} {display : DisplayId} {frame : Frame F}
  {turn : Turn F} {view : View F}
variable {sequence : Nat}

namespace SourceController

/-! ## The order of frames -/

section

omit [Scalar F]
variable (source : SourceController F)

theorem activateInputEpoch_spec (epoch : SessionEpoch) :
    (∀ active, source.inboundInputEpoch = some active → active.get < epoch.get) ∧
        source.activateInputEpoch epoch =
          (true, { source with inboundInputEpoch := some epoch, inboundInputSequence := none }) ∨
      ¬(∀ active, source.inboundInputEpoch = some active → active.get < epoch.get) ∧
        source.activateInputEpoch epoch = (false, source) := by
  unfold activateInputEpoch
  cases opened : source.inboundInputEpoch with
  | none => exact .inl ⟨nofun, rfl⟩
  | some active =>
    by_cases old : epoch.get ≤ active.get
    · refine .inr ⟨fun newer => ?_, by simp [old]⟩
      have := newer active rfl
      omega
    · refine .inl ⟨fun other same => ?_, by simp [old]⟩
      cases same
      omega

theorem acceptInputSequence_spec (sequence : Nat) :
    (source.inboundInputEpoch = some source.inputEpoch ∧
          ∀ last, source.inboundInputSequence = some last → last < sequence) ∧
        source.acceptInputSequence sequence =
          (true, { source with inboundInputSequence := some sequence }) ∨
      ¬(source.inboundInputEpoch = some source.inputEpoch ∧
          ∀ last, source.inboundInputSequence = some last → last < sequence) ∧
        source.acceptInputSequence sequence = (false, source) := by
  unfold acceptInputSequence
  by_cases opened : source.inboundInputEpoch = some source.inputEpoch
  · cases seen : source.inboundInputSequence with
    | none => exact .inl ⟨⟨opened, nofun⟩, by simp [opened]⟩
    | some last =>
      by_cases old : sequence ≤ last
      · refine .inr ⟨fun newer => ?_, by simp [old]⟩
        have := newer.2 last rfl
        omega
      · refine .inl ⟨⟨opened, fun other same => ?_⟩, by simp [opened, old]⟩
        cases same
        omega
  · exact .inr ⟨fun both => opened both.1, by simp [opened]⟩

/-- Any sequence number is next in an epoch just opened. -/
theorem acceptInputSequence_first (opened : source.inboundInputEpoch = some source.inputEpoch)
    (first : source.inboundInputSequence = none) :
    source.acceptInputSequence sequence =
      (true, { source with inboundInputSequence := some sequence }) := by
  rcases source.acceptInputSequence_spec sequence with ⟨-, accepted⟩ | ⟨old, -⟩
  · exact accepted
  · refine absurd ⟨opened, fun last seen => ?_⟩ old
    rw [first] at seen
    cases seen

end
end SourceController

variable {token : Nat} {now : Duration}

namespace Turn

section

omit [Scalar F]

/-- The frame of the present epoch opens it, or is next in it. -/
theorem inOrder_iff (epoch : frame.epoch = turn.source.inputEpoch) :
    turn.view.InOrder frame ↔
      (turn.source.inboundInputEpoch = some frame.epoch ∧
          ∀ last, turn.source.inboundInputSequence = some last → last < frame.sequence) ∨
        ∀ active, turn.source.inboundInputEpoch = some active → active.get < frame.epoch.get :=
  ⟨fun inOrder => inOrder.2, fun opens => ⟨epoch, opens⟩⟩

/-- A frame is taken exactly when it is in order. -/
def TakesInOrder (turn : Turn F) (frame : Frame F) (answer : Bool × SourceController F) : Prop :=
  turn.view.InOrder frame ∧
      answer = (true, { turn.source with
        inboundInputEpoch := some frame.epoch, inboundInputSequence := some frame.sequence }) ∨
    ¬turn.view.InOrder frame ∧ ∃ inboundInputEpoch inboundInputSequence,
      answer = (false, { turn.source with inboundInputEpoch, inboundInputSequence })

theorem admitReply_spec (turn : Turn F) (frame : Frame F) :
    turn.TakesInOrder frame (admitReply turn.source frame) := by
  unfold TakesInOrder admitReply
  split
  · next other => exact .inr ⟨fun inOrder => other inOrder.1, _, _, rfl⟩
  next present =>
  have epoch : frame.epoch = turn.source.inputEpoch := not_not.mp present
  rw [inOrder_iff epoch]
  by_cases opened : turn.source.inboundInputEpoch = some frame.epoch
  · simp only [if_pos opened, if_true]
    rcases turn.source.acceptInputSequence_spec frame.sequence with
      ⟨newer, accepted⟩ | ⟨old, refused⟩
    · refine .inl ⟨.inl ⟨opened, newer.2⟩, ?_⟩
      rw [accepted, ← opened]
    · refine .inr ⟨?_, _, _, refused⟩
      rintro (⟨-, newer⟩ | newer)
      · exact old ⟨epoch ▸ opened, newer⟩
      · exact absurd (newer _ opened) (lt_irrefl _)
  · simp only [if_neg opened]
    rcases turn.source.activateInputEpoch_spec frame.epoch with ⟨newer, activated⟩ | ⟨old, refused⟩
    · simp only [activated, if_true]
      refine .inl ⟨.inr newer, ?_⟩
      exact acceptInputSequence_first _ (congrArg some epoch) rfl
    · simp only [refused, Bool.false_eq_true, if_false]
      refine .inr ⟨?_, _, _, rfl⟩
      rintro (⟨same, -⟩ | newer)
      · exact opened same
      · exact old newer

/-- A barrier's acknowledgement is taken as a reply is. -/
theorem admitBarrierAck_spec (turn : Turn F) (frame : Frame F) :
    turn.TakesInOrder frame (admitBarrierAck turn.source frame) := by
  have activated := turn.source.activateInputEpoch_spec frame.epoch
  by_cases epoch : frame.epoch = turn.source.inputEpoch
  · have same : admitBarrierAck turn.source frame = admitReply turn.source frame := by
      unfold admitBarrierAck admitReply
      rw [if_neg (not_not_intro epoch), ← epoch]
      by_cases opened : turn.source.inboundInputEpoch = some frame.epoch
      · simp [opened, epoch]
      rcases activated with ⟨-, activated⟩ | ⟨-, refused⟩
      · simp only [if_neg opened, activated]
        simp [epoch]
      · simp only [if_neg opened, refused]
        simp
    rw [same]
    exact admitReply_spec turn frame
  · refine .inr ⟨fun inOrder => epoch inOrder.1, ?_⟩
    unfold admitBarrierAck
    by_cases opened : turn.source.inboundInputEpoch = some turn.source.inputEpoch
    · simp only [if_pos opened]
      rw [if_pos (.inl epoch)]
      exact ⟨_, _, rfl⟩
    simp only [if_neg opened]
    rcases activated with ⟨-, activated⟩ | ⟨-, refused⟩
    · simp only [activated]
      rw [if_pos (.inl epoch)]
      exact ⟨_, _, rfl⟩
    · simp only [refused]
      rw [if_pos (.inl epoch)]
      exact ⟨_, _, rfl⟩

theorem accept_view (turn : Turn F) (frame : Frame F) :
    (({ turn with
      source := { turn.source with
        inboundInputEpoch := some frame.epoch
        inboundInputSequence := some frame.sequence } } : Turn F).record (.accepted frame)).view =
      turn.view.accept frame := rfl

end

theorem fail_untaken (alive : turn.Alive) (inboundInputEpoch : Option SessionEpoch)
    (inboundInputSequence : Option Nat) {reason : SourceFailure}
    (fault : Fault call turn.view reason) :
    Moves call turn.view
      (({ turn with
        source := { turn.source with inboundInputEpoch, inboundInputSequence } } : Turn F).fail
        reason).view := by
  have drift : turn.view.Drift ({ turn with
      source := { turn.source with inboundInputEpoch, inboundInputSequence } } : Turn F).view :=
    { (View.Apart.refl turn.view).drift with }
  exact fail_moves alive.seen drift fault

/-! ## Heartbeats -/

/-- A heartbeat goes out in the session's own epoch. -/
theorem pushControl_moves (alive : view.Alive) (apart : view.Apart turn.view)
    {message : Message F} (move : Move call view (turn.view.sendControl message)) :
    Moves call view (turn.pushControl message).view := by
  unfold pushControl
  split
  · exact fail_moves alive apart.drift trivial
  next next following =>
  obtain ⟨-, rfl⟩ := checkedSucc_eq_some.mp following
  unfold pushEffect
  split
  · next room =>
    rw [push_view, View.push, if_pos (by exact room)]
    exact .single move
  · refine fail_moves alive ?_ trivial
    exact { apart.drift with controlSequence := Nat.le_succ_of_le apart.controlSequence }

omit [Scalar F] in
/-- A heartbeat is taken first. -/
theorem heartbeat_moves (alive : turn.Alive)
    (beats : frame.message.isHeartbeat = true) (brought : call.frame? = some frame) {taken : Turn F}
    (same : taken.view = turn.view.record (.accepted frame)) {after : View F}
    (moves : Moves call taken.view after) : Moves call turn.view after := by
  rw [same] at moves
  exact .head (.acceptHeartbeat frame alive.seen brought beats) moves

theorem onPing_moves (alive : turn.Alive)
    (isPing : frame.message = .ping token) (brought : call.frame? = some frame) :
    Moves call turn.view (turn.onPing frame token).view := by
  dsimp only [onPing]
  split
  · exact .refl
  · refine heartbeat_moves alive (by rw [isPing]; rfl) brought (by rfl)
      (pushControl_moves (by exact alive.seen) (View.Apart.refl _) ?_)
    exact .pong token (by exact alive.seen)

omit [Scalar F] in
theorem withHealth_acked {health : PeerHealth}
    (next : health.nextToken = turn.source.health.nextToken) (acked : health.lastAcked = token) :
    (turn.update fun source => { source with health }).view =
      { turn.view with lastAcked := token } := by
  show { turn.view with nextToken := health.nextToken, lastAcked := health.lastAcked } = _
  rw [next, acked]
  rfl

theorem onPong_moves (alive : turn.Alive)
    (isPong : frame.message = .pong token) (brought : call.frame? = some frame)
    (taken : ∃ earlier, turn.trace = earlier ++ [.accepted frame]) :
    Moves call turn.view (turn.onPong token now).view := by
  unfold onPong
  split
  · next held =>
    split
    · exact fail_health alive _ _
    next fresh health received =>
    rcases PeerHealth.receivePongWhileHeld_tokens received with
      ⟨rfl, newer, next, acked⟩ | ⟨rfl, kept⟩
    · have credited : Move call turn.view { turn.view with lastAcked := token, pongSeen := true } :=
        .creditHeld frame token alive.seen held brought isPong taken newer
      have same : ((turn.update fun source => { source with health }).update fun source =>
          { source with holdPongSeen := true }).view =
          { turn.view with lastAcked := token, pongSeen := true } := by
        show { (turn.update fun source => { source with health }).view with pongSeen := true } = _
        rw [withHealth_acked next acked]
      refine (ReflTransGen.single credited).trans ?_
      rw [← same]
      exact tryResume_moves alive
    · exact withHealth_view kept ▸ .refl
  · next free =>
    split
    · exact fail_health alive _ _
    next health received =>
    show Moves call turn.view (turn.update fun source => { source with health }).view
    rcases PeerHealth.receivePong_tokens received with ⟨newer, next, acked⟩ | kept
    · rw [withHealth_acked next acked]
      exact .single (.credit token alive.seen (heldSince_view free) newer)
    · exact withHealth_view kept ▸ .refl

theorem onPongFrame_moves (alive : turn.Alive)
    (isPong : frame.message = .pong token) (brought : call.frame? = some frame) :
    Moves call turn.view (turn.onPongFrame frame token now).view := by
  dsimp only [onPongFrame]
  split
  · exact .refl
  · exact heartbeat_moves alive (by rw [isPong]; rfl) brought (by rfl)
      (onPong_moves alive isPong brought ⟨_, rfl⟩)

/-! ## Barriers and take-backs -/

theorem onBarrierAck_moves (alive : turn.Alive)
    (isAck : frame.message = .releaseAck) (brought : call.frame? = some frame)
    (owes : 0 < turn.view.pending) (notReleasing : ∀ onward, turn.view.phase ≠ .releasing onward) :
    Moves call turn.view (turn.onBarrierAck frame now).view := by
  unfold onBarrierAck
  rcases admitBarrierAck_spec turn frame with ⟨inOrder, admitted⟩ | ⟨late, epoch, sequence, refused⟩
  · simp only [admitted]
    have taken : Move call turn.view
        { turn.view.accept frame with pending := turn.view.pending - 1 } :=
      .barrierAck frame alive.seen brought isAck inOrder owes notReleasing
    exact .head (by exact taken) (tryResume_moves (by exact alive))
  · simp only [refused]
    exact fail_untaken alive epoch sequence
      ⟨frame, brought, .inl ⟨notReleasing, owes, isAck, late⟩⟩

section

omit [Scalar F]

theorem asking_iff :
    turn.source.mode = .awaitActivationAcknowledgement ↔
      ∃ display crossing handedOver, turn.view.phase = .asking display crossing handedOver := by
  unfold SourceController.mode
  rw [view_phase]
  cases turn.source.state <;> simp [State.mode, State.phase]

theorem releasing_iff (turn : Turn F) :
    turn.source.mode = .awaitRemoteReleaseAcknowledgement ↔
      ∃ onward, turn.view.phase = .releasing onward := by
  unfold SourceController.mode
  rw [view_phase]
  cases turn.source.state <;> simp [State.mode, State.phase]

variable {epoch : SessionEpoch}

theorem isPreviousReanchor_iff :
    isPreviousReanchor turn.source epoch = true ↔
      turn.view.inboundEpoch = some epoch ∧ epoch.get < turn.view.inputEpoch.get ∧
        ∃ display handedOver, turn.view.phase = .asking display false handedOver := by
  unfold isPreviousReanchor
  rw [view_phase]
  cases turn.source.state with
  | awaitActivation wait =>
    simp only [State.phase, Bool.and_eq_true, beq_iff_eq, decide_eq_true_eq, Phase.asking.injEq,
      Bool.not_eq_false', exists_and_left, exists_eq', and_true, view_inboundEpoch,
      view_inputEpoch]
    tauto
  | localInput | awaitRemoteBarrier | remote | awaitRelease | awaitLocalBarrier | failed =>
    simp [State.phase]

theorem newer_iff :
    (turn.source.inboundInputSequence.all fun last => decide (last < sequence)) = true ↔
      turn.view.Newer sequence := by
  unfold View.Newer
  rw [view_inboundSequence]
  cases turn.source.inboundInputSequence <;> simp

/-- What taking a take-back comes to; one that is refused changes nothing. -/
theorem admitTakeBack_spec (turn : Turn F) (frame : Frame F) :
    turn.view.AdmitsTakeBack frame ∧
        admitTakeBack turn.source frame =
          (true, { turn.source with
            inboundInputEpoch := some frame.epoch, inboundInputSequence := some frame.sequence }) ∨
      ¬turn.view.AdmitsTakeBack frame ∧
        admitTakeBack turn.source frame = (false, turn.source) := by
  unfold admitTakeBack
  by_cases previous : isPreviousReanchor turn.source frame.epoch = true
  · rw [if_pos previous]
    obtain ⟨opened, older, asking⟩ := isPreviousReanchor_iff.mp previous
    by_cases newer : turn.view.Newer frame.sequence
    · rw [if_pos (newer_iff.mpr newer)]
      refine .inl ⟨.inl ⟨opened, newer, .inr ⟨older, asking⟩⟩, ?_⟩
      rw [← opened]
      rfl
    · rw [if_neg (mt newer_iff.mp newer)]
      refine .inr ⟨?_, rfl⟩
      rintro (⟨-, newer', -⟩ | ⟨⟨present, -⟩, -⟩)
      · exact newer newer'
      · rw [present] at older
        exact lt_irrefl _ older
  · rw [if_neg previous]
    unfold openForTakeBack
    by_cases opened : turn.source.inboundInputEpoch = some frame.epoch
    · rw [if_pos opened]
      by_cases present : frame.epoch = turn.source.inputEpoch
      · simp only [if_pos present]
        rcases turn.source.acceptInputSequence_spec frame.sequence with
          ⟨newer, accepted⟩ | ⟨old, refused⟩
        · refine .inl ⟨.inl ⟨opened, newer.2, .inl present⟩, ?_⟩
          rw [accepted, ← opened]
        refine .inr ⟨?_, refused⟩
        rintro (⟨-, newer, -⟩ | ⟨⟨-, ⟨-, newer⟩ | newer⟩, -⟩)
        · exact old ⟨present ▸ opened, newer⟩
        · exact old ⟨present ▸ opened, newer⟩
        · exact lt_irrefl _ (newer _ opened)
      · simp only [if_neg present]
        refine .inr ⟨?_, trivial⟩
        rintro (⟨-, -, present' | ⟨older, asking⟩⟩ | ⟨⟨present', -⟩, -⟩)
        · exact present present'
        · exact previous (isPreviousReanchor_iff.mpr ⟨opened, older, asking⟩)
        · exact present present'
    · rw [if_neg opened]
      by_cases answers : turn.source.mode = .awaitActivationAcknowledgement ∧
          frame.epoch = turn.source.inputEpoch
      · rw [if_pos answers]
        rcases turn.source.activateInputEpoch_spec frame.epoch with
          ⟨newer, activated⟩ | ⟨old, refused⟩
        · simp only [activated, if_pos answers.2]
          refine .inl ⟨.inr ⟨⟨answers.2, .inr newer⟩, asking_iff.mp answers.1⟩, ?_⟩
          exact acceptInputSequence_first _ (congrArg some answers.2) rfl
        simp only [refused]
        refine .inr ⟨?_, trivial⟩
        rintro (⟨opened', -⟩ | ⟨⟨-, ⟨opened', -⟩ | newer⟩, -⟩)
        · exact opened opened'
        · exact opened opened'
        · exact old newer
      · rw [if_neg answers]
        refine .inr ⟨?_, rfl⟩
        rintro (⟨opened', -⟩ | ⟨⟨present, -⟩, asked⟩)
        · exact opened opened'
        · exact answers ⟨asking_iff.mpr asked, present⟩

theorem lateTakeBack_iff (turn : Turn F) (epoch : SessionEpoch) :
    turn.source.lateTakeBack epoch = true ↔ turn.view.IsLate epoch := by
  have settled : (turn.source.isLocal || turn.source.mode == .awaitLocalCaptureBarrier) = true ↔
      turn.view.phase = .home ∨ ∃ request ticket, turn.view.phase = .leaving request ticket := by
    unfold isLocal SourceController.mode
    rw [view_phase]
    cases turn.source.state <;> simp [State.mode, State.phase]
  have older : (turn.source.inboundInputEpoch.all fun opened => decide (opened.get ≤ epoch.get)) =
      true ↔ ∀ opened, turn.view.inboundEpoch = some opened → opened.get ≤ epoch.get := by
    rw [view_inboundEpoch]
    cases turn.source.inboundInputEpoch <;> simp
  unfold lateTakeBack View.IsLate
  rw [Bool.and_eq_true, Bool.and_eq_true, older, Bool.or_assoc, Bool.or_eq_true, settled,
    decide_eq_true_eq, and_assoc]
  rfl

end

theorem onTakeBack_moves (alive : turn.Alive)
    (isTakeBack : frame.message = .takeBack) (brought : call.frame? = some frame) :
    Moves call turn.view (turn.onTakeBack frame).view := by
  unfold onTakeBack
  rcases admitTakeBack_spec turn frame with ⟨admits, admitted⟩ | ⟨refuses, refused⟩
  · simp only [admitted]
    have taken : Moves call turn.view (turn.view.accept frame) := by
      refine .single (.accept frame alive.seen brought ?_ ?_ (.inl ⟨isTakeBack, admits⟩))
      · rw [isTakeBack]
        nofun
      · rw [isTakeBack]
        rfl
    split
    · exact taken
    · exact taken
    · exact taken
    · exact taken.tail (.takeBack true)
  · simp only [refused]
    split
    · next late =>
      refine fail_here alive ⟨frame, brought, .inl ⟨isTakeBack, refuses, ?_⟩⟩
      rw [← lateTakeBack_iff]
      simpa using late
    · exact .refl

/-! ## Answers to activations -/

omit [Scalar F] in
theorem activationAnswer_spec (wait : Activation F) (message : Message F) :
    match activationAnswer wait message with
    | none => message ≠ .activationAck wait.target.display ∧
        ∀ reason, message ≠ .activationDeclined wait.target.display reason
    | some none => message = .activationAck wait.target.display
    | some (some reason) => message = .activationDeclined wait.target.display reason := by
  cases message with
  | activationAck display =>
    by_cases same : display = wait.target.display <;> simp [activationAnswer, same]
  | activationDeclined display reason =>
    by_cases same : display = wait.target.display <;> simp [activationAnswer, same]
  | _ => simp [activationAnswer]

omit [Scalar F] in
theorem asked_of_state (state : turn.source.state = .awaitActivation wait) :
    turn.view.phase = .asking wait.target.display (!wait.captureAlreadyRemote) wait.handover :=
  congrArg State.phase state

section
variable (alive : turn.Alive)
include alive

theorem releaseDeclined_moves (asked : turn.view.phase = .asking display false handedOver)
    (declined : turn.view.Declined display) :
    Moves call turn.view (turn.releaseDeclined wait).view := by
  have returned : Passes call turn.view _ _ :=
    (returnFloor_passes alive (.inr (.inr ⟨display, handedOver, asked⟩))).1
  unfold releaseDeclined
  split
  · next after called =>
    rw [called] at returned
    exact returned.moves
  next after called =>
  rw [called] at returned
  obtain ⟨lives, grows⟩ := returned.passes rfl
  have sends : Sends call after.view (after.pushInput .releaseAll) _ := releaseAll_sends lives
  refine returned.moves.trans ?_
  rcases sends with ⟨-, sent⟩ | ⟨jammed, -, moves⟩
  · have flushes := grows.trans (View.grows_flushed after.view)
    obtain ⟨frame, accepted, epoch, said⟩ := declined
    have move : Move call after.view.flushed _ :=
      .declinedHop display handedOver lives.seen.flushed
        (flushes.phase.trans asked)
        ⟨frame, flushes.trace _ accepted, epoch.trans flushes.inputEpoch.symm, said⟩
        (View.flushed_waiting _)
    refine (flushed_moves lives.seen).tail ?_
    show Move call after.view.flushed
      { (after.pushInput .releaseAll).view with phase := .releasing false }
    rw [sent]
    exact move
  · refine moves.trans (View.Stays.moves ?_ jammed.failed)
    exact { View.Stays.refl _ with }

theorem activationDeclined_moves (free : turn.view.heldSince = none)
    (state : turn.source.state = .awaitActivation wait)
    (declined : turn.view.Declined wait.target.display) :
    Moves call turn.view (turn.activationDeclined wait now).view := by
  have asked := asked_of_state state
  unfold activationDeclined
  split
  · exact fail_same (by rfl) alive trivial
  next ownership recovered =>
  split
  · next remote =>
    rw [remote] at asked
    have forgot : Move call turn.view (turn.forgetActivation ownership wait now).view :=
      .forget _ _ alive.seen free asked declined
    exact .head forgot (releaseDeclined_moves alive asked declined)
  · next crossing =>
    rw [Bool.eq_false_iff.mpr crossing] at asked
    have home : Move call turn.view
        { turn.view.clearRemote with phase := .home, takeBack := false } :=
      .declined _ _ alive.seen free asked declined
    exact .head (by exact home) (releaseFloor_moves (by exact alive) rfl (.inr (by exact free)))

theorem sendFloor_passes (asked : turn.view.phase = .asking display true handedOver)
    (answered : turn.view.Answered display) :
    Passes call turn.view turn.view.Grows turn.sendFloor := by
  unfold sendFloor
  split
  · exact ⟨fail_here alive trivial, fun _ => isFailed_fail _ _, nofun⟩
  · next owned holds =>
    have answered := answered.grows (arrive_view turn ▸ arrive_grows)
    exact (transition_passes alive fun sending swap => .sending display handedOver owned sending
      alive.arrive.seen (by simpa using asked) answered (by simpa using holds) swap).1

theorem reachTarget_moves (asked : turn.view.phase =
      .asking wait.target.display (!wait.captureAlreadyRemote) wait.handover)
    (answered : turn.view.Answered wait.target.display) :
    Moves call turn.view (turn.reachTarget wait).view := by
  unfold reachTarget
  split
  · exact fail_same (by rfl) alive trivial
  next command ownership acknowledged =>
  have reached : Move call turn.view (turn.update fun source =>
      { source with ownership, remoteTarget := some wait.target }).view :=
    .reach _ _ _ alive.seen asked answered
  refine (ReflTransGen.single reached).trans ?_
  simp only []
  split
  · next remote =>
    rw [remote] at asked
    split
    · exact fail_here (by exact alive) trivial
    · exact landRemote_moves (by exact alive) _ (by exact asked) (by exact answered)
  · next crossing =>
    rw [Bool.eq_false_iff.mpr crossing] at asked
    exact activateRemote_moves alive asked
      answered

theorem activationAcknowledged_moves (state : turn.source.state = .awaitActivation wait)
    (answered : turn.view.Answered wait.target.display) :
    Moves call turn.view (turn.activationAcknowledged wait).view := by
  have asked := asked_of_state state
  have same : (turn.update .landed).view = turn.view := rfl
  unfold activationAcknowledged
  simp only []
  generalize turn.update .landed = landed at same ⊢
  rw [← same] at asked answered ⊢
  have lives : landed.Alive := alive.of_eq same
  split
  · exact reachTarget_moves lives asked answered
  next crossing =>
  have passes : Passes call landed.view _ _ := sendFloor_passes lives
    (by rw [asked, Bool.eq_false_iff.mpr crossing]; rfl) answered
  split
  · next after sent =>
    rw [sent] at passes
    exact passes.moves
  · next after sent =>
    rw [sent] at passes
    obtain ⟨living, grows⟩ := passes.passes rfl
    exact passes.moves.trans
      (reachTarget_moves living (grows.phase.trans asked) (answered.grows grows))

theorem onActivationReply_moves (free : turn.view.heldSince = none)
    (state : turn.source.state = .awaitActivation wait) (brought : call.frame? = some frame) :
    Moves call turn.view (turn.onActivationReply wait frame now).view := by
  have asked := asked_of_state state
  have invalid : ¬(turn.view.InOrder frame ∧ turn.view.AnsweredBy frame) →
      Fault call turn.view .invalidActivationAcknowledgement :=
    fun refused => ⟨frame, brought, free, ⟨_, _, _, asked⟩, refused⟩
  have answers := activationAnswer_spec wait frame.message
  unfold onActivationReply
  cases answer : activationAnswer wait frame.message with
  | none =>
    rw [answer] at answers
    refine fail_here alive (invalid ?_)
    rintro ⟨-, display, crossing, handedOver, asked', said⟩
    rw [asked] at asked'
    cases asked'
    exact said.elim answers.1 fun ⟨reason, said⟩ => answers.2 reason said
  | some found =>
    rcases admitReply_spec turn frame with ⟨inOrder, admitted⟩ | ⟨late, epoch, sequence, refused⟩
    · simp only [admitted]
      have said : turn.view.AnsweredBy frame ∧ frame.message ≠ .releaseAck ∧
          frame.message.isHeartbeat = false := by
        rw [answer] at answers
        cases found with
        | none => exact ⟨⟨_, _, _, asked, .inl answers⟩, by rw [answers]; nofun, by rw [answers]; rfl⟩
        | some reason =>
          exact ⟨⟨_, _, _, asked, .inr ⟨reason, answers⟩⟩, by rw [answers]; nofun,
            by rw [answers]; rfl⟩
      have taken : Move call turn.view (turn.view.accept frame) :=
        .accept frame alive.seen brought said.2.1 said.2.2 (.inr ⟨inOrder, said.1⟩)
      have same := accept_view turn frame
      have member : SourceEvent.accepted frame ∈ (turn.view.accept frame).trace :=
        mem_append_right _ (.head _)
      refine (ReflTransGen.single taken).trans ?_
      rw [← same] at member ⊢
      rw [answer] at answers
      cases found with
      | none =>
        exact activationAcknowledged_moves alive state
          ⟨frame, member, answers, inOrder.1⟩
      | some reason =>
        exact activationDeclined_moves alive free state
          ⟨frame, member, inOrder.1, reason, answers⟩
    · simp only [refused]
      exact fail_untaken alive epoch sequence (invalid fun both => late both.1)

end

/-! ## Answers to releases -/

section

omit [Scalar F]

theorem isReleaseAck_iff (message : Message F) :
    isReleaseAck message = true ↔ message = .releaseAck := by
  cases message <;> simp [isReleaseAck]

theorem drift_hasRoom {drifted : View F} (drift : view.Drift drifted) :
    drifted.hasRoom = view.hasRoom := by
  obtain ⟨frames, trace⟩ := drift.trace
  have none : frames.filterMap (SourceEvent.effect? ∘ SourceEvent.accepted) = [] :=
    filterMap_eq_nil_iff.mpr fun _ _ => rfl
  rw [View.hasRoom, trace, filterMap_append, filterMap_map, none, append_nil]
  rfl

theorem drift_trans {first second third : View F} (left : first.Drift second)
    (right : second.Drift third) : first.Drift third where
  toKept := left.toKept.trans right.toKept
  inputSequence := by
    rcases left.inputSequence with same | full
    · rcases right.inputSequence with same' | full
      · exact .inl (same'.trans same)
      · exact .inr (drift_hasRoom left ▸ full)
    · exact .inr full
  remoteMayHold := right.remoteMayHold.trans left.remoteMayHold
  trace := by
    obtain ⟨frames, trace⟩ := left.trace
    obtain ⟨more, trace'⟩ := right.trace
    exact ⟨frames ++ more, by rw [trace', trace, map_append, append_assoc]⟩

theorem accept_drift : view.Drift (view.accept frame) :=
  { (View.Apart.refl view).drift with trace := ⟨[frame], rfl⟩ }

/-- What the peer may hold is the same while a release is unacknowledged. -/
theorem clearRemote_drift {drifted : View F} (drift : view.Drift drifted) {onward : Bool}
    (releasing : view.phase = .releasing onward) : view.Drift drifted.clearRemote := by
  refine { drift with remoteMayHold := ?_ }
  unfold View.remoteMayHold
  rw [show drifted.clearRemote.phase = view.phase from drift.phase, releasing]
  simp [Phase.mayHold]

end

section
variable (alive : view.Alive) (free : view.heldSince = none)
  (brought : call.frame? = some frame) (isAck : frame.message = .releaseAck)
  (inOrder : view.InOrder frame)
include alive free brought isAck inOrder
variable {wait : ReleaseWait F}

theorem handOn_moves {released : Turn F} (same : released.view = (view.accept frame).clearRemote)
    (releasing : view.phase = .releasing true) {next : HandoverTarget F} :
    Moves call view (released.handOn wait next).view := by
  unfold handOn
  split
  · refine fail_moves alive ?_ trivial
    rw [same]
    exact clearRemote_drift accept_drift releasing
  next claim holds =>
  have holds : view.claim = some claim := by
    rw [← holds, ← view_claim, same]
    rfl
  have revision : released.source.captureRoute.revision = view.route.revision := by
    rw [← view_route, same]
    rfl
  have move : Move call view _ := .handOn frame
    { target := next.target, entry := next.entry, toEdge := next.toEdge
      carried := wait.carried.getD .origin, atButton := next.atButton
      returnTarget := wait.home, returnPosition := wait.homePosition, claim
      claimedFrom := released.source.freeGeneration
      routeRevision := released.source.captureRoute.revision }
    claim alive free releasing brought isAck inOrder holds rfl revision
  rw [← same, ← show released.view.route = view.route by rw [same]; rfl] at move
  exact .single move

theorem comeHome_moves {released : Turn F} (same : released.view = (view.accept frame).clearRemote)
    (releasing : view.phase = .releasing false) :
    Moves call view (released.comeHome wait).view := by
  have lives : released.Alive := isFailed_of_view (by rw [same]; exact alive)
  have remote : released.source.captureRoute.remote = view.route.remote := by
    rw [← view_route, same]
    rfl
  unfold comeHome
  simp only []
  generalize released.source.carriedOn wait.home.display wait.homePosition
    (wait.carried.getD .origin) = position
  have whole : Move call view _ :=
    .released frame wait.home.display position alive free releasing brought isAck inOrder
  split
  · next away =>
    rw [remote] at away
    rw [if_pos away, ← same] at whole
    rcases restoreLocal_spec lives with
      ⟨after, restored, seen, -⟩ | ⟨failing, reason, restored, drift, exhausted⟩
    · rw [restored]
      exact .single (seen ▸ whole)
    rw [restored]
    have released : view.Drift released.view :=
      same ▸ clearRemote_drift accept_drift releasing
    refine fail_moves alive (drift_trans released drift) ?_
    rcases exhausted with rfl | rfl <;> trivial
  · next home =>
    rw [remote] at home
    rw [if_neg home, ← same] at whole
    exact .single whole

theorem completeRemoteRelease_moves {taken : Turn F} (same : taken.view = view.accept frame)
    (releasing : view.phase = .releasing wait.handover.isSome) :
    Moves call view (taken.completeRemoteRelease wait).view := by
  unfold completeRemoteRelease
  split
  · next ownership refused =>
    refine fail_moves alive ?_ trivial
    show view.Drift taken.view
    rw [same]
    exact accept_drift
  · next ownership acknowledged =>
    have cleared : (taken.update fun source => { source with ownership }).forgetRemote.view =
        (view.accept frame).clearRemote := by
      show taken.view.clearRemote = _
      rw [same]
    split
    · next next handed =>
      rw [handed] at releasing
      exact handOn_moves alive free brought isAck inOrder cleared releasing
    · next handed =>
      rw [handed] at releasing
      exact comeHome_moves alive free brought isAck inOrder cleared releasing

end

theorem onReleaseReply_moves (alive : turn.Alive) (free : turn.view.heldSince = none)
    {wait : ReleaseWait F} (state : turn.source.state = .awaitRelease wait)
    (brought : call.frame? = some frame) :
    Moves call turn.view (turn.onReleaseReply wait frame).view := by
  have releasing : turn.view.phase = .releasing wait.handover.isSome := congrArg State.phase state
  have invalid : ¬(frame.message = .releaseAck ∧ frame.epoch = turn.view.inputEpoch ∧
      turn.view.inboundEpoch = some turn.view.inputEpoch ∧ turn.view.Newer frame.sequence) →
      Fault call turn.view .invalidReleaseAcknowledgement :=
    fun refused => ⟨frame, brought, .inr ⟨⟨_, releasing⟩, free, refused⟩⟩
  unfold onReleaseReply
  split
  · next wrong =>
    refine fail_here alive (invalid fun right => ?_)
    rcases wrong with epoch | message
    · exact epoch right.2.1
    · rw [right.1] at message
      cases message
  · next right =>
    obtain ⟨epoch, isAck⟩ : frame.epoch = turn.source.inputEpoch ∧ frame.message = .releaseAck := by
      rw [not_or, not_not, Bool.not_eq_true', Bool.not_eq_false, isReleaseAck_iff] at right
      exact right
    rcases turn.source.acceptInputSequence_spec frame.sequence with
      ⟨newer, accepted⟩ | ⟨old, refused⟩
    · simp only [accepted]
      have same : ({ turn with
          source := { turn.source with
            inboundInputSequence := some frame.sequence } }.record (.accepted frame)).view =
          turn.view.accept frame := by
        have opened : some frame.epoch = turn.source.inboundInputEpoch := by rw [newer.1, epoch]
        rw [← accept_view, opened]
      exact completeRemoteRelease_moves alive.seen free brought isAck
        ⟨epoch, .inl ⟨epoch ▸ newer.1, newer.2⟩⟩ same releasing
    · simp only [refused]
      exact fail_here alive (invalid fun right => old right.2.2)

/-! ## All frames -/

theorem onReply_moves (alive : turn.Alive)
    (brought : call.frame? = some frame) (other : frame.message ≠ .takeBack)
    (quiet : frame.message.isHeartbeat = false)
    (unowed : frame.message = .releaseAck → turn.view.pending = 0 ∨
      ∃ onward, turn.view.phase = .releasing onward) :
    Moves call turn.view (turn.onReply frame now).view := by
  unfold onReply
  split
  · exact .refl
  next free =>
  have free := heldSince_view free
  split
  · next wait state => exact onActivationReply_moves alive free state brought
  · next wait state => exact onReleaseReply_moves alive free state brought
  next notAsking notReleasing =>
  obtain ⟨asking, releasing⟩ : (∀ display crossing handedOver,
      turn.view.phase ≠ .asking display crossing handedOver) ∧
      ∀ onward, turn.view.phase ≠ .releasing onward := by
    rw [view_phase]
    cases state : turn.source.state with
    | awaitActivation wait => exact absurd state (notAsking wait)
    | awaitRelease wait => exact absurd state (notReleasing wait)
    | _ => exact ⟨nofun, nofun⟩
  refine fail_here alive ⟨frame, brought, .inr ⟨other, quiet, free, ?_, asking, releasing⟩⟩
  rintro ⟨isAck, owes⟩
  rcases unowed isAck with settled | ⟨onward, released⟩
  · omega
  · exact releasing onward released

theorem onAdmittedFrame_moves (alive : turn.Alive) (frame : Frame F)
    (brought : call.frame? = some frame) (now : Duration) :
    Moves call turn.view (turn.onAdmittedFrame frame now).view := by
  have releasing := releasing_iff turn
  unfold onAdmittedFrame
  split
  · next token isPing => exact onPing_moves alive isPing brought
  · next token isPong => exact onPongFrame_moves alive isPong brought
  · next isAck =>
    split
    · next owes =>
      refine onBarrierAck_moves alive isAck brought owes.1 ?_
      exact fun onward released => owes.2 (releasing.mpr ⟨onward, released⟩)
    next settled =>
    refine onReply_moves alive brought (by rw [isAck]; nofun) (by rw [isAck]; rfl) ?_
    intro _
    by_cases owes : 0 < turn.view.pending
    · exact .inr (releasing.mp (not_not.mp fun elsewhere => settled ⟨owes, elsewhere⟩))
    · exact .inl (Nat.eq_zero_of_not_pos owes)
  · next isTakeBack => exact onTakeBack_moves alive isTakeBack brought
  · next notPing notPong notAck notTakeBack =>
    refine onReply_moves alive brought notTakeBack ?_ (fun isAck => absurd isAck notAck)
    cases message : frame.message with
    | ping token => exact absurd message (notPing token)
    | pong token => exact absurd message (notPong token)
    | _ => rfl

end Turn
end Monhop.Transport
