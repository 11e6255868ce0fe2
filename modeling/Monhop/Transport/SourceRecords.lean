import Monhop.Transport.SourceTrips

/-! # Captured records as chains of moves

Keys and buttons, at home only entered in the tables and on the peer sent as well; scrolls
and gestures; the route barriers of native capture.
-/

namespace Monhop.Transport

open Monhop.Core Protocol
open Relation (ReflTransGen)
variable {F : Type} {call : SourceCall F} {turn : Turn F} {pressed isRepeat : Bool}
  {stamp : Duration} {usage : HidUsage} {modifiers : ModifierState} {button : MouseButton}
variable {record : TaggedInput F}

namespace Turn

/-! ## Keys and buttons -/

theorem enterKey_moves (alive : turn.Alive)
    (brought : call.event? = some (.key usage pressed isRepeat modifiers))
    (unsent : call.isCaptured = true → turn.view.route.remote = true → turn.view.phase = .away →
      pressed = false ∧ (turn.view.keys usage.code).remote = false) :
    Moves call turn.view
      (turn.update fun source =>
        { source with keys := turn.source.keys.setPhysical usage.code pressed }).view :=
  .single (.key usage pressed isRepeat modifiers alive.seen brought unsent)

theorem enterButton_moves (alive : turn.Alive)
    (brought : call.event? = some (.button button pressed stamp))
    (unsent : call.isCaptured = true → turn.view.route.remote = true → turn.view.phase = .away →
      pressed = true ∧ (turn.view.buttons button).physical = true ∨
        pressed = false ∧ (turn.view.buttons button).remote = false) :
    Moves call turn.view
      (turn.update fun source =>
        { source with buttons := turn.source.buttons.setPhysical button pressed }).view :=
  .single (.button button pressed stamp alive.seen brought unsent)

theorem enterKey_same (same : (turn.source.keys usage.code).physical = pressed) :
    (turn.update fun source =>
      { source with keys := turn.source.keys.setPhysical usage.code pressed }).view = turn.view := by
  rw [KeyTable.setPhysical_same same]
  rfl

theorem phase_ne_away (elsewhere : ∀ stay, turn.source.state = .remote stay → False) :
    turn.view.phase ≠ .away := by
  intro away
  rw [view_phase] at away
  cases state : turn.source.state <;> rw [state] at away <;> cases away
  exact elsewhere _ state

theorem markButton_view : (turn.update .markButton).view = turn.view := by
  show ({ turn with source := turn.source.markButton } : Turn F).view = _
  unfold SourceController.markButton
  split
  · next wait state =>
    split
    · exact withState_view (congrArg State.phase state).symm
    · rfl
  · next wait state =>
    split
    · next carried handover handed =>
      refine withState_view ?_
      rw [view_phase, state]
      show Phase.releasing true = .releasing wait.handover.isSome
      rw [handed]
      rfl
    · rfl
  · rfl

theorem view_buttons_eq (turn : Turn F) : turn.view.buttons = turn.source.buttons := rfl

theorem enterButton_view (turn : Turn F) (button : MouseButton) (pressed : Bool) :
    (turn.enterButton button pressed).view =
      { turn.view with buttons := turn.source.buttons.setPhysical button pressed } := by
  unfold enterButton
  simp only []
  split
  · exact markButton_view
  · rfl

/-- Asking whether a motion may move the pointer looks at the floor, at most twice. -/
theorem motionPermitted_view :
    (turn.motionPermitted record).2.view = turn.view ∨
      (turn.motionPermitted record).2.view = turn.arrive.view ∨
      (turn.motionPermitted record).2.view = turn.arrive.arrive.view := by
  have asked : (turn.floorPermits record).2.view = turn.arrive.view ∨
      (turn.floorPermits record).2.view = turn.arrive.arrive.view := by
    unfold floorPermits floorSnapshot
    simp only []
    split
    · exact .inl rfl
    · split
      · exact .inl rfl
      · exact .inr (localCrossingAllowed_view turn.arrive)
  unfold motionPermitted
  split
  · exact .inr asked
  · exact .inr asked
  · exact .inl rfl

theorem motionPermitted_keeps :
    Moves call turn.view (turn.motionPermitted record).2.view ∧
      (turn.motionPermitted record).2.isFailed = turn.isFailed := by
  rcases motionPermitted_view with same | same | same
  · exact ⟨same ▸ .refl, isFailed_of_view_eq same⟩
  · exact ⟨same ▸ arrive_moves turn, (isFailed_of_view_eq same).trans (isFailed_arrive turn)⟩
  · refine ⟨same ▸ (arrive_moves turn).trans (arrive_moves _), ?_⟩
    exact (isFailed_of_view_eq same).trans ((isFailed_arrive _).trans (isFailed_arrive turn))

variable [Scalar F] (alive : turn.Alive)
include alive

theorem fail_keys {keys : KeyTable} :
    Moves call turn.view
      ((turn.update fun source => { source with keys }).fail .invalidKeyState).view := by
  have drift : turn.view.Drift (turn.update fun source => { source with keys }).view :=
    { (View.Apart.refl turn.view).drift with }
  exact fail_moves alive.seen drift trivial

theorem applyLocal_moves
    (unrouted : call.isCaptured = true → turn.view.route.remote = false) {input : NormalizedInput F}
    (brought : call.event? = some input) {now : Duration} :
    Moves call turn.view (turn.applyLocal input now).view := by
  have unreachable : ∀ {statement : Prop}, call.isCaptured = true → turn.view.route.remote = true →
      statement := by
    intro statement captured remote
    rw [unrouted captured] at remote
    cases remote
  cases input with
  | key usage pressed isRepeat modifiers =>
    simp only [applyLocal]
    split
    · next keys change updated =>
      obtain ⟨rfl, -⟩ := KeyTable.updateKey_some updated
      exact enterKey_moves alive brought fun captured remote => unreachable captured remote
    · exact fail_keys alive
  | button button pressed stamp =>
    exact enterButton_moves alive brought fun captured remote => unreachable captured remote
  | absoluteMotion current => exact applyLocalMotion_moves alive
  | relativeMotion delta gain =>
    simp only [applyLocal]
    have carried := carryPending_view turn (turn.relative delta gain)
    split
    · next source pending =>
      rw [pending] at carried
      exact carried ▸ .refl
    · exact applyLocalRelative_moves alive
  | scroll | gesture | systemGesture | routeChanged => exact .refl

theorem forward_moves (away : turn.view.phase = .away) {message : Message F}
    (plain : (∃ scroll, message = .scroll scroll) ∨ (∃ gesture, message = .gesture gesture) ∨
      ∃ gesture, message = .systemGesture gesture) :
    Moves call turn.view (turn.pushInput message).view := by
  have still : ∀ position, message ≠ .motion (.absolute position) := by
    rintro position rfl
    rcases plain with ⟨_, eq⟩ | ⟨_, eq⟩ | ⟨_, eq⟩ <;> cases eq
  have sends : Sends call turn.view _ _ :=
    pushInput_sends alive.seen (View.Apart.refl _) rfl still
  have move : Move call turn.view.flushed (turn.view.flushed.sendInput message) :=
    .forward message alive.seen.flushed (by simpa using away)
      (View.flushed_waiting _) plain
  rcases sends with ⟨-, sent⟩ | ⟨-, -, moves⟩
  · rw [sent]
    exact (flushed_moves alive.seen).tail move
  · exact moves

theorem forwardKey_moves (away : turn.view.phase = .away)
    {change : KeyChange} (brought : call.event? = some (.key usage pressed isRepeat modifiers))
    (wasPhysical : change.wasPhysical = (turn.source.keys usage.code).physical)
    (wasRemote : change.wasRemote = ((pressed || (turn.source.keys usage.code).physical) &&
      (turn.source.keys usage.code).remote))
    (repeats : isRepeat = (pressed && (turn.source.keys usage.code).physical)) :
    Moves call turn.view
      ((turn.update fun source =>
        { source with keys := turn.source.keys.setPhysical usage.code pressed }).forwardKey usage
        pressed isRepeat change).view := by
  have lively := alive.seen.flushed
  have away' : turn.view.flushed.phase = .away := by simpa using away
  have still := View.flushed_waiting turn.view
  have sent : ∀ (keys : KeyTable) (isDown isRepeat : Bool),
      Move call turn.view.flushed
        (turn.view.flushed.sendKey keys usage.code isDown isRepeat) →
      Moves call turn.view ((turn.update fun source => { source with keys }).pushInput
        (.key { usage, isDown, isRepeat, modifiers := keys.remoteModifiers })).view := by
    intro keys isDown isRepeat move
    have follows : Follows call turn.view (fun _ => True) _ :=
      sendKey_follows alive (fun _ _ => trivial) isDown isRepeat move
    exact follows.moves
  unfold forwardKey
  split
  · next fresh =>
    obtain ⟨rfl, up⟩ : pressed = true ∧ (turn.source.keys usage.code).physical = false := by
      simpa [wasPhysical] using fresh
    obtain rfl : isRepeat = false := by simpa [up] using repeats
    have move : Move call turn.view.flushed _ :=
      .press usage modifiers lively away' still brought (by simpa using up)
    rw [flushed_keys] at move
    exact sent _ true false move
  · next stale =>
    split
    · next again =>
      obtain ⟨⟨rfl, remote⟩, rfl⟩ : (pressed = true ∧
          ((turn.source.keys.setPhysical usage.code pressed) usage.code).remote = true) ∧
          isRepeat = true := by simpa [update] using again
      have down : (turn.source.keys usage.code).physical = true := by simpa using repeats.symm
      rw [KeyTable.setPhysical_same down] at remote ⊢
      have move : Move call turn.view.flushed _ :=
        .again usage modifiers lively away' still brought (by simpa using remote)
      rw [flushed_keys] at move
      exact sent _ true true move
    · split
      · next released =>
        obtain ⟨rfl, remote⟩ : pressed = false ∧ change.wasRemote = true := by
          simpa using released
        have down : (turn.source.keys usage.code).physical = true ∧
            (turn.source.keys usage.code).remote = true := by simpa [wasRemote] using remote
        obtain rfl : isRepeat = false := repeats
        have move : Move call turn.view.flushed _ :=
          .release usage modifiers lively away' still brought (by simpa using down)
        rw [flushed_keys] at move
        exact sent _ false false move
      · next unsent =>
        -- nothing is sent for a key that is down only here
        cases down : (turn.source.keys usage.code).physical == pressed with
        | true => exact enterKey_same (by simpa using down) ▸ .refl
        | false =>
          refine enterKey_moves alive brought fun _ _ _ => ?_
          cases pressed <;> simp_all

theorem applyRemoteKey_moves
    (brought : call.event? = some (.key usage pressed isRepeat modifiers)) :
    Moves call turn.view (turn.applyRemoteKey usage pressed isRepeat modifiers).view := by
  unfold applyRemoteKey
  split
  · exact fail_keys alive
  next keys change updated =>
  obtain ⟨rfl, wasPhysical, wasRemote, repeats⟩ := KeyTable.updateKey_some updated
  simp only []
  split
  · next stay state =>
    exact forwardKey_moves alive (congrArg State.phase state) brought wasPhysical wasRemote repeats
  · next elsewhere =>
    refine enterKey_moves alive brought fun _ _ away => ?_
    exact absurd away (phase_ne_away elsewhere)

theorem forwardButton_moves {marked : Turn F} (away : turn.view.phase = .away)
    (brought : call.event? = some (.button button pressed stamp)) (same : marked.view =
      { turn.view with buttons := turn.source.buttons.setPhysical button pressed })
    {position : Point F} :
    Moves call turn.view
      (marked.forwardButton button pressed stamp
        (turn.source.buttons.updateButton button pressed).2 position).view := by
  have lively := alive.seen.flushed
  have away' : turn.view.flushed.phase = .away := by simpa using away
  have still := View.flushed_waiting turn.view
  have entered : marked.source.buttons = turn.source.buttons.setPhysical button pressed :=
    congrArg View.buttons same
  have sent : ∀ (changed : Turn F) (buttons : ButtonTable) (isDown : Bool) (clickCount : Nat),
      changed.view = { marked.view with buttons } →
      Move call turn.view.flushed
        (turn.view.flushed.sendButton buttons button isDown clickCount) →
      Moves call turn.view
        (changed.pushInput (.button { button, isDown, clickCount })).view := by
    intro changed buttons isDown clickCount seen move
    have follows : Follows call turn.view (fun _ => True) _ :=
      sendButton_follows alive (fun _ _ => trivial) (seen.trans (by rw [same])) move
    exact follows.moves
  unfold forwardButton
  split
  · next fresh =>
    obtain ⟨rfl, up⟩ : pressed = true ∧ (turn.source.buttons button).physical = false := by
      simpa [ButtonTable.updateButton] using fresh
    generalize marked.source.clicks.press button position stamp = counted
    have move : Move call turn.view.flushed _ :=
      .pressButton button stamp counted.1 lively away' still brought (by simpa using up)
    rw [flushed_buttons] at move
    rw [view_buttons_eq, ← entered] at move
    exact sent _ _ true counted.1 rfl move
  · next stale =>
    split
    · next released =>
      obtain ⟨rfl, remote⟩ : pressed = false ∧ (turn.source.buttons button).remote = true := by
        simpa [ButtonTable.updateButton] using released
      have move : Move call turn.view.flushed _ :=
        .releaseButton button stamp lively away' still brought (by simpa using remote)
      rw [flushed_buttons, view_buttons_eq] at move
      have clicks : (marked.source.buttons button).remoteClicks =
          (turn.source.buttons button).remoteClicks := by
        rw [entered]
        simp
      rw [← clicks, ← entered] at move
      exact sent _ _ false _ rfl move
    · next unsent =>
      rw [same]
      refine enterButton_moves alive brought fun _ _ _ => ?_
      cases pressed <;> simp_all [ButtonTable.updateButton]

theorem applyRemoteButton_moves
    (brought : call.event? = some (.button button pressed stamp)) :
    Moves call turn.view (turn.applyRemoteButton button pressed stamp).view := by
  have same := enterButton_view turn button pressed
  have phase : turn.view.phase = (turn.enterButton button pressed).source.state.phase := by
    rw [← view_phase, same]
  unfold applyRemoteButton
  simp only []
  split
  · next stay state =>
    exact forwardButton_moves alive (by rw [phase, state]; rfl) brought same
  · next elsewhere =>
    rw [same]
    refine enterButton_moves alive brought fun _ _ away => ?_
    exact absurd (phase.symm.trans away) (phase_ne_away elsewhere)

variable {now : Duration}

theorem applyRemote_moves {input : NormalizedInput F} (brought : call.event? = some input) :
    Moves call turn.view (turn.applyRemote input now).view := by
  cases input with
  | key usage pressed isRepeat modifiers => exact applyRemoteKey_moves alive brought
  | button button pressed stamp => exact applyRemoteButton_moves alive brought
  | relativeMotion delta gain =>
    unfold applyRemote
    simp only []
    split
    · exact applyRemoteMotion_moves alive _ now
    · exact carryPending_view turn _ ▸ .refl
  | scroll horizontal vertical =>
    unfold applyRemote
    simp only []
    split
    · next stay state =>
      split
      · exact forward_moves alive (congrArg State.phase state) (.inl ⟨_, rfl⟩)
      · exact .refl
    · exact .refl
  | gesture made =>
    unfold applyRemote
    simp only []
    split
    · next stay state =>
      exact forward_moves alive (congrArg State.phase state) (.inr (.inl ⟨_, rfl⟩))
    · exact .refl
  | systemGesture made =>
    unfold applyRemote
    simp only []
    split
    · next stay state =>
      exact forward_moves alive (congrArg State.phase state) (.inr (.inr ⟨_, rfl⟩))
    · exact .refl
  | absoluteMotion | routeChanged => exact .refl

/-! ## Records -/

theorem applyRecord_moves
    (plain : ∀ remote revision, record.event ≠ .routeChanged remote revision) :
    Moves (.captured record now) turn.view (turn.applyRecord record now).view := by
  unfold applyRecord
  split
  · next mismatch =>
    refine fail_here alive (.inr ⟨record, now, rfl, ?_⟩)
    split
    · next remote revision event => exact absurd event (plain remote revision)
    · exact mismatch
  · obtain ⟨moves, lives⟩ : Moves (.captured record now) _ _ ∧ _ :=
      motionPermitted_keeps
    split
    · next after permitted =>
      rw [permitted] at moves
      exact moves
    next after permitted =>
    rw [permitted] at moves lives
    have lives : after.Alive := lives.trans alive
    split
    · exact moves.trans (applyRemote_moves lives rfl)
    · next home =>
      exact moves.trans (applyLocal_moves lives (fun _ => Bool.eq_false_iff.mpr home) rfl)

theorem onRouteChanged_moves {remote : Bool}
    {revision : Nat} (event : record.event = .routeChanged remote revision) :
    Moves (.captured record now) turn.view (turn.onRouteChanged remote revision).view := by
  have unexpected : ¬turn.view.Awaits remote revision →
      Moves (.captured record now) turn.view (turn.fail .unexpectedRouteBarrier).view :=
    fun unawaited => fail_here alive (.inl ⟨record, now, remote, revision, rfl, event, unawaited⟩)
  unfold onRouteChanged
  split
  · next wait state =>
    have phase : turn.view.phase = .entering wait.request wait.ticket := congrArg State.phase state
    split
    · next bound =>
      obtain ⟨rfl, ticket⟩ : remote = true ∧ wait.ticket = some revision := by simpa using bound
      exact enterRemote_moves alive (ticket ▸ phase) (congrArg some event)
    · next unbound =>
      exact unexpected fun awaits => unbound (by
        simpa [View.Awaits, state, State.phase] using awaits)
  · next wait state =>
    have phase : turn.view.phase = .leaving wait.request wait.ticket := congrArg State.phase state
    split
    · next bound =>
      obtain ⟨rfl, ticket⟩ : remote = false ∧ wait.ticket = some revision := by simpa using bound
      exact .single (.arriveHome wait.request revision alive.seen (ticket ▸ phase)
        (congrArg some event))
    · next unbound =>
      exact unexpected fun awaits => unbound (by
        simpa [View.Awaits, state, State.phase] using awaits)
  · next notEntering notLeaving =>
    refine unexpected fun awaits => ?_
    cases state : turn.source.state <;> simp_all [View.Awaits, State.phase]

theorem captured_moves :
    Moves (.captured record now) turn.view (turn.captured record now).view := by
  unfold captured
  split
  · next remote revision event =>
    split
    · next mismatch =>
      refine fail_here alive (.inr ⟨record, now, rfl, ?_⟩)
      rw [event]
      exact mismatch
    · exact onRouteChanged_moves alive event
  · next plain => exact applyRecord_moves alive plain

end Turn
end Monhop.Transport
