import Monhop.Transport.ReceiverCleanup

/-! # Runs of a pairwise receiver

Every call keeps a receiver safe: part by part for the calls that never activate it, and
along a trail of its own for the activation.  A run is any sequence of calls with other
threads acting, and native actions failing, at any access.
-/

namespace Monhop.Transport

open Monhop.Core Protocol Session
open Library (Program Trail Answered Lts)
open Library.Program
variable {F : Type}
variable {first second session : Session F}

/-! ## Parts that end or keep control -/

theorem steady_retryCleanup : Moves steady (retryCleanup : ReceiverProgram F _) :=
  fun _ safe => Cleaned.steady (retryCleanup_cleaned safe.pairwise) safe

theorem steady_stop (failure : ReceiverFailure) :
    Moves steady (Session.stop failure : ReceiverProgram F _) :=
  fun _ safe => Calmed.steady (stop_calmed safe.pairwise) safe

theorem steady_stopWith {Value : Type} (failure : ReceiverFailure) :
    Moves steady (stopWith failure : ReceiverProgram F Value) :=
  fun _ safe => Calmed.steady (stopWith_calmed safe.pairwise) safe

theorem steady_hold (now : Duration) : Moves steady (Session.hold now : ReceiverProgram F _) :=
  fun _ safe => Calmed.steady (hold_calmed safe.pairwise) safe

theorem releasing_covers : Covers (releasing : Trail (Session F)) fun action => action.isRelease = true :=
  quiet_covers _

theorem steady_covers : Covers (steady : Trail (Session F)) fun action => action.isRelease = true :=
  { access := steady_releasing releasing_covers.access
    gate := fun change same => steady_releasing (releasing_covers.gate change same)
    keep := fun change same => steady_releasing (releasing_covers.keep change same)
    bookkeep := fun change same => steady_releasing (releasing_covers.bookkeep change same)
    apply := fun action may => steady_releasing (releasing_covers.apply action may) }

theorem steady_dropMove {change : InputReceiver F → InputReceiver F}
    (same : ∀ receiver, SameActivity { receiver with pendingMove := none } (change receiver)) :
    Moves steady (Session.update change) := by
  intro session safe
  have kept := same session.receiver
  refine ⟨⟨⟨safe.pairwise.port, kept.shared.trans safe.pairwise.shared⟩, ?_, ?_, ?_⟩, ?_, ?_⟩
  · exact fun _ => kept.pendingMove
  · intro inert
    exact kept.active.trans (safe.inert (kept.isInert ▸ inert))
  · intro inactive done
    exact safe.settles (kept.active ▸ inactive) (kept.cleanupPending ▸ done)
  · exact fun inactive => kept.active.trans inactive
  · exact .of_trace_eq rfl

theorem steady_yieldToLocal {generation : Nat} :
    Moves steady (yieldToLocal generation : ReceiverProgram F _) := by
  refine steady_covers.snapshot.bind fun floor => Books.receiverState.bind
    fun receiver => .ite (fun _ => moves_pure) fun _ =>
      (steady_dropMove fun _ => by repeat' constructor).bind fun _ => ?_
  refine (steady_covers.releaseInjected fun _ release => release).bind fun released => ?_
  refine .ite (fun _ => steady_stopWith _) fun _ => ?_
  exact steady_covers.noteInjectedReleased.bind fun _ => moves_pure

theorem steady_takeBack : Moves steady (takeBack : ReceiverProgram F _) := by
  refine Books.receiverState.bind fun receiver => .ite (fun _ => moves_pure) fun _ => ?_
  refine (steady_releasing (quiet_takeTriggered _)).bind fun triggered => ?_
  cases triggered with
  | none => exact moves_pure
  | some generation => exact steady_yieldToLocal

/-- What follows may rely on the receiver it read. -/
theorem moves_receiverState {Value : Type} {trail : Trail (Session F)}
    {rest : InputReceiver F → ReceiverProgram F Value}
    (goes : ∀ session, trail.holds session ((rest session.receiver).exec session).2) :
    Moves trail (receiverState >>= rest) :=
  goes

theorem steady_applyPendingMove : Moves steady (applyPendingMove : ReceiverProgram F _) := by
  refine steady_covers.suppressInjection.bind fun suppressed => ?_
  refine .ite (fun _ => steady_dropMove fun _ => by repeat' constructor) fun _ =>
    moves_receiverState fun session => ?_
  cases waiting : session.receiver.pendingMove with
  | none => exact steady.refl session
  | some point =>
    intro safe
    -- a move waits only while the receiver is active
    have active : session.receiver.active ≠ none := by
      intro inactive
      rw [safe.resting inactive] at waiting
      cases waiting
    refine holds_bind ?_ (fun _ => steady_dropMove fun _ => by repeat' constructor) safe
    exact steady_injecting active ((quiet_covers _).deliver trivial session)

/-! ## Barriers -/

/-- At rest: not active, and everything released. -/
structure Rested (first second : Session F) : Prop where
  pairwise : Pairwise second
  active : second.receiver.active = none
  pendingMove : second.receiver.pendingMove = none
  settled : Settled second.world.trace
  posts : Posts OnlyReleases first second

theorem Rested.calmed (rested : Rested first second) : Calmed first second :=
  ⟨⟨rested.pairwise, rested.active, rested.pendingMove, fun _ => rested.settled⟩, rested.posts⟩

theorem Rested.update (rested : Rested first second) (change : InputReceiver F → InputReceiver F)
    (same : ∀ receiver, SameRest receiver (change receiver)) :
    (Session.update change).Returns second fun _ after => Rested first after := by
  refine (update_returns change second).mono fun _ after ⟨port, world, receiver⟩ => ?_
  refine ⟨⟨port.trans rested.pairwise.port, ?_⟩, ?_, ?_, world ▸ rested.settled, ?_⟩
  · rw [receiver, (same _).shared, rested.pairwise.shared]
  · rw [receiver, (same _).active, rested.active]
  · rw [receiver, (same _).pendingMove, rested.pendingMove]
  · exact rested.posts.trans (.of_trace_eq (by rw [world]))

variable {now : Duration}

theorem endHold_rested (rested : Rested first second) :
    (endHold now).Ensures second fun _ after => Rested first after := by
  refine (rested.update _ fun _ => by repeat' constructor).bind fun _ cleaned rested => ?_
  refine (rested.update _ fun receiver => ?_).bind fun _ resumed rested => ?_
  · cases receiver.heldSince <;> repeat' constructor
  · refine ensures_receiverState.mpr
      ((rested.update _ fun _ => by repeat' constructor).bind fun _ polled rested => ?_)
    split <;> exact rested

/-- A barrier's native release that succeeds has released everything. -/
theorem releaseNative_settles (pairwise : Pairwise session) :
    (releaseNative true).Ensures session fun result after =>
      releasing.holds session after ∧ (result = .ok () → Settled after.world.trace) := by
  refine ((releasing_covers.releaseInjected fun _ release => release).returns
    (releaseInjected_returns pairwise.port)).bind fun released middle ⟨moved, settles⟩ => ?_
  cases released with
  | false => exact ⟨moved, nofun⟩
  | true =>
    refine (releasing_covers.noteInjectedReleased.ensures middle).mono fun _ after noted => ?_
    exact ⟨releasing.trans moved noted, fun _ => settled_releasing noted (settles rfl)⟩

theorem releaseControl_settles (pairwise : Pairwise session) :
    releaseControl.Ensures session fun result after =>
      releasing.holds session after ∧ (result = .ok () → Settled after.world.trace) := by
  refine (mayRelease_returns pairwise).bind fun releases start ⟨looked, allowed⟩ => ?_
  subst allowed
  refine (releaseNative_settles (pairwise.quiet looked)).bind ?_ ?_
  · intro _ released ⟨moved, settles⟩
    have frees : Moves releasing (releaseFloor : ReceiverProgram F _) := quiet_releaseFloor _
    refine (frees.ensures released).mono fun _ after freed => ?_
    have path := releasing.trans (releasing.trans looked moved) freed
    exact ⟨path, fun _ => settled_releasing freed (settles rfl)⟩
  · exact fun _ after ⟨moved, _⟩ => ⟨releasing.trans looked moved, nofun⟩

/-- What follows a barrier's release keeps the receiver at rest. -/
theorem finishRelease_rested (pairwise : Pairwise session) (settled : Settled session.world.trace)
    (posts : Posts OnlyReleases first session) {held : Bool} :
    (finishRelease held now).Ensures session fun _ after => Rested first after := by
  refine (update_returns _ session).bind fun _ after ⟨port, world, receiver⟩ => ?_
  have rested : Rested first after := by
    refine ⟨⟨port.trans pairwise.port, ?_⟩, ?_, ?_, world ▸ settled, ?_⟩
    · rw [receiver]
      exact pairwise.shared
    · rw [receiver]
    · rw [receiver]
    · exact posts.trans (.of_trace_eq (by rw [world]))
  have ends : (runIf held (endHold now)).Ensures after fun _ last => Rested first last := by
    cases held with
    | false => exact rested
    | true => exact endHold_rested rested
  exact ends.bind (fun _ _ rested => rested) fun _ _ rested => rested

theorem steady_receiveRelease (held : Bool) (now : Duration) :
    Moves steady (receiveRelease held now : ReceiverProgram F _) := by
  have closes : ∀ closing : Bool, Moves releasing (runIf closing
      (updateGate fun gate => gate.openInjection 0) : ReceiverProgram F _) :=
    fun closing => .runIf fun _ => releasing_covers.openInjection 0
  refine steady_covers.ownsNative.bind fun owns => Books.receiverState.bind
    fun receiver => (steady_releasing (closes _)).bind fun _ => ?_
  intro session safe
  have goes : (releaseControl >>= fun _ => finishRelease held now).Ensures session
      fun _ after => Steady session after := by
    refine (releaseControl_settles safe.pairwise).bind ?_ ?_
    · intro _ released ⟨moved, settles⟩
      refine (finishRelease_rested (safe.pairwise.quiet moved) (settles rfl)
        (moved.2.2.mono fun _ _ may => may.2)).mono fun _ after rested => ?_
      exact rested.calmed.steady safe
    · exact fun _ after ⟨moved, _⟩ => (Cleaned.of_releasing safe.pairwise moved).steady safe
  exact goes

/-! ## Frames -/

theorem exec_receiverState {Value : Type} (rest : InputReceiver F → ReceiverProgram F Value)
    (session : Session F) :
    (receiverState >>= rest).exec session = (rest session.receiver).exec session := rfl

theorem exec_requireActive {Value : Type} (rest : DisplayId × Point F → ReceiverProgram F Value)
    (session : Session F) :
    (requireActive >>= rest).exec session = match session.receiver.active with
      | none => (.error .notActive, session)
      | some active => (rest active).exec session := by
  have runs : (requireActive >>= rest).Ensures session fun result after =>
      (result, after) = match session.receiver.active with
        | none => (.error .notActive, session)
        | some active => (rest active).exec session := by
    rw [ensures_bind]
    refine ensures_receiverState.mpr ?_
    cases session.receiver.active <;> rfl
  exact runs

theorem steady_input {rest : DisplayId × Point F → ReceiverProgram F Unit}
    (moves : Moves (quiet fun _ => True) (requireActive >>= rest)) :
    Moves steady (requireActive >>= rest) := by
  intro session
  cases activation : session.receiver.active with
  | none =>
    rw [exec_requireActive, activation]
    exact steady.refl session
  | some active => exact steady_injecting (by simp [activation]) (moves session)

variable {displayId : DisplayId}

theorem steady_track {point : Point F} (active : session.receiver.active ≠ none) :
    steady.holds session { session with receiver :=
      { session.receiver with pendingMove := some point, active := some (displayId, point) } } := by
  intro safe
  refine ⟨⟨⟨safe.pairwise.port, safe.pairwise.shared⟩, nofun, ?_, nofun⟩, ?_, .of_trace_eq rfl⟩
  · exact fun inert => (active (safe.inert inert)).elim
  · exact fun inactive => (active inactive).elim

section Frames
variable [Scalar F]

theorem steady_receiveMotion (motion : Motion F) : Moves steady (receiveMotion motion) := by
  intro session
  unfold receiveMotion
  rw [exec_requireActive]
  cases activation : session.receiver.active with
  | none => exact steady.refl session
  | some active =>
    have running : session.receiver.active ≠ none := by simp [activation]
    rcases active with ⟨displayId, previous⟩
    dsimp only
    rw [exec_receiverState]
    -- absolute or relative, the next point is checked the same way
    repeat' split
    all_goals first | exact steady.refl session | exact steady_track running

theorem steady_receiveInput (message : Message F) (now : Duration) :
    Moves steady (receiveInput message now) := by
  have covers := quiet_covers fun _ : DestinationAction F => True
  have may : ∀ action : DestinationAction F, action.touches = false → True := fun _ _ => trivial
  cases message with
  | key key => exact steady_input (covers.receiveKey may key)
  | button button => exact steady_input (covers.receiveButton may button)
  | scroll scroll => exact steady_input (covers.receiveScroll may scroll)
  | gesture gesture => exact steady_input (covers.receiveGesture (fun _ => trivial) gesture now)
  | systemGesture gesture => exact steady_input (covers.receiveSystemGesture may gesture)
  | motion motion => exact steady_receiveMotion motion
  | _ => exact moves_throw _

theorem steady_handles : Handles (steady : Trail (Session F)) where
  covers := steady_covers
  retryCleanup := steady_retryCleanup
  stop := steady_stop
  hold := steady_hold
  applyPendingMove := steady_applyPendingMove
  receiveRelease := steady_receiveRelease
  receiveInput := steady_receiveInput

/-! ## Activations -/

/-- The move that anchors an activation. -/
def anchors (frame : Frame F) (action : DestinationAction F) : Prop :=
  match frame.message with
  | .activateDisplayAt _ position _ => action = .moveTo position
  | _ => False

/-- What a call with `frame` may post: beside what is permitted, a receiver neither held nor
failed posts the move of the activation it admits. -/
def Admissible (receiver : InputReceiver F) (frame : Frame F) (inert : Bool)
    (action : DestinationAction F) : Prop :=
  Permitted receiver inert action ∨ (inert = false ∧ anchors frame action)

/-- What an activation of a receiver neither held nor failed does. -/
def anchoring (position : Point F) : Trail (Session F) where
  holds first second := Safe first → first.receiver.isInert = false →
    Safe second ∧ second.receiver.isInert = false ∧
      Posts (fun inert action => inert = false ∧ action = .moveTo position) first second
  refl session safe alive := ⟨safe, alive, .of_trace_eq rfl⟩
  trans := by
    intro first second third leading trailing safe alive
    obtain ⟨secondSafe, secondAlive, posts⟩ := leading safe alive
    obtain ⟨thirdSafe, thirdAlive, laterPosts⟩ := trailing secondSafe secondAlive
    exact ⟨thirdSafe, thirdAlive, posts.trans laterPosts⟩

omit [Scalar F] in
theorem anchoring_of_quiet {position : Point F}
    (moved : (quiet (· = .moveTo position)).holds first second) :
    (anchoring position).holds first second := by
  intro safe alive
  have pairwise := safe.pairwise.quiet moved
  obtain ⟨_, same, posts⟩ := moved
  rw [alive] at posts
  refine ⟨⟨pairwise, ?_, ?_, ?_⟩, ?_, posts⟩
  · rw [same.active, same.pendingMove]
    exact safe.resting
  · rw [same.isInert, same.active]
    exact safe.inert
  · rw [same.active, same.cleanupPending]
    intro inactive done
    refine posts.settled ?_ (safe.settles inactive done)
    rintro inert action ⟨_, rfl⟩
    exact ⟨rfl, rfl⟩
  · rw [same.isInert, alive]

variable {frame : Frame F}

theorem anchoring_receiveActivation {position : Point F} {controlAsCommand : Bool} :
    Moves (anchoring position)
      (receiveActivation false frame displayId position controlAsCommand) := by
  have covers := quiet_covers (· = DestinationAction.moveTo position)
  have lift : ∀ {Value : Type} {program : ReceiverProgram F Value},
      Moves (quiet (· = .moveTo position)) program → Moves (anchoring position) program :=
    fun moves session => anchoring_of_quiet (moves session)
  refine (lift (covers.admitEpoch frame displayId position controlAsCommand)).bind fun _ => ?_
  refine (lift (quiet_admitActivation _)).bind fun declined => ?_
  cases declined with
  | some reason => exact moves_pure
  | none =>
    have drops : Moves (anchoring position)
        (Session.update fun receiver => { receiver with pendingMove := none }) := by
      intro session safe alive
      have kept : Moves steady (Session.update fun receiver : InputReceiver F =>
        { receiver with pendingMove := none }) :=
        steady_dropMove fun _ => by repeat' constructor
      exact ⟨(kept session safe).safe, alive, .of_trace_eq rfl⟩
    refine drops.bind fun _ => (lift covers.suppressInjection).bind fun suppressed => ?_
    refine (lift (.runIf fun _ => covers.deliver rfl)).bind fun _ => ?_
    have activates : Moves (anchoring position)
        (Session.update fun receiver => { receiver with active := some (displayId, position) }) := by
      intro session safe alive
      have running : session.receiver.isInert ≠ true := by simp [alive]
      refine ⟨⟨⟨safe.pairwise.port, safe.pairwise.shared⟩, nofun, ?_, nofun⟩, alive, .of_trace_eq rfl⟩
      exact fun inert => (running inert).elim
    exact activates.bind fun _ => moves_pure

/-! ## Whole calls -/

omit [Scalar F] in
/-- A frame is processed as not held only by a receiver that is not. -/
theorem detectHold_alive (working : session.receiver.failure = none) :
    (detectHold now).Ensures session fun result after =>
      result = .ok false → after.receiver.isInert = false := by
  refine ensures_receiverState.mpr ?_
  split
  · intro stopped
    cases stopped
  next running =>
  refine (update_returns _ session).bind ?_
  rintro _ checked ⟨_, _, receiver⟩
  split
  · intro _
    show checked.receiver.isInert = false
    rw [receiver]
    simpa [InputReceiver.isInert, working] using running
  · split
    · intro held
      cases held
    · have runs : (Session.hold now).Ensures checked fun _ _ => True := trivial
      refine runs.bind ?_ ?_ <;> intro _ _ _ held <;> cases held

/-- What a call given `frame` leaves. -/
structure Handled (frame : Frame F) (first second : Session F) : Prop where
  safe : Safe second
  posts : Posts (Admissible first.receiver frame) first second

omit [Scalar F] in
theorem Steady.handled (steady : Steady first second) (frame : Frame F) :
    Handled frame first second :=
  ⟨steady.safe, steady.posts.mono fun _ _ may => .inl may⟩

/-- An activation, once the rate is checked. -/
theorem receiveActivation_handled {position : Point F} {controlAsCommand held : Bool}
    (message : frame.message = .activateDisplayAt displayId position controlAsCommand)
    (reached : Steady first session) (alive : held = false → session.receiver.isInert = false) :
    (receiveActivation held frame displayId position controlAsCommand).Ensures session
      fun _ after => Handled frame first after := by
  cases held with
  | true =>
    have moves : Moves steady
        (receiveActivation true frame displayId position controlAsCommand) :=
      (steady_covers.admitEpoch frame displayId position controlAsCommand).bind
        fun _ => moves_pure
    exact (moves.ensures session).mono fun _ after moved =>
      (reached.trans (moved reached.safe)).handled frame
  | false =>
    refine ((anchoring_receiveActivation).ensures session).mono fun _ after moved => ?_
    obtain ⟨safe, _, posts⟩ := moved reached.safe (alive rfl)
    refine ⟨safe, (reached.handled frame).posts.trans (posts.mono ?_)⟩
    intro inert action ⟨running, move⟩
    refine .inr ⟨running, ?_⟩
    rw [anchors, message]
    exact move

theorem receiveActive_handled (safe : Safe session) (working : session.receiver.failure = none) :
    (receiveActive frame now).Ensures session fun _ after => Handled frame session after := by
  have detects := ((steady_handles.ends.detectHold now).ensures session).and (detectHold_alive working)
  refine detects.bind ?_ fun _ after ⟨moved, _⟩ => (moved safe).handled frame
  intro held detected ⟨moved, alive⟩
  have begun := moved safe
  refine ((releasing_covers.limitRate now).ensures detected).bind ?_ ?_
  · intro _ limited checked
    have reached : Steady session limited :=
      begun.trans ((Cleaned.of_releasing begun.safe.pairwise checked).steady begun.safe)
    have lift : ∀ {program : ReceiverProgram F (Option (Message F))}, Moves steady program →
        program.Ensures limited fun _ after => Handled frame session after :=
      fun moves => (moves.ensures limited).mono fun _ after moved =>
        (reached.trans (moved reached.safe)).handled frame
    split
    · exact lift (steady_covers.receiveHeartbeat held frame now)
    · exact lift (steady_covers.receiveHeartbeat held frame now)
    · next message =>
      refine receiveActivation_handled message reached fun running => ?_
      rw [checked.2.1.isInert]
      exact alive (by rw [running])
    · exact lift (steady_handles.receiveSequenced held frame now)
  · intro _ limited checked
    have reached := begun.trans
      ((Cleaned.of_releasing begun.safe.pairwise checked).steady begun.safe)
    exact reached.handled frame

theorem receive_handled (safe : Safe session) (now : Duration) :
    (Session.receive frame now).Ensures session fun _ after => Handled frame session after := by
  refine ensures_receiverState.mpr ?_
  cases working : session.receiver.failure with
  | some failure => exact (steady.refl session safe).handled frame
  | none =>
    refine ensures_tryCatch.mpr ?_
    refine (receiveActive_handled safe working).mono fun result after handled => ?_
    cases result with
    | ok reply => exact handled
    | error failure =>
      refine (stopWith_calmed handled.safe.pairwise).mono fun _ stopped calmed => ?_
      refine ⟨calmed.calm.safe, handled.posts.trans (calmed.posts.mono ?_)⟩
      exact fun _ _ release => .inl (.inl release)

/-! ## Runs -/

inductive ReceiverCall (F : Type) where
  | receive (frame : Frame F) (now : Duration)
  | tick (now : Duration)
  | flush
  | takeBack
  | stop (failure : ReceiverFailure)
  | retryCleanup

namespace ReceiverCall

variable (call : ReceiverCall F)

def run (session : Session F) : Session F :=
  match call with
  | .receive frame now => ((Session.receive frame now).exec session).2
  | .tick now => ((Session.tick now).exec session).2
  | .flush => (Session.flush.exec session).2
  | .takeBack => (Session.takeBack.exec session).2
  | .stop failure => ((Session.stop failure).exec session).2
  | .retryCleanup => (Session.retryCleanup.exec session).2

/-- The move of the activation a call brings. -/
def anchors (action : DestinationAction F) : Prop :=
  match call with
  | .receive frame _ => Transport.anchors frame action
  | _ => False

/-- What a call may post: releases; while neither held nor failed, anything if the receiver
was active, and the move of the activation the call brings. -/
def Admissible (receiver : InputReceiver F) (inert : Bool) (action : DestinationAction F) : Prop :=
  Permitted receiver inert action ∨ (inert = false ∧ call.anchors action)

theorem run_safe (safe : Safe session) :
    Safe (call.run session) ∧
      Posts (call.Admissible session.receiver) session (call.run session) := by
  have keeps : ∀ {Value : Type} {program : ReceiverProgram F Value}, Moves steady program →
      Safe (program.exec session).2 ∧
        Posts (call.Admissible session.receiver) session (program.exec session).2 := by
    intro _ _ moves
    have kept := moves session safe
    exact ⟨kept.safe, kept.posts.mono fun _ _ may => .inl may⟩
  cases call with
  | receive frame now =>
    have handled : Handled frame session _ := receive_handled safe now
    exact ⟨handled.safe, handled.posts⟩
  | tick now => exact keeps (steady_handles.ends.tick now)
  | flush => exact keeps steady_handles.ends.flush
  | takeBack => exact keeps steady_takeBack
  | stop failure => exact keeps (steady_stop failure)
  | retryCleanup => exact keeps steady_retryCleanup

end ReceiverCall

/-- A call, with what other threads do and which native actions fail at its accesses. -/
structure ReceiverStep (F : Type) where
  call : ReceiverCall F
  script : List Moment

/-- A pairwise receiver before its first call; how far its startup took the health,
the sequences and the limiter is left open. -/
structure Fresh (session : Session F) : Prop where
  pairwise : Pairwise session
  active : session.receiver.active = none
  pendingMove : session.receiver.pendingMove = none
  trace : session.world.trace = []

/-- The session as a call finds it, given what happens at its accesses. -/
def Session.scripted (session : Session F) (script : List Moment) : Session F :=
  { session with world := { session.world with script } }

omit [Scalar F] in
theorem Safe.scripted (safe : Safe session) (script : List Moment) :
    Safe (session.scripted script) :=
  ⟨⟨safe.pairwise.port, safe.pairwise.shared⟩, safe.resting, safe.inert, safe.settles⟩

def ReceiverStep.next (step : ReceiverStep F) (session : Session F) : Session F :=
  step.call.run (session.scripted step.script)

def receiverLts (F : Type) [Scalar F] : Lts (Session F) (ReceiverStep F) where
  init := Fresh
  step first step second := second = step.next first

theorem reachable_safe (reachable : (receiverLts F).Reachable session) : Safe session := by
  refine reachable.invariant Safe ?_ ?_
  · intro start fresh
    refine ⟨fresh.pairwise, fun _ => fresh.pendingMove, fun _ => fresh.active, fun _ _ => ?_⟩
    rw [fresh.trace]
    exact ⟨trivial, trivial⟩
  · intro first step second safe moved
    rw [moved]
    exact (step.call.run_safe (safe.scripted step.script)).1

/-- Nothing stays stuck.  In every state reached, a receiver that is not active and has no
cleanup pending has followed each press by a successful release of everything, and each
gesture it began by a successful end.  Every action a call posts is a release, or is posted
while neither held nor failed by a receiver that is active or admits an activation and
anchors it. -/
theorem nothing_stays_stuck {session : Session F} (reachable : (receiverLts F).Reachable session) :
    (session.receiver.active = none → session.receiver.cleanupPending = false →
      Settled session.world.trace) ∧
    ∀ step next, (receiverLts F).step session step next →
      ∃ events, next.world.trace = session.world.trace ++ events ∧ ∀ event ∈ events,
        event.Obeys fun inert action => action.isRelease = true ∨
          inert = false ∧ (session.receiver.active ≠ none ∨ step.call.anchors action) := by
  have safe := reachable_safe reachable
  refine ⟨safe.settles, fun step next moved => ?_⟩
  have posts : Posts (step.call.Admissible session.receiver) (session.scripted step.script) next :=
    moved ▸ (step.call.run_safe (safe.scripted step.script)).2
  refine posts.mono ?_
  rintro inert action ((release | ⟨alive, active⟩) | ⟨alive, anchor⟩)
  · exact .inl release
  · exact .inr ⟨alive, .inl (Option.isSome_iff_ne_none.mp active)⟩
  · exact .inr ⟨alive, .inr anchor⟩

end Frames

/-! ## Two runs -/

namespace ReceiverRun

/-- A receiver with one display of a hundred by a hundred. -/
def fresh : Session Int where
  receiver := .new [⟨⟨1⟩, ⟨⟨0, 0⟩, ⟨100, 100⟩⟩⟩] ⟨1, Nat.one_pos⟩ 0 none
  port := .direct
  world := ⟨.new .fresh, [], []⟩

/-- A frame of the epoch the activation opens, and the native failures at its accesses. -/
def framed (sequence : Nat) (message : Message Int) (fails : List Bool) : ReceiverStep Int where
  call := .receive (.new ⟨2, Nat.two_pos⟩ sequence message) 1
  script := fails.map (⟨.quiet, ·⟩)

def activation (fails : List Bool) : ReceiverStep Int :=
  framed 0 (.activateDisplayAt ⟨1⟩ ⟨10, 10⟩ false) fails

/-- An activation, a press and the barrier. -/
def pressed : Session Int :=
  (framed 2 .releaseAll []).next ((framed 1 (.key ⟨⟨4⟩, true, false, ⟨0⟩⟩) []).next
    ((activation []).next fresh))

theorem fresh_initial : (receiverLts Int).init fresh := ⟨⟨rfl, rfl⟩, rfl, rfl, rfl⟩

theorem pressed_reachable : (receiverLts Int).Reachable pressed :=
  ⟨fresh, [_, _, _], fresh_initial, .cons rfl (.cons rfl (.single rfl))⟩

theorem nothing_stays_stuck_pressed :
    pressed.world.trace.any TraceEvent.presses = true ∧ Settled pressed.world.trace :=
  ⟨by decide +kernel,
    (nothing_stays_stuck pressed_reachable).1 (by decide +kernel) (by decide +kernel)⟩

/-- The anchoring move of a first activation is posted before the receiver is active; when
it fails natively, the receiver never was. -/
def refused : Session Int := (activation [true, true, true, true, true, true]).next fresh

theorem anchor_posted_unactivated :
    (receiverLts Int).init fresh ∧ (receiverLts Int).step fresh
        (activation [true, true, true, true, true, true]) refused ∧
      refused.receiver.active = none ∧
        .post .SOLE false (.moveTo ⟨10, 10⟩) false ∈ refused.world.trace :=
  ⟨fresh_initial, rfl, by decide +kernel, by decide +kernel⟩

end ReceiverRun
end Monhop.Transport
