import Monhop.Library.Trace
import Monhop.Library.Transition
import Monhop.Transport.ReceiverSteps

/-! # Nothing stays stuck on the controlled computer

Runs of one pairwise receiver: frames of any kind, ticks, flushes, take-backs and stops,
with other threads acting and native actions failing at any access.  A receiver that is
not active and has no cleanup pending has released everything it ever pressed or began,
and one that is held, failed or was never activated injects nothing.
-/

namespace Monhop.Transport

open Monhop.Core Protocol List Session
open Library (Program Trail Answered Lts)
open Library.Program
variable {F : Type}
variable {allowed : DestinationAction F → Prop} {first second third session : Session F}

namespace TraceEvent

/-- Asks the destination to press a key or button. -/
def presses : TraceEvent F → Bool
  | .post _ _ action _ => action.presses
  | .floor _ => false

/-- Asks the destination to begin a gesture. -/
def begins : TraceEvent F → Bool
  | .post _ _ action _ => action.begins
  | .floor _ => false

/-- A release of everything that succeeded. -/
def lifts : TraceEvent F → Bool
  | .post _ _ .releaseAll delivered => delivered
  | _ => false

/-- An end of every gesture that succeeded. -/
def ends : TraceEvent F → Bool
  | .post _ _ .endGestures delivered => delivered
  | _ => false

/-- What a rule says about an action, given whether its receiver was held or failed. -/
def Obeys (rule : Bool → DestinationAction F → Prop) : TraceEvent F → Prop
  | .post _ inert action _ => rule inert action
  | .floor _ => True

theorem Obeys.mono {first second : Bool → DestinationAction F → Prop} {event : TraceEvent F}
    (obeys : event.Obeys first) (weaker : ∀ inert action, first inert action → second inert action) :
    event.Obeys second := by
  cases event with
  | floor floor => trivial
  | post slot inert action delivered => exact weaker inert action obeys

/-- An event whose action neither presses nor begins anything. -/
theorem Obeys.idle {rule : Bool → DestinationAction F → Prop} {event : TraceEvent F}
    (obeys : event.Obeys rule)
    (idle : ∀ inert action, rule inert action → action.presses = false ∧ action.begins = false) :
    event.presses = false ∧ event.begins = false := by
  cases event with
  | floor floor => exact ⟨rfl, rfl⟩
  | post slot inert action delivered => exact idle inert action obeys

end TraceEvent

/-- Everything pressed or begun was released since. -/
structure Settled (trace : List (TraceEvent F)) : Prop where
  presses : Answered TraceEvent.presses TraceEvent.lifts trace
  gestures : Answered TraceEvent.begins TraceEvent.ends trace

theorem Settled.append {front back : List (TraceEvent F)} (settled : Settled front)
    (idle : ∀ event ∈ back, event.presses = false ∧ event.begins = false) :
    Settled (front ++ back) :=
  ⟨settled.presses.append fun event member => (idle event member).1,
    settled.gestures.append fun event member => (idle event member).2⟩

/-- The events between two sessions, and the rule their actions obey. -/
def Posts (rule : Bool → DestinationAction F → Prop) (first second : Session F) : Prop :=
  ∃ events, second.world.trace = first.world.trace ++ events ∧ ∀ event ∈ events, event.Obeys rule

section Posts
variable {rule : Bool → DestinationAction F → Prop}

theorem Posts.of_trace_eq (same : second.world.trace = first.world.trace) :
    Posts rule first second :=
  ⟨[], by simp [same], nofun⟩

theorem Posts.trans (leading : Posts rule first second) (trailing : Posts rule second third) :
    Posts rule first third := by
  obtain ⟨front, front_eq, frontObeys⟩ := leading
  obtain ⟨back, back_eq, backObeys⟩ := trailing
  exact ⟨front ++ back, by rw [back_eq, front_eq, append_assoc],
    forall_mem_append.mpr ⟨frontObeys, backObeys⟩⟩

theorem Posts.mono {weaker : Bool → DestinationAction F → Prop} (posts : Posts rule first second)
    (implies : ∀ inert action, rule inert action → weaker inert action) :
    Posts weaker first second := by
  obtain ⟨events, same, obeys⟩ := posts
  exact ⟨events, same, fun event member => (obeys event member).mono implies⟩

end Posts

/-- What was settled stays settled while nothing is pressed or begun. -/
theorem Posts.settled {rule : Bool → DestinationAction F → Prop} (posts : Posts rule first second)
    (idle : ∀ inert action, rule inert action → action.presses = false ∧ action.begins = false)
    (settled : Settled first.world.trace) : Settled second.world.trace := by
  obtain ⟨events, same, obeys⟩ := posts
  rw [same]
  exact settled.append fun event member => (obeys event member).idle idle

/-- Releases only, whatever the receiver's state. -/
def OnlyReleases : Bool → DestinationAction F → Prop := fun _ action => action.isRelease = true

theorem OnlyReleases.idle (inert : Bool) (action : DestinationAction F)
    (release : OnlyReleases inert action) : action.presses = false ∧ action.begins = false := by
  cases action with
  | endGestures | releaseAll => exact ⟨rfl, rfl⟩
  | _ => cases release

/-! ## Accesses only add to the trace -/

theorem SameActivity.refl (receiver : InputReceiver F) : SameActivity receiver receiver :=
  ⟨⟨rfl, rfl, rfl⟩, rfl, rfl, rfl⟩

theorem SameActivity.trans {first second third : InputReceiver F}
    (leading : SameActivity first second) (trailing : SameActivity second third) :
    SameActivity first third where
  shared := trailing.shared.trans leading.shared
  active := trailing.active.trans leading.active
  pendingMove := trailing.pendingMove.trans leading.pendingMove
  failure := trailing.failure.trans leading.failure
  cleanupPending := trailing.cleanupPending.trans leading.cleanupPending
  heldSince := trailing.heldSince.trans leading.heldSince

theorem SameActivity.isInert {first second : InputReceiver F} (same : SameActivity first second) :
    second.isInert = first.isInert := by
  simp only [InputReceiver.isInert, same.heldSince, same.failure]

/-- The receiver's activity is left alone, and only allowed actions are posted. -/
def quiet (allowed : DestinationAction F → Prop) : Trail (Session F) where
  holds first second := second.port = first.port ∧ SameActivity first.receiver second.receiver ∧
    Posts (fun inert action => inert = first.receiver.isInert ∧ allowed action) first second
  refl session := ⟨rfl, .refl _, .of_trace_eq rfl⟩
  trans := by
    intro first second third ⟨port, same, posts⟩ ⟨laterPort, laterSame, laterPosts⟩
    rw [same.isInert] at laterPosts
    exact ⟨laterPort.trans port, same.trans laterSame, posts.trans laterPosts⟩

/-- Nothing but floors is added to the trace. -/
def World.AddsFloors (world after : World F) : Prop :=
  ∃ events, after.trace = world.trace ++ events ∧ ∀ event ∈ events, ∃ floor, event = .floor floor

theorem World.setGate_trace (world : World F) {gate : TakeBackGate} :
    world.AddsFloors (world.setGate gate) := by
  unfold World.setGate
  split
  · exact ⟨[], by simp, nofun⟩
  · exact ⟨[.floor gate.floor], rfl, by simp⟩

theorem World.advance_trace (world : World F) : world.AddsFloors world.advance.2 := by
  unfold World.advance
  split
  · exact ⟨[], by simp, nofun⟩
  · exact World.setGate_trace ..

theorem World.swapFloor_trace (world : World F) {operation : FloorOp} :
    world.AddsFloors (world.swapFloor operation).2 := by
  unfold World.swapFloor
  split
  · exact world.setGate_trace
  · exact ⟨[], by simp, nofun⟩

theorem quiet_world {world : World F} (floors : session.world.AddsFloors world) :
    (quiet allowed).holds session { session with world } := by
  obtain ⟨events, same, floors⟩ := floors
  refine ⟨rfl, .refl _, events, same, fun event member => ?_⟩
  obtain ⟨floor, rfl⟩ := floors event member
  trivial

/-- A step on what is shared that only adds floors to the trace. -/
theorem quiet_onWorld {Value : Type}
    {act : World F → Value × World F} (floors : ∀ world : World F, world.AddsFloors (act world).2) :
    Moves (quiet allowed) (onWorld act) := by
  intro session
  exact quiet_world (floors session.world)

theorem quiet_access : Moves (quiet allowed) Session.access :=
  quiet_onWorld World.advance_trace

variable {action : DestinationAction F}

/-- A native action adds its own record after what other threads did. -/
theorem post_returns :
    (Session.post action).Returns session fun delivered after =>
      after.port = session.port ∧ after.receiver = session.receiver ∧ ∃ floors,
        after.world.trace = session.world.trace ++ floors ++
          [.post session.receiver.slot session.receiver.isInert action delivered] ∧
        ∀ event ∈ floors, ∃ floor, event = .floor floor := by
  obtain ⟨floors, same, only⟩ := session.world.advance_trace
  refine ⟨!session.world.advance.1, rfl, rfl, rfl, floors, ?_, only⟩
  rw [← same]
  rfl

theorem quiet_post (may : allowed action) :
    Moves (quiet allowed) (Session.post action) := by
  intro session
  obtain ⟨delivered, _, port, receiver, floors, trace, only⟩ := post_returns
  refine ⟨port, receiver ▸ .refl _, floors ++ [_], trace.trans (append_assoc ..),
    forall_mem_append.mpr ⟨fun event member => ?_, forall_mem_singleton.mpr ⟨rfl, may⟩⟩⟩
  obtain ⟨floor, rfl⟩ := only event member
  trivial

theorem quiet_covers (allowed : DestinationAction F → Prop) : Covers (quiet allowed) allowed where
  access := quiet_access
  gate change _ := by
    exact quiet_access.bind fun _ =>
      quiet_onWorld fun world => world.setGate_trace
  keep change same session := ⟨rfl, (SameCore.of_books (same _)).toSameActivity, .of_trace_eq rfl⟩
  bookkeep change same session := ⟨rfl, (same _).toSameActivity, .of_trace_eq rfl⟩
  apply action may := by
    refine moves_get.bind fun session => ?_
    split
    · exact quiet_post may
    · have looks : Moves (quiet allowed) (Session.snapshot : ReceiverProgram F _) :=
        quiet_access.bind fun _ => moves_get.bind fun _ => moves_pure
      exact looks.bind fun _ => .ite (fun _ => moves_pure) fun _ => quiet_post may

/-! ## The floor -/

theorem quiet_update {change : InputReceiver F → InputReceiver F}
    (same : ∀ receiver, SameActivity receiver (change receiver)) :
    Moves (quiet allowed) (Session.update change) := by
  intro session
  exact ⟨rfl, same session.receiver, .of_trace_eq rfl⟩

section Floor
variable (allowed)

theorem quiet_swap (operation : FloorOp) : Moves (quiet allowed) (Session.swap operation) := by
  exact quiet_access.bind fun _ => quiet_onWorld fun world =>
    world.swapFloor_trace

theorem quiet_takeTriggered : Moves (quiet allowed) (takeTriggered : ReceiverProgram F _) :=
  quiet_access.bind fun _ => quiet_onWorld fun world => world.setGate_trace

theorem quiet_releaseFloor : Moves (quiet allowed) (releaseFloor : ReceiverProgram F _) :=
  (quiet_covers allowed).releaseFloor (quiet_swap allowed)
    (quiet_update fun _ => by repeat' constructor) (quiet_update fun _ => by repeat' constructor)

theorem quiet_admitActivation : Moves (quiet allowed) (admitActivation : ReceiverProgram F _) :=
  (quiet_covers allowed).admitActivation (quiet_swap allowed) fun _ =>
    quiet_update fun _ => by repeat' constructor

end Floor

/-! ## Releases -/

/-- A receiver that is alone on its gate. -/
structure Pairwise (session : Session F) : Prop where
  port : session.port = .direct
  shared : session.receiver.shared = false

theorem apply_direct (direct : session.port = .direct)
    {post : Bool → Session F → Prop} (returns : (Session.post action).Returns session post) :
    (Session.apply action).Returns session post := by
  simpa [Session.apply, Returns, direct] using returns

/-- Both releases succeeding settles whatever came before. -/
theorem settled_of_releases {front : List (TraceEvent F)} {floors : List (TraceEvent F)}
    (only : ∀ event ∈ floors, ∃ floor, event = .floor floor) (slot later : FloorPeer)
    (inert laterInert : Bool) :
    Settled (front ++ [.post slot inert .endGestures true] ++ floors ++
      [.post later laterInert .releaseAll true]) := by
  constructor
  · refine Library.answered_of_reply rfl ?_
    simp [TraceEvent.presses, DestinationAction.presses]
  -- nothing begins between the end of gestures and the release
  simp only [append_assoc, cons_append, nil_append]
  refine Library.answered_of_reply rfl ?_
  simp only [mem_cons, mem_append, not_mem_nil, or_false]
  rintro event (rfl | between | rfl)
  · rfl
  · obtain ⟨floor, rfl⟩ := only event between
    rfl
  · rfl

theorem releaseInjected_returns (direct : session.port = .direct) :
    releaseInjected.Returns session fun released after =>
      released = true → Settled after.world.trace := by
  refine (update_returns _ session).bind fun _ start ⟨port, _, _⟩ => ?_
  refine (apply_direct (port.trans direct) post_returns).bind ?_
  intro ended middle ⟨laterPort, _, floors, trace, _⟩
  refine (apply_direct (laterPort.trans (port.trans direct)) post_returns).bind ?_
  intro released after ⟨_, _, laterFloors, laterTrace, laterOnly⟩
  refine returns_pure fun both => ?_
  obtain ⟨rfl, rfl⟩ := Bool.and_eq_true_iff.mp both
  rw [laterTrace, trace]
  exact settled_of_releases laterOnly ..

/-- A trail for parts that post nothing but releases. -/
abbrev releasing : Trail (Session F) := quiet fun action => action.isRelease = true

theorem Pairwise.quiet (pairwise : Pairwise first) (moved : (quiet allowed).holds first second) :
    Pairwise second :=
  ⟨moved.1.trans pairwise.port, moved.2.1.shared.trans pairwise.shared⟩

theorem settled_releasing (moved : releasing.holds first second)
    (settled : Settled first.world.trace) : Settled second.world.trace :=
  moved.2.2.settled (fun inert action may => OnlyReleases.idle inert action may.2) settled

theorem mayRelease_returns (pairwise : Pairwise session) :
    mayRelease.Returns session fun native after =>
      releasing.holds session after ∧ native = true := by
  refine (quiet_covers _).mayRelease.returns ?_
  have looks : Session.snapshot.Returns session fun _ after => after.receiver = session.receiver :=
    ⟨_, rfl, rfl⟩
  refine looks.bind fun floor after same => ensures_receiverState.mpr ?_
  exact returns_pure (by simp [same, pairwise.shared])

/-- What a cleanup leaves: it posts releases only, and is done only once settled. -/
structure Cleaned (first second : Session F) : Prop where
  pairwise : Pairwise second
  active : second.receiver.active = first.receiver.active
  pendingMove : second.receiver.pendingMove = first.receiver.pendingMove
  inert : second.receiver.isInert = first.receiver.isInert
  posts : Posts OnlyReleases first second
  settles : second.receiver.cleanupPending = false →
    first.receiver.cleanupPending = false ∨ Settled second.world.trace

theorem Cleaned.of_releasing (pairwise : Pairwise first) (moved : releasing.holds first second) :
    Cleaned first second where
  pairwise := pairwise.quiet moved
  active := moved.2.1.active
  pendingMove := moved.2.1.pendingMove
  inert := moved.2.1.isInert
  posts := moved.2.2.mono fun _ _ may => may.2
  settles done := .inl (moved.2.1.cleanupPending ▸ done)

theorem Cleaned.trans (leading : Cleaned first second) (trailing : Cleaned second third) :
    Cleaned first third where
  pairwise := trailing.pairwise
  active := trailing.active.trans leading.active
  pendingMove := trailing.pendingMove.trans leading.pendingMove
  inert := trailing.inert.trans leading.inert
  posts := leading.posts.trans trailing.posts
  settles := by
    intro done
    rcases trailing.settles done with before | settled
    · rcases leading.settles before with start | settled
      · exact .inl start
      · exact .inr (trailing.posts.settled OnlyReleases.idle settled)
    · exact .inr settled

section
variable (pairwise : Pairwise session)
include pairwise

theorem finishCleanup_cleaned (settled : Settled session.world.trace) {native : Bool} :
    (finishCleanup native).Ensures session fun _ after => Cleaned session after := by
  refine (update_returns _ session).bind fun _ start ⟨port, world, receiver⟩ => ?_
  have forgotten : Cleaned session start := by
    constructor
    · exact ⟨port.trans pairwise.port, by rw [receiver]; exact pairwise.shared⟩
    · rw [receiver]; rfl
    · rw [receiver]; rfl
    · rw [receiver]; rfl
    · exact .of_trace_eq (by rw [world])
    · exact fun _ => .inr (world ▸ settled)
  have books : Moves releasing (runIf native
      (updateGate TakeBackGate.noteInjectedReleased) >>= fun _ =>
        (releaseFloor : ReceiverProgram F _)) :=
    (Moves.runIf fun _ => (quiet_covers _).noteInjectedReleased).bind fun _ => quiet_releaseFloor _
  refine (books.ensures start).mono fun _ after moved => ?_
  exact forgotten.trans (.of_releasing forgotten.pairwise moved)

theorem retryCleanup_cleaned :
    retryCleanup.Ensures session fun _ after => Cleaned session after := by
  have releases : Moves releasing (releaseInjected : ReceiverProgram F _) :=
    (quiet_covers _).releaseInjected fun _ release => release
  refine ensures_receiverState.mpr ?_
  split
  · exact .of_releasing pairwise (releasing.refl session)
  refine (mayRelease_returns pairwise).bind fun native start ⟨looked, allowed⟩ => ?_
  subst allowed
  have began := Cleaned.of_releasing pairwise looked
  refine (releases.returns (releaseInjected_returns began.pairwise.port)).bind ?_
  intro released middle ⟨moved, settles⟩
  have tried := began.trans (.of_releasing began.pairwise moved)
  cases released with
  | false => exact tried
  | true =>
    refine (finishCleanup_cleaned tried.pairwise (settles rfl)).mono fun _ after finished => ?_
    exact tried.trans finished

/-! ## Ending control -/

omit pairwise in
/-- Not active, and settled unless a cleanup is pending. -/
structure Calm (session : Session F) : Prop where
  pairwise : Pairwise session
  active : session.receiver.active = none
  pendingMove : session.receiver.pendingMove = none
  settles : session.receiver.cleanupPending = false → Settled session.world.trace

omit pairwise in
/-- Control ended with releases only. -/
structure Calmed (first second : Session F) : Prop where
  calm : Calm second
  posts : Posts OnlyReleases first second

theorem ownsNative_returns :
    ownsNative.Returns session fun owns after => after = session ∧ owns = true := by
  refine ensures_receiverState.mpr ?_
  rw [pairwise.shared]
  exact returns_pure ⟨rfl, rfl⟩

omit pairwise in
theorem updateGate_returns (change : TakeBackGate → TakeBackGate)
    (same : ∀ gate, (change gate).floor = gate.floor) :
    (updateGate change).Returns session fun _ after => releasing.holds session after :=
  ⟨(), rfl, (quiet_covers _).gate change same session⟩

theorem quiesce_calmed : Session.quiesce.Ensures session fun _ after => Calmed session after := by
  refine (ownsNative_returns pairwise).bind fun owns entry ⟨same, owned⟩ => ?_
  rw [same, owned]
  refine (updateGate_returns (·.openInjection 0) (fun _ => rfl)).bind
    fun _ start closed => ?_
  refine (update_returns _ start).bind fun _ middle ⟨port, world, receiver⟩ => ?_
  have still := pairwise.quiet closed
  have ended : Pairwise middle := ⟨port.trans still.port, by rw [receiver]; exact still.shared⟩
  refine (retryCleanup_cleaned ended).mono fun _ after cleaned => ⟨⟨cleaned.pairwise, ?_, ?_, ?_⟩, ?_⟩
  · rw [cleaned.active, receiver]
  · rw [cleaned.pendingMove, receiver]
  · intro done
    rcases cleaned.settles done with before | settled
    · rw [receiver] at before
      cases before
    · exact settled
  · have closing : Posts OnlyReleases session start := closed.2.2.mono fun _ _ may => may.2
    exact (closing.trans (.of_trace_eq (by rw [world]))).trans cleaned.posts

omit pairwise in
theorem Calmed.after (posts : Posts OnlyReleases first second) (calmed : Calmed second third) :
    Calmed first third :=
  ⟨calmed.calm, posts.trans calmed.posts⟩

omit pairwise in
theorem Calmed.update (calmed : Calmed first second) (change : InputReceiver F → InputReceiver F)
    (same : ∀ receiver, SameRest receiver (change receiver))
    (cleanup : ∀ receiver, (change receiver).cleanupPending = receiver.cleanupPending) :
    (Session.update change).Returns second fun _ after => Calmed first after := by
  refine (update_returns change second).mono fun _ after ⟨port, world, receiver⟩ => ?_
  obtain ⟨⟨pairwise, notActive, noMove, settles⟩, posts⟩ := calmed
  refine ⟨⟨⟨port.trans pairwise.port, ?_⟩, ?_, ?_, ?_⟩, posts.trans (.of_trace_eq (by rw [world]))⟩
  · rw [receiver, (same _).shared, pairwise.shared]
  · rw [receiver, (same _).active, notActive]
  · rw [receiver, (same _).pendingMove, noMove]
  · rw [receiver, cleanup, world]
    exact settles

theorem stop_calmed {failure : ReceiverFailure} :
    (Session.stop failure).Ensures session fun _ after => Calmed session after := by
  refine ensures_receiverState.mpr ?_
  refine (update_returns _ session).bind fun _ start ⟨port, world, receiver⟩ => ?_
  have failed : Pairwise start := ⟨port.trans pairwise.port, by rw [receiver]; exact pairwise.shared⟩
  have unchanged : Posts OnlyReleases session start := .of_trace_eq (by rw [world])
  refine (quiesce_calmed failed).bind ?_ ?_
  · exact fun _ _ calmed => .after unchanged calmed
  · exact fun _ _ calmed => .after unchanged calmed

theorem stopWith_calmed {failure : ReceiverFailure} {Value : Type} :
    (stopWith failure : ReceiverProgram F Value).Ensures session
      fun _ after => Calmed session after :=
  (stop_calmed pairwise).bind (fun _ _ calmed => calmed) fun _ _ calmed => calmed

theorem hold_calmed {now : Duration} :
    (Session.hold now).Ensures session fun _ after => Calmed session after := by
  refine (quiesce_calmed pairwise).bind (fun _ quiesced calmed => ?_) fun _ _ calmed => calmed
  refine ensures_receiverState.mpr ?_
  refine (calmed.update _ (fun _ => by repeat' constructor) fun _ => by rfl).bind fun _ polled calmed => ?_
  split
  · exact (stopWith_calmed calmed.calm.pairwise).mono fun _ _ stopped => .after calmed.posts stopped
  · exact (calmed.update _ (fun _ => by repeat' constructor) fun _ => by rfl).ensures

end

/-! ## Calls keep a receiver safe -/

/-- A receiver that leaves nothing stuck, whatever it was given. -/
structure Safe (session : Session F) : Prop where
  pairwise : Pairwise session
  resting : session.receiver.active = none → session.receiver.pendingMove = none
  inert : session.receiver.isInert = true → session.receiver.active = none
  settles : session.receiver.active = none → session.receiver.cleanupPending = false →
    Settled session.world.trace

theorem Calm.safe (calm : Calm session) : Safe session :=
  ⟨calm.pairwise, fun _ => calm.pendingMove, fun _ => calm.active, fun _ => calm.settles⟩

/-- Releases may always be posted; anything else needs an activation and a receiver that is
neither held nor failed. -/
def Permitted (receiver : InputReceiver F) : Bool → DestinationAction F → Prop := fun inert action =>
  action.isRelease = true ∨ (inert = false ∧ receiver.active.isSome = true)

/-- Safety is kept, nothing becomes active, and only what is permitted is posted. -/
structure Steady (first second : Session F) : Prop where
  safe : Safe second
  inactive : first.receiver.active = none → second.receiver.active = none
  posts : Posts (Permitted first.receiver) first second

theorem Steady.trans (leading : Steady first second) (trailing : Steady second third) :
    Steady first third := by
  refine ⟨trailing.safe, trailing.inactive ∘ leading.inactive,
    leading.posts.trans (trailing.posts.mono ?_)⟩
  rintro inert action (release | ⟨alive, active⟩)
  · exact .inl release
  · refine .inr ⟨alive, ?_⟩
    rw [Option.isSome_iff_ne_none] at active ⊢
    exact mt leading.inactive active

def steady : Trail (Session F) where
  holds first second := Safe first → Steady first second
  refl _ safe := ⟨safe, id, .of_trace_eq rfl⟩
  trans leading trailing safe := (leading safe).trans (trailing (leading safe).safe)

theorem OnlyReleases.permitted {receiver : InputReceiver F} (inert : Bool)
    (action : DestinationAction F) (release : OnlyReleases inert action) :
    Permitted receiver inert action :=
  .inl release

theorem Calmed.steady (calmed : Calmed first second) : steady.holds first second :=
  fun _ => ⟨calmed.calm.safe, fun _ => calmed.calm.active, calmed.posts.mono OnlyReleases.permitted⟩

theorem Cleaned.steady (cleaned : Cleaned first second) : steady.holds first second := by
  intro safe
  refine ⟨⟨cleaned.pairwise, ?_, ?_, ?_⟩, ?_, cleaned.posts.mono OnlyReleases.permitted⟩
  · rw [cleaned.active, cleaned.pendingMove]
    exact safe.resting
  · rw [cleaned.inert, cleaned.active]
    exact safe.inert
  · intro inactive done
    rw [cleaned.active] at inactive
    rcases cleaned.settles done with before | settled
    · exact cleaned.posts.settled OnlyReleases.idle (safe.settles inactive before)
    · exact settled
  · rw [cleaned.active]
    exact id

/-- A part that only posts releases and keeps books. -/
theorem steady_releasing {Value : Type} {program : ReceiverProgram F Value}
    (moves : Moves releasing program) : Moves steady program :=
  fun session safe => (Cleaned.of_releasing safe.pairwise (moves session)).steady safe

/-- While active, a part may post anything. -/
theorem steady_injecting (active : first.receiver.active ≠ none)
    (moved : (quiet fun _ => True).holds first second) : steady.holds first second := by
  intro safe
  have alive : first.receiver.isInert = false := by
    rw [Bool.eq_false_iff]
    exact mt safe.inert active
  have still : second.receiver.active ≠ none := by rwa [moved.2.1.active]
  refine ⟨⟨safe.pairwise.quiet moved, ?_, ?_, ?_⟩, fun inactive => (active inactive).elim, ?_⟩
  · exact fun inactive => (still inactive).elim
  · rw [moved.2.1.isInert, alive]
    exact nofun
  · exact fun inactive => (still inactive).elim
  · refine moved.2.2.mono fun inert action ⟨same, _⟩ => .inr ⟨same.trans alive, ?_⟩
    exact Option.isSome_iff_ne_none.mpr active

end Monhop.Transport
