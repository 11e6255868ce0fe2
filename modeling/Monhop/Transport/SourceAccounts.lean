import Monhop.Transport.SourceRun

/-! # Release accounting

Every `ReleaseAll` a controller sends is owed one `ReleaseAck`.  Returns and declined hops owe
theirs through the state that awaits it, holds and resent barriers through
`release_acks_pending`; a hold in the middle of a return moves the debt from the one to the
other.

* `Balanced` — what was sent and not acknowledged is what the controller counts.
* `Proving` — during a hold, the challenges that may still prove the link were all sent after
  the hold began.
* `release_accounting` — both, over every run.
-/

namespace Monhop.Transport

open Monhop.Core Protocol List SourceEvent View FloorSnapshot Phase
open Library (AtEach atEach_nil atEach_concat)
variable {F : Type}

/-! ## What is counted -/

namespace SourceEvent

/-- A `ReleaseAll` goes out. -/
def isRelease : SourceEvent F → Bool
  | .asked (.remoteFrame frame) _ => frame.message.isReleaseAll
  | _ => false

def isReleaseAck : SourceEvent F → Bool
  | .accepted frame => frame.message.isReleaseAck
  | _ => false

def isHoldEdge : SourceEvent F → Bool
  | .held _ | .resumed _ => true
  | _ => false

/-- The floor is given back. -/
def isFreeing : SourceEvent F → Bool
  | .swapped _ target => target.state == .free
  | _ => false

/-- Neither a swap of the floor nor the end of a hold. -/
def isPlain : SourceEvent F → Bool
  | .asked _ _ | .accepted _ | .held _ => true
  | _ => false

/-- Neither counted nor an event at which the accounts must be settled. -/
def isQuiet (event : SourceEvent F) : Bool :=
  !event.isRelease && !event.isReleaseAck && !event.isHoldEdge && !event.isFreeing

end SourceEvent

variable (log : List (SourceEvent F))

def releases : Nat := log.countP isRelease

def acknowledgements : Nat := log.countP isReleaseAck

/-- Every `ReleaseAll` so far was acknowledged. -/
def Repaid : Prop := releases log = acknowledgements log

/-- A hold ends, and the floor is given back, only once everything is settled. -/
def RepaidAt (before : List (SourceEvent F)) : SourceEvent F → Prop
  | .resumed _ => Repaid before
  | .swapped _ target => target.state = .free → Repaid before
  | _ => True

/-- A challenge went out. -/
def Challenged (token : Nat) : Prop :=
  ∃ frame waiting, .asked (.remoteFrame frame) waiting ∈ log ∧ frame.message = .ping token

/-- The answer to a challenge arrived. -/
def Ponged (token : Nat) : Prop :=
  ∃ frame, .accepted frame ∈ log ∧ frame.message = .pong token

/-- Since the latest hold began a challenge went out and its answer then arrived. -/
def Proven : Prop :=
  ∃ before now sent answered token, log = before ++ .held now :: (sent ++ answered) ∧
    (∀ event ∈ sent ++ answered, event.isHoldEdge = false) ∧
    Challenged sent token ∧ Ponged answered token

def ProvenAt (before : List (SourceEvent F)) : SourceEvent F → Prop
  | .resumed _ => Proven before
  | _ => True

/-! ## The balance -/

/-- Where a hold leaves input. -/
def Phase.isRetreated : Phase → Bool
  | .home | .leaving _ _ => true
  | _ => false

theorem View.owed_of_phase {view : View F} (phase : ∀ onward, view.phase ≠ .releasing onward) :
    view.owed = 0 := by
  unfold View.owed
  split
  · next onward releasing => exact absurd releasing (phase onward)
  · rfl

theorem View.owed_of_isRetreated {view : View F} (retreated : view.phase.isRetreated = true) :
    view.owed = 0 :=
  owed_of_phase fun onward releasing => by simp [releasing, isRetreated] at retreated

theorem View.owed_le (view : View F) : view.owed ≤ 1 := by
  unfold View.owed
  split <;> omega

/-- While the controller has not failed, what it counts is what it is owed. -/
structure Balanced (past : List (SourceEvent F)) (view : View F) : Prop where
  balance : view.Alive →
    releases (view.log past) = acknowledgements (view.log past) + view.pending + view.owed
  free : view.Alive → view.heldSince = none → view.pending = 0
  bounded : view.Alive → view.pending ≤ 2
  retreated : view.Alive → view.heldSince.isSome = true → view.phase.isRetreated = true
  settled : AtEach RepaidAt (view.log past)

variable {sequence : Nat}

section
variable {past : List (SourceEvent F)} {view later : View F}
variable {frame : Frame F} {before : List (SourceEvent F)} {event : SourceEvent F}

theorem settledAt_of_isQuiet (quiet : event.isQuiet = true) : RepaidAt before event := by
  cases event with
  | resumed now => simp [isQuiet, isHoldEdge] at quiet
  | swapped source target =>
    intro free
    simp [isQuiet, isFreeing, free] at quiet
  | asked | accepted | held => exact trivial

theorem settledAt_of_isPlain (plain : event.isPlain = true) : RepaidAt before event := by
  cases event with
  | asked | accepted | held => exact trivial
  | swapped | resumed => cases plain

theorem SourceEvent.IsLast.isPlain (last : event.IsLast) : event.isPlain = true := by
  cases event with
  | asked | accepted => rfl
  | swapped | held | resumed => cases last

theorem counts_of_isQuiet {events : List (SourceEvent F)}
    (quiet : ∀ event ∈ events, event.isQuiet = true) :
    releases events = 0 ∧ acknowledgements events = 0 := by
  simp only [releases, acknowledgements, countP_eq_zero, Bool.not_eq_true]
  constructor <;> intro event member <;>
    simp_all [isQuiet]

theorem log_append {events : List (SourceEvent F)} (trace : later.trace = view.trace ++ events) :
    later.log past = view.log past ++ events := by
  rw [View.log, trace, ← append_assoc]
  rfl

theorem releases_append (front back : List (SourceEvent F)) :
    releases (front ++ back) = releases front + releases back := countP_append

theorem acknowledgements_append (front back : List (SourceEvent F)) :
    acknowledgements (front ++ back) = acknowledgements front + acknowledgements back :=
  countP_append

theorem Balanced.quiet (balanced : Balanced past view)
    (adds : view.Adds later fun event => event.isQuiet = true)
    (same : later.Alive → view.Alive ∧ later.heldSince = view.heldSince ∧
      later.pending = view.pending ∧ later.owed = view.owed ∧
      (view.heldSince.isSome = true → view.phase.isRetreated = true →
        later.phase.isRetreated = true)) : Balanced past later where
  balance alive := by
    obtain ⟨events, trace, quiet⟩ := adds
    obtain ⟨alive, -, pending, owed, -⟩ := same alive
    have before := balanced.balance alive
    have none := counts_of_isQuiet quiet
    rw [log_append trace, releases_append, acknowledgements_append, pending, owed]
    omega
  free alive free := by
    obtain ⟨alive, held, pending, -⟩ := same alive
    rw [pending]
    exact balanced.free alive (held ▸ free)
  bounded alive := by
    obtain ⟨alive, -, pending, -⟩ := same alive
    rw [pending]
    exact balanced.bounded alive
  retreated alive isHeld := by
    obtain ⟨alive, held, -, -, retreats⟩ := same alive
    have wasHeld := held ▸ isHeld
    exact retreats wasHeld (balanced.retreated alive wasHeld)
  settled := by
    obtain ⟨events, trace, quiet⟩ := adds
    rw [log_append trace]
    exact balanced.settled.append fun event member _ => settledAt_of_isQuiet (quiet event member)

variable {call : SourceCall F}

section
variable (balanced : Balanced past view)
include balanced

/-- A failing call neither swaps the floor nor ends a hold. -/
theorem Balanced.stopped
    (move : Move call view later) (failed : later.failure ≠ none) : Balanced past later where
  balance alive := absurd alive failed
  free alive := absurd alive failed
  bounded alive := absurd alive failed
  retreated alive := absurd alive failed
  settled := by
    obtain ⟨events, trace, last⟩ := move.ended failed
    rw [log_append trace]
    refine balanced.settled.append fun event member _ => settledAt_of_isPlain ?_
    exact (last event member).isPlain

theorem Balanced.sent (alive : view.Alive) {waiting : Option (Point F)}
    (trace : later.trace = view.trace ++ [.asked (.remoteFrame frame) waiting])
    (other : isRelease (.asked (.remoteFrame frame) waiting) = false)
    (same : later.heldSince = view.heldSince ∧ later.pending = view.pending ∧
      later.phase = view.phase) :
    Balanced past later := by
  obtain ⟨held, pending, phase⟩ := same
  refine balanced.quiet (.one trace ?_) fun _ => ?_
  · simp [isQuiet, other, isReleaseAck, isHoldEdge, isFreeing]
  · refine ⟨alive, held, pending, ?_, fun _ => phase ▸ id⟩
    rw [View.owed, phase]
    rfl

theorem Balanced.swapped (target : FloorSnapshot)
    (kept : target.state ≠ .free) : Balanced past (view.swapClaim target) := by
  refine balanced.quiet (.one rfl ?_) fun alive => ⟨alive, rfl, rfl, rfl, fun _ => id⟩
  simp [isQuiet, isRelease, isReleaseAck, isHoldEdge, isFreeing, kept]

section
variable (alive : view.Alive) (events : List (SourceEvent F))
  (trace : later.trace = view.trace ++ events)
include alive trace

/-- What the controller counts moves with the events. -/
theorem Balanced.counted
    (counts : releases events + view.pending + view.owed =
      acknowledgements events + later.pending + later.owed)
    (settled : AtEach RepaidAt (view.log past ++ events))
    (free : later.heldSince = none → later.pending = 0) (bounded : later.pending ≤ 2)
    (retreated : later.heldSince.isSome = true → later.phase.isRetreated = true) :
    Balanced past later where
  balance _ := by
    have before := balanced.balance alive
    rw [log_append trace, releases_append, acknowledgements_append]
    omega
  free _ := free
  bounded _ := bounded
  retreated _ := retreated
  settled := log_append trace ▸ settled

variable (plain : ∀ event ∈ events, event.isPlain = true)
include plain

/-- The controller asks for a release: it is owed one acknowledgement more. -/
theorem Balanced.released (counts : releases events = 1 ∧ acknowledgements events = 0)
    (owes : later.pending + later.owed = view.pending + view.owed + 1)
    (free : later.heldSince = none → later.pending = 0) (bounded : later.pending ≤ 2)
    (retreated : later.heldSince.isSome = true → later.phase.isRetreated = true) :
    Balanced past later :=
  balanced.counted alive events trace (by omega)
    (balanced.settled.append fun event member _ => settledAt_of_isPlain (plain event member))
    free bounded retreated

/-- The peer acknowledges a release: the controller is owed one less. -/
theorem Balanced.acknowledged (counts : releases events = 0 ∧ acknowledgements events = 1)
    (owes : later.pending + later.owed + 1 = view.pending + view.owed)
    (held : later.heldSince = view.heldSince) (fewer : later.pending ≤ view.pending)
    (retreats : view.heldSince.isSome = true → view.phase.isRetreated = true →
      later.phase.isRetreated = true) : Balanced past later := by
  refine balanced.counted alive events trace (by omega)
    (balanced.settled.append fun event member _ => settledAt_of_isPlain (plain event member))
    (fun free => ?_) (fewer.trans (balanced.bounded alive)) fun isHeld => ?_
  · have none := balanced.free alive (held ▸ free)
    omega
  · have wasHeld := held ▸ isHeld
    exact retreats wasHeld (balanced.retreated alive wasHeld)

end
end

/-- The barrier a hold sends. -/
def View.barrier (view : View F) : SourceEvent F :=
  .asked (.remoteFrame (.new view.inputEpoch view.inputSequence .releaseAll)) view.waiting

/-- A hold's barrier, with the restore where native input may be remote. -/
theorem View.retreat_spec (view : View F) {now : Duration} {display : DisplayId}
    {position : Point F} :
    let left := view.retreat now display position
    ∃ events : List (SourceEvent F),
      left.trace = view.trace ++ view.barrier :: (events ++ [.held now]) ∧
      (events = [] ∨ ∃ request,
        events = [.asked (.restoreLocalAt request display position) view.waiting]) ∧
      left.phase.isRetreated = true ∧ left.heldSince = some now ∧
      left.pending = saturatingSucc u32Max (min (view.pending + view.owed) u32Max) ∧
      left.failure = view.failure ∧ left.pongSeen = false ∧ left.nextToken = view.nextToken ∧
      left.lastAcked = view.nextToken - 1 ∧ left.inputEpoch = view.inputEpoch ∧
      left.inputSequence = view.inputSequence + 1 := by
  unfold View.retreat
  split
  · next leaving =>
    refine ⟨[], ?_, .inl rfl, ?_, rfl, rfl, rfl, rfl, rfl, rfl, rfl, rfl⟩
    · simp [markHeld, holdBarrier, sendInput, View.ask, View.record, clearRemote, View.barrier]
    · show view.phase.isRetreated = true
      rw [leaving]
      rfl
  · split
    · refine ⟨[_], ?_, .inr ⟨⟨view.requests⟩, rfl⟩, rfl, rfl, rfl, rfl, rfl, rfl, rfl, rfl, rfl⟩
      simp [markHeld, View.restore, holdBarrier, sendInput, View.ask, View.record,
        clearRemote, View.barrier]
    · refine ⟨[], ?_, .inl rfl, rfl, rfl, rfl, rfl, rfl, rfl, rfl, rfl, rfl⟩
      simp [markHeld, holdBarrier, sendInput, View.ask, View.record, clearRemote, View.barrier]

theorem quiet_accepted (other : frame.message ≠ .releaseAck) :
    isQuiet (.accepted frame) = true := by
  have notAck : isReleaseAck (.accepted frame) = false :=
    Message.isReleaseAck_eq_false other
  simp [isQuiet, isRelease, isHoldEdge, isFreeing, notAck]

theorem counts_acknowledged (isAck : frame.message = .releaseAck) :
    releases [SourceEvent.accepted frame] = 0 ∧ acknowledgements [SourceEvent.accepted frame] = 1 := by
  have counted : isReleaseAck (.accepted frame) = true := by
    show frame.message.isReleaseAck = true
    rw [isAck]
    rfl
  simp [releases, acknowledgements, counted, isRelease]

section
variable (balanced : Balanced past view)
include balanced

/-- A move from one phase to another, neither of which is owed a release. -/
theorem Balanced.passes (adds : view.Adds later fun event => event.isQuiet = true)
    (failure : later.failure = view.failure) (held : later.heldSince = view.heldSince)
    (pending : later.pending = view.pending) (left : ∀ onward, view.phase ≠ .releasing onward)
    (entered : ∀ onward, later.phase ≠ .releasing onward)
    (retreats : view.phase.isRetreated = true → later.phase.isRetreated = true) :
    Balanced past later :=
  balanced.quiet adds fun alive =>
    ⟨failure.symm.trans alive, held, pending,
      (owed_of_phase entered).trans (owed_of_phase left).symm, fun _ => retreats⟩

section
variable (alive : view.Alive)
include alive

/-- A hold ends only when nothing is owed. -/
theorem Balanced.resumes
    (held : view.heldSince.isSome = true) (settled : view.pending = 0) (now : Duration) :
    Balanced past
      ({ view with heldSince := none, pongSeen := false }.record (.resumed now)) := by
  have owed := owed_of_isRetreated (balanced.retreated alive held)
  have balance := balanced.balance alive
  refine balanced.counted alive [.resumed now] rfl rfl (atEach_concat.mpr ⟨balanced.settled, ?_⟩)
    (fun _ => settled) (balanced.bounded alive) nofun
  show releases (view.log past) = acknowledgements (view.log past)
  omega

/-- A return or a declined hop owes one acknowledgement through its state. -/
theorem Balanced.owesOne
    {onward : Bool} {epoch : SessionEpoch} {waiting : Option (Point F)} (trace : later.trace =
      view.trace ++ [.asked (.remoteFrame (.new epoch sequence .releaseAll)) waiting])
    (held : later.heldSince = view.heldSince) (pending : later.pending = view.pending)
    (releasing : later.phase = .releasing onward) (left : ∀ onward, view.phase ≠ .releasing onward)
    (wasAway : view.phase.isRetreated = false) : Balanced past later := by
  have nothing : view.owed = 0 := owed_of_phase left
  have one : later.owed = 1 := by simp [View.owed, releasing]
  refine balanced.released alive _ trace (forall_mem_singleton.mpr rfl) ⟨rfl, rfl⟩ ?_ ?_ ?_ ?_
  · omega
  · intro free
    exact pending.trans (balanced.free alive (held ▸ free))
  · exact pending.trans_le (balanced.bounded alive)
  · intro isHeld
    rw [balanced.retreated alive (held ▸ isHeld)] at wasAway
    cases wasAway

/-- The acknowledgement a return or a declined hop awaits. -/
theorem Balanced.paid {onward : Bool}
    (releasing : view.phase = .releasing onward) (isAck : frame.message = .releaseAck)
    (asked : List (SourceEvent F)) (trace : later.trace = view.trace ++ .accepted frame :: asked)
    (quiet : ∀ event ∈ asked, (event.isQuiet && event.isPlain) = true)
    (held : later.heldSince = view.heldSince) (pending : later.pending = view.pending)
    (retreated : later.phase.isRetreated = true) : Balanced past later := by
  have one : view.owed = 1 := by simp [View.owed, releasing]
  have settled := owed_of_isRetreated retreated
  have taken := counts_acknowledged isAck
  have none := counts_of_isQuiet fun event member =>
    (Bool.and_eq_true_iff.mp (quiet event member)).1
  refine balanced.acknowledged alive _ trace ?_ ?_ ?_ held pending.le fun _ _ => retreated
  · intro event member
    rcases mem_cons.mp member with rfl | member
    · rfl
    · exact (Bool.and_eq_true_iff.mp (quiet event member)).2
  · rw [← singleton_append, releases_append, acknowledgements_append]
    omega
  · omega

/-- A hold takes over what a return is owed and adds its barrier. -/
theorem Balanced.holds
    (free : view.heldSince = none) (now : Duration) (display : DisplayId) (position : Point F) :
    Balanced past (view.retreat now display position) := by
  obtain ⟨events, trace, restores, retreated, held, pending, -⟩ :=
    view.retreat_spec
  have nothing := balanced.free alive free
  have atMost := view.owed_le
  have counted : (view.retreat now display position).pending = view.owed + 1 := by
    rw [pending, nothing, saturatingSucc, u32Max]
    split <;> omega
  have settled := owed_of_isRetreated retreated
  refine balanced.released alive _ trace ?_ ?_ ?_ ?_ ?_ fun _ => retreated
  · rcases restores with rfl | ⟨request, rfl⟩ <;> simp [isPlain, View.barrier]
  · rcases restores with rfl | ⟨request, rfl⟩ <;> exact ⟨rfl, rfl⟩
  · omega
  · intro free
    rw [held] at free
    cases free
  · omega

theorem Balanced.frees
    (home : view.phase = .home) (settled : view.pending = 0 ∨ view.heldSince = none)
    (next : FloorSnapshot) : Balanced past
      ({ view with floor := next, claim := none }.record (.swapped view.floor next)) := by
  have owed : view.owed = 0 := owed_of_phase (by simp [home])
  have nothing : view.pending = 0 := settled.elim id (balanced.free alive)
  have balance := balanced.balance alive
  refine balanced.counted alive [_] rfl rfl (atEach_concat.mpr ⟨balanced.settled, fun _ => ?_⟩)
    (balanced.free alive) (balanced.bounded alive) (balanced.retreated alive)
  show releases (view.log past) = acknowledgements (view.log past)
  omega

end
end

theorem Balanced.move (move : Move call view later)
    (balanced : Balanced past view) : Balanced past later := by
  by_cases stopped : later.failure ≠ none
  · exact balanced.stopped move stopped
  cases move with
  | arrive =>
    unfold View.arrive
    split
    · exact balanced
    · exact balanced.quiet (.none rfl) fun alive => ⟨alive, rfl, rfl, rfl, fun _ => id⟩
  | takeBack | handover | reach | credit | creditHeld | key | button | offer | seed | foreign
  | lose | routeRemote | forget =>
    exact balanced.quiet (.none rfl) fun alive => ⟨alive, rfl, rfl, rfl, fun _ => id⟩
  | ping | pong | motion | press | again | release | pressButton | releaseButton | catchPress
  | catchRelease | catchPressButton | catchReleaseButton =>
    exact balanced.sent (by assumption) rfl rfl ⟨rfl, rfl, rfl⟩
  | forward message alive away still plain =>
    refine balanced.sent alive rfl ?_ ⟨rfl, rfl, rfl⟩
    rcases plain with ⟨_, rfl⟩ | ⟨_, rfl⟩ | ⟨_, rfl⟩ <;> rfl
  | acceptHeartbeat frame alive brought heartbeat =>
    refine balanced.quiet (.one rfl (quiet_accepted ?_))
      fun alive => ⟨alive, rfl, rfl, rfl, fun _ => id⟩
    intro isAck
    rw [isAck] at heartbeat
    cases heartbeat
  | accept frame alive brought other =>
    exact balanced.quiet (.one rfl (quiet_accepted other))
      fun alive => ⟨alive, rfl, rfl, rfl, fun _ => id⟩
  | barrierAck frame alive brought isAck inOrder owes =>
    refine balanced.acknowledged alive [.accepted frame] rfl (by simp [isPlain])
      (counts_acknowledged isAck) ?_ rfl (Nat.sub_le _ _) fun _ => id
    show view.pending - 1 + view.owed + 1 = view.pending + view.owed
    omega
  | resume now alive held settled answered =>
    exact balanced.resumes alive held settled now
  | claim requesting alive home free swap =>
    have state := claim_state (FloorOp.run_claim swap).2
    exact balanced.swapped requesting (by rw [state]; decide)
  | takeOver handover now sending brought alive home free unclaimed newer swap =>
    have state := handOver_state (FloorOp.run_handOver swap).2
    exact (balanced.swapped sending (by rw [state]; decide)).quiet (.none rfl)
      fun alive => ⟨alive, rfl, rfl, rfl, fun _ => id⟩
  | sending display handedOver owned sending alive asked answered holds swap =>
    have state := transition_state (FloorOp.run_transition swap).2
    exact balanced.swapped sending (by rw [state]; decide)
  | returning owned returning alive away holds swap =>
    have state := transition_state (FloorOp.run_transition swap).2
    exact balanced.swapped returning (by rw [state]; decide)
  | ask display position translate crossing epoch next alive still leaves =>
    refine balanced.quiet (.one rfl rfl)
      fun _ => ⟨alive, rfl, rfl, ?_, fun held retreated => ?_⟩
    · rw [show view.owed = 0 from owed_of_phase ?_]
      · rfl
      · rcases leaves with ⟨home, -⟩ | ⟨away, -⟩ <;> simp_all
    · rcases leaves with ⟨-, free, -⟩ | ⟨away, -⟩
      · simp_all
      · rw [away] at retreated
        cases retreated
  | markHandover display handover now brought asked =>
    exact balanced.passes (.none rfl) rfl rfl rfl (by simp [asked])
      (by simp) (by simp [asked, isRetreated])
  | enter display handedOver alive asked answered =>
    exact balanced.passes (.one rfl rfl) rfl rfl rfl (by simp [asked]) nofun
      (by simp [asked, isRetreated])
  | land alive landing =>
    refine balanced.passes (.none rfl) rfl rfl rfl ?_ nofun ?_ <;>
      rcases landing with ⟨request, ticket, phase⟩ | ⟨display, handedOver, phase, -⟩ <;>
      simp [phase, isRetreated]
  | comeBack onward alive away still =>
    refine balanced.owesOne alive rfl rfl rfl rfl ?_ ?_ <;>
      rcases away with phase | ⟨request, ticket, phase⟩ <;> simp [phase, isRetreated]
  | declined display handedOver alive free asked =>
    exact balanced.passes (.none rfl) rfl rfl rfl (by simp [asked]) nofun
      fun _ => rfl
  | declinedHop display handedOver alive asked =>
    exact balanced.owesOne alive rfl rfl rfl rfl (by simp [asked])
      (by simp [asked, isRetreated])
  | hold now display position alive free still => exact balanced.holds alive free now display position
  | resend alive held settled still =>
    have retreated := balanced.retreated alive held
    have one : saturatingSucc u32Max view.pending = 1 := by
      rw [settled]
      decide
    refine balanced.released alive [_] rfl (forall_mem_singleton.mpr rfl) ⟨rfl, rfl⟩ ?_ ?_ ?_
      fun _ => retreated
    · show saturatingSucc u32Max view.pending + view.owed = view.pending + view.owed + 1
      omega
    · intro free
      rw [show view.heldSince = none from free] at held
      cases held
    · show saturatingSucc u32Max view.pending ≤ 2
      omega
  | released frame display position alive free releasing brought isAck inOrder =>
    split
    · exact balanced.paid alive releasing isAck [_] (append_assoc _ [_] [_])
        (forall_mem_singleton.mpr rfl) rfl rfl rfl
    · exact balanced.paid alive releasing isAck [] rfl (by simp) rfl rfl rfl
  | handOn frame passed claim alive free releasing brought isAck =>
    exact balanced.paid alive releasing isAck [] rfl (by simp) rfl rfl rfl
  | arriveHome request revision alive leaving
  | bindLocal request ticket now alive brought leaving =>
    exact balanced.passes (.none rfl) rfl rfl rfl (by simp [leaving]) nofun fun _ => rfl
  | bindRemote request ticket now alive brought entering =>
    exact balanced.passes (.none rfl) rfl rfl rfl (by simp [entering]) nofun
      (by simp [entering, isRetreated])
  | free owned next operation alive home settled holds named swap =>
    exact balanced.frees alive home settled next
  | fail | holdFail | overflow | latch => simp_all [fail_failure]
  | afterFail left failed stays => simp_all [stays.failure]

/-! ## The proof of the link -/

/-- While a hold lasts, every challenge whose answer may end it went out after it began. -/
structure Proving (past : List (SourceEvent F)) (view : View F) : Prop where
  holding : view.Alive → view.heldSince.isSome = true →
    ∃ before now since, view.log past = before ++ .held now :: since ∧
      (∀ event ∈ since, event.isHoldEdge = false) ∧
      (∀ token, view.lastAcked < token → token < view.nextToken → Challenged since token) ∧
      (view.pongSeen = true → ∃ sent answered token, since = sent ++ answered ∧
        Challenged sent token ∧ Ponged answered token)
  proven : AtEach ProvenAt (view.log past)

theorem provenAt_of_calm (calm : event.isHoldEdge = false) : ProvenAt before event := by
  cases event with
  | resumed => cases calm
  | asked | accepted | swapped | held => exact trivial

theorem Challenged.append {front back : List (SourceEvent F)} {token : Nat}
    (challenged : Challenged front token) : Challenged (front ++ back) token := by
  obtain ⟨frame, waiting, sent, isPing⟩ := challenged
  exact ⟨frame, waiting, mem_append_left _ sent, isPing⟩

theorem Ponged.append {front back : List (SourceEvent F)} {token : Nat}
    (ponged : Ponged front token) : Ponged (front ++ back) token := by
  obtain ⟨frame, taken, isPong⟩ := ponged
  exact ⟨frame, mem_append_left _ taken, isPong⟩

section
variable (proving : Proving past view)
include proving

/-- A move that neither begins nor ends a hold nor takes an answer. -/
theorem Proving.calm (events : List (SourceEvent F))
    (trace : later.trace = view.trace ++ events) (calm : ∀ event ∈ events, event.isHoldEdge = false)
    (same : later.Alive → later.heldSince.isSome = true →
      view.Alive ∧ view.heldSince.isSome = true ∧ view.lastAcked ≤ later.lastAcked ∧
      (later.pongSeen = true → view.pongSeen = true) ∧
      ∀ token, token < later.nextToken → token < view.nextToken ∨ Challenged events token) :
    Proving past later where
  holding alive held := by
    obtain ⟨alive, held, acked, seen, tokens⟩ := same alive held
    obtain ⟨before, now, since, log, edges, challenged, answered⟩ := proving.holding alive held
    refine ⟨before, now, since ++ events, ?_, ?_, ?_, ?_⟩
    · rw [log_append trace, log, append_assoc, cons_append]
    · intro event member
      exact (mem_append.mp member).elim (edges event) (calm event)
    · intro token newer below
      rcases tokens token below with below | asked
      · exact (challenged token (acked.trans_lt newer) below).append
      · obtain ⟨frame, waiting, sent, isPing⟩ := asked
        exact ⟨frame, waiting, mem_append_right _ sent, isPing⟩
    · intro pong
      obtain ⟨sent, replies, token, split, asked, answers⟩ := answered (seen pong)
      refine ⟨sent, replies ++ events, token, ?_, asked, answers.append⟩
      rw [split, append_assoc]
  proven := by
    rw [log_append trace]
    exact proving.proven.append fun event member _ => provenAt_of_calm (calm event member)

theorem Proving.idle (adds : view.Adds later fun event => event.isHoldEdge = false)
    (same : later.Alive → later.heldSince.isSome = true →
      view.Alive ∧ later.heldSince = view.heldSince ∧ later.lastAcked = view.lastAcked ∧
      later.pongSeen = view.pongSeen ∧ later.nextToken = view.nextToken) :
    Proving past later := by
  obtain ⟨events, trace, calm⟩ := adds
  refine proving.calm events trace calm fun alive held => ?_
  obtain ⟨alive, sameHeld, acked, seen, tokens⟩ := same alive held
  exact ⟨alive, sameHeld ▸ held, acked.ge, seen ▸ id, fun token below => .inl (tokens ▸ below)⟩

/-- The answer that just arrived proves the link: the challenge went out after the hold
began, and the answer is the last thing that happened. -/
theorem Proving.credits (alive : view.Alive)
    (held : view.heldSince.isSome = true) {token : Nat} (isPong : frame.message = .pong token)
    (taken : ∃ earlier, view.trace = earlier ++ [.accepted frame])
    (fresh : view.lastAcked < token ∧ token < view.nextToken) :
    Proving past { view with lastAcked := token, pongSeen := true } where
  holding _ _ := by
    obtain ⟨earlier, trace⟩ := taken
    obtain ⟨before, now, since, log, edges, challenged, -⟩ := proving.holding alive held
    refine ⟨before, now, since, log, edges,
      fun other newer => challenged other (fresh.1.trans newer), fun _ => ?_⟩
    have last : (past ++ earlier) ++ [.accepted frame] = before ++ .held now :: since := by
      rw [← log, View.log, trace, append_assoc]
    rcases eq_nil_or_concat since with rfl | ⟨sent, final, rfl⟩
    · cases (append_inj' last rfl).2
    rw [concat_eq_append, ← cons_append, ← append_assoc] at last
    cases (append_inj' last rfl).2
    obtain ⟨ping, waiting, asked, isPing⟩ := challenged token fresh.1 fresh.2
    refine ⟨sent, [.accepted frame], token, concat_eq_append, ⟨ping, waiting, ?_, isPing⟩,
      frame, mem_singleton_self _, isPong⟩
    simpa using asked
  proven := proving.proven

/-- A hold ends only once an answer was seen. -/
theorem Proving.resumes (alive : view.Alive)
    (held : view.heldSince.isSome = true) (answered : view.pongSeen = true) (now : Duration) :
    Proving past ({ view with heldSince := none, pongSeen := false }.record (.resumed now)) where
  holding _ held := by cases held
  proven := by
    show AtEach ProvenAt (past ++ (view.trace ++ [.resumed now]))
    rw [← append_assoc, atEach_concat]
    obtain ⟨before, start, since, log, edges, -, answers⟩ := proving.holding alive held
    obtain ⟨sent, replies, token, rfl, asked, ponged⟩ := answers answered
    exact ⟨proving.proven, before, start, sent, replies, token, log, edges, asked, ponged⟩

/-- No challenge older than the hold counts. -/
theorem Proving.holds (now : Duration) (display : DisplayId)
    (position : Point F) : Proving past (view.retreat now display position) := by
  obtain ⟨events, trace, restores, -, -, -, -, seen, tokens, acked, -⟩ :=
    view.retreat_spec
  have log : (view.retreat now display position).log past = view.log past ++ _ := log_append trace
  constructor
  · intro _ _
    refine ⟨view.log past ++ view.barrier :: events, now, [], ?_, by simp, ?_, ?_⟩
    · rw [log, append_assoc, cons_append]
    · intro token newer below
      omega
    · rw [seen]
      nofun
  · rw [log]
    refine proving.proven.append fun event member before => ?_
    rcases restores with rfl | ⟨request, rfl⟩ <;>
      simp only [nil_append, cons_append, mem_cons, not_mem_nil, or_false]
        at member <;>
      rcases member with rfl | rfl | rfl <;> exact trivial

theorem Proving.stopped
    (move : Move call view later) (failed : later.failure ≠ none) : Proving past later := by
  refine proving.idle ((move.ended failed).mono fun event last => ?_)
    fun alive => absurd alive failed
  cases event with
  | asked | accepted => rfl
  | swapped | held | resumed => cases last

end

theorem Proving.move (move : Move call view later)
    (proving : Proving past view) : Proving past later := by
  by_cases stopped : later.failure ≠ none
  · exact proving.stopped move stopped
  cases move with
  | arrive =>
    unfold View.arrive
    split
    · exact proving
    · exact proving.idle (.none rfl) fun alive _ => ⟨alive, rfl, rfl, rfl, rfl⟩
  | takeBack | handover | reach | key | button | offer | seed | foreign | lose | routeRemote
  | markHandover | land | declined | forget | arriveHome | bindRemote | bindLocal =>
    exact proving.idle (.none rfl) fun alive _ => ⟨alive, rfl, rfl, rfl, rfl⟩
  | pong | motion | press | again | release | pressButton | releaseButton | catchPress | catchRelease
  | catchPressButton | catchReleaseButton | forward | ask | enter | comeBack | declinedHop | resend
  | acceptHeartbeat | accept | barrierAck | claim | takeOver | sending | returning | free | handOn =>
    exact proving.idle (.one rfl rfl) fun alive _ => ⟨alive, rfl, rfl, rfl, rfl⟩
  | released frame display position =>
    split
    · exact proving.idle (.two rfl ⟨rfl, rfl⟩) fun alive _ => ⟨alive, rfl, rfl, rfl, rfl⟩
    · exact proving.idle (.one rfl rfl) fun alive _ => ⟨alive, rfl, rfl, rfl, rfl⟩
  | ping alive =>
    refine proving.calm [_] rfl (forall_mem_singleton.mpr rfl)
      fun alive held => ⟨alive, held, le_rfl, id, fun token below => ?_⟩
    rcases Nat.lt_succ_iff_lt_or_eq.mp below with older | rfl
    · exact .inl older
    · exact .inr ⟨_, _, mem_singleton_self _, rfl⟩
  | credit token alive free fresh =>
    exact proving.calm [] (append_nil _).symm (by simp)
      fun alive held => ⟨alive, held, fresh.1.le, id, fun _ below => .inl below⟩
  | creditHeld frame token alive held brought isPong taken fresh =>
    exact proving.credits alive held isPong taken fresh
  | resume now alive held settled answered => exact proving.resumes alive held answered now
  | hold now display position alive free still => exact proving.holds now display position
  | fail | holdFail | overflow | latch => simp_all [fail_failure]
  | afterFail left failed stays => simp_all [stays.failure]

/-! ## Over a run -/

section
variable [Scalar F]

section

omit [Scalar F]

theorem owed_view (run : SourceRun F) :
    run.view.owed = if run.source.mode = .awaitRemoteReleaseAcknowledgement then 1 else 0 :=
  (Turn.owed_view _).symm

theorem balanced_atStart {source : SourceController F} (floor : FloorSnapshot)
    (start : source.AtStart) : Balanced [] (SourceRun.view { source, floor, history := [] }) := by
  obtain ⟨target, state⟩ := start.state
  refine ⟨fun _ => ?_, fun _ _ => start.held.2.1, fun _ => ?_, fun _ held => ?_, atEach_nil⟩
  · show 0 = 0 + source.releaseAcksPending + View.owed _
    rw [start.held.2.1, owed_of_phase]
    show ∀ onward, source.state.phase ≠ .releasing onward
    rw [state]
    nofun
  · show source.releaseAcksPending ≤ 2
    rw [start.held.2.1]
    omega
  · have isHeld : source.heldSince.isSome = true := held
    rw [start.held.1] at isHeld
    cases isHeld

theorem Balanced.reopen (balanced : Balanced past view) (script : List FloorSnapshot) :
    Balanced (view.log past) (view.reopened script) := by
  have same : (view.reopened script).log (view.log past) = view.log past := append_nil _
  refine ⟨?_, balanced.free, balanced.bounded, balanced.retreated, ?_⟩ <;> rw [same]
  · exact balanced.balance
  · exact balanced.settled

end

variable {run : SourceRun F}

theorem reachable_balanced (reachable : (sourceLts F).Reachable run) : Balanced run.log run.view :=
  reachable_keeps Balanced (fun _ floor start => balanced_atStart floor start)
    (fun _ _ script balanced => balanced.reopen script) (fun _ _ _ _ => Balanced.move) reachable

theorem reachable_proving (reachable : (sourceLts F).Reachable run) : Proving run.log run.view := by
  refine reachable_keeps Proving ?_ ?_ (fun _ _ _ _ => Proving.move) reachable
  · intro source floor start
    refine ⟨fun _ held => ?_, atEach_nil⟩
    have isHeld : source.heldSince.isSome = true := held
    rw [start.held.1] at isHeld
    cases isHeld
  · intro past view script proving
    have same : (view.reopened script).log (view.log past) = view.log past := append_nil _
    cases proving
    constructor <;> rwa [same]

/-- Release accounting, over every run of a controller. -/
theorem release_accounting {run : SourceRun F} (reachable : (sourceLts F).Reachable run) :
    (run.source.failure = none → releases run.log = acknowledgements run.log +
      run.source.releaseAcksPending +
      if run.source.mode = .awaitRemoteReleaseAcknowledgement then 1 else 0) ∧
    (run.source.failure = none → run.source.heldSince = none → run.source.releaseAcksPending = 0) ∧
    (∀ before now after, run.log = before ++ .resumed now :: after →
      Repaid before ∧ Proven before) ∧
    ∀ before source target after, run.log = before ++ .swapped source target :: after →
      target.state = .free → Repaid before := by
  have balanced := reachable_balanced reachable
  have proving := reachable_proving reachable
  have same : run.view.log run.log = run.log := append_nil _
  refine ⟨fun alive => ?_, balanced.free, fun before now after log => ?_,
    fun before source target after log free => ?_⟩
  · have balance := balanced.balance alive
    rw [same, owed_view] at balance
    exact balance
  · rw [← same] at log
    exact ⟨balanced.settled before _ after log, proving.proven before _ after log⟩
  · rw [← same] at log
    exact balanced.settled before _ after log free

end
end

/-! ## A trip to a neighbour and back -/

namespace SourceRun

/-- Two computers side by side, with one display each. -/
def display (id : Nat) (left : Int) : Display Int :=
  { id := ⟨id⟩, machine := ⟨id⟩, nativeSize := ⟨1000, 1000⟩, logicalSize := ⟨1000, 1000⟩
    origin := ⟨left, 0⟩, scaleFactor := 1, inUse := true }

def link (source target : Nat) (leaving entering : Edge) : EdgeLink Int :=
  { fromDisplay := ⟨source⟩, fromEdge := leaving, fromSpan := ⟨0, 1⟩, toDisplay := ⟨target⟩
    toEdge := entering, toSpan := ⟨0, 1⟩, hysteresis := 2 }

def neighbours : Topology Int :=
  { machines := [⟨⟨1⟩, .windows⟩, ⟨⟨2⟩, .windows⟩], displays := [display 1 0, display 2 1000]
    links := [link 1 2 .right .left, link 2 1 .left .right] }

def atHome : PointerTarget := ⟨⟨1⟩, ⟨1⟩⟩

def idle : SourceController Int :=
  .fresh neighbours atHome ⟨atHome, .localActive atHome, 0⟩ (some ⟨2⟩) ⟨5, by decide⟩ 0 0

def start : SourceRun Int := { source := idle, floor := ⟨.free, 1, .NONE⟩, history := [] }

/-- A call no other thread interferes with. -/
def quiet (call : SourceCall Int) : SourceLabel Int := ⟨call, [], ⟨false, 0, false⟩⟩

def calls (run : SourceRun Int) (made : List (SourceCall Int)) : SourceRun Int :=
  made.foldl (fun run call => run.next (quiet call)) run

theorem reachable_calls {run : SourceRun Int} (reachable : (sourceLts Int).Reachable run)
    (made : List (SourceCall Int)) : (sourceLts Int).Reachable (run.calls made) := by
  induction made generalizing run with
  | nil => exact reachable
  | cons call made ih => exact ih (reachable.extend (.single rfl))

theorem start_reachable : (sourceLts Int).Reachable start :=
  ⟨start, [], ⟨.new neighbours ⟨1⟩ ⟨1⟩ ⟨5, by decide⟩ 0 0 idle rfl, rfl⟩, .nil _⟩

/-- A frame of the neighbour in the epoch the trip opens. -/
def reply (sequence : Nat) (message : Message Int) (now : Duration) : SourceCall Int :=
  .remoteFrame (.new ⟨6, by decide⟩ sequence message) now

/-- The pointer is pushed through the right edge, the neighbour acknowledges and the native
route follows. -/
def crossed : SourceRun Int :=
  start.calls
    [.observePointer ⟨999, 500⟩ 0, .captured ⟨.relativeMotion ⟨300, 0⟩ 1, 0, false, 1⟩ 0,
      reply 0 (.activationAck ⟨2⟩) 0, .bindCaptureRoute ⟨1⟩ 1 0,
      .captured ⟨.routeChanged true 1, 1, true, 2⟩ 0]

theorem crossed_reachable : (sourceLts Int).Reachable crossed := reachable_calls start_reachable _

def silence : Duration := .fromSecs 2

/-- The neighbour falls silent, which holds the session, and then answers the barrier and a
challenge, which resumes it; the native barrier frees the floor. -/
def returned : SourceRun Int :=
  crossed.calls
    [.tick silence, .tick (silence + 1), reply 1 .releaseAck (silence + 2),
      .remoteFrame (.new ⟨5, by decide⟩ 0 (.pong 1)) (silence + 3),
      .bindCaptureRoute ⟨2⟩ 2 (silence + 4),
      .captured ⟨.routeChanged false 2, 2, false, 2⟩ (silence + 5)]

theorem release_accounting_returned :
    (releases returned.log = 1 ∧ releases returned.log =
      acknowledgements returned.log + returned.source.releaseAcksPending +
        if returned.source.mode = .awaitRemoteReleaseAcknowledgement then 1 else 0) ∧
    returned.source.releaseAcksPending = 0 ∧
    (∃ before after, returned.log = before ++ .resumed (silence + 3) :: after ∧
      Repaid before ∧ Proven before) ∧
    ∃ before source target, returned.log = before ++ [.swapped source target] ∧
      target.state = .free ∧ Repaid before := by
  obtain ⟨balance, free, resumed, freed⟩ := release_accounting (reachable_calls crossed_reachable _)
  exact ⟨⟨rfl, balance rfl⟩, free rfl rfl,
    ⟨returned.log.take 11, [_], rfl, resumed _ _ [_] rfl⟩,
    ⟨returned.log.take 12, _, _, rfl, rfl, freed _ _ _ [] rfl rfl⟩⟩

/-! ### Running out of sequence numbers -/

def wheel : Scroll Int := { horizontal := 0, vertical := 1 }

def scroll : SourceCall Int := .captured ⟨.scroll 0 1, 1, true, 2⟩ 0

/-- The crossed run but for the next sequence number and the history. -/
def crossedAt (sequence : Nat) (history : List (SourceCall Int × List (SourceEvent Int))) :
    SourceRun Int :=
  { source := { crossed.source with outboundInputSequence := sequence }, floor := crossed.floor
    history }

variable {history : List (SourceCall Int × List (SourceEvent Int))}

theorem sendInput_crossedAt (room : sequence < u64Max)
    (history : List (SourceCall Int × List (SourceEvent Int))) :
    ((crossedAt sequence history).turn (quiet scroll)).sendInput (.scroll wheel) =
      (((crossedAt (sequence + 1) history).turn (quiet scroll)).record
        (.asked (.remoteFrame (.new ⟨6, by decide⟩ sequence (.scroll wheel))) none)) := by
  have next : checkedSucc (crossedAt sequence history).source.outboundInputSequence =
      some (sequence + 1) := checkedSucc_eq_some.mpr ⟨room, rfl⟩
  unfold Turn.sendInput
  rw [show checkedSucc ((crossedAt sequence history).turn (quiet scroll)).source.outboundInputSequence
    = _ from next]
  rfl

/-- A scroll changes nothing but the sequence. -/
theorem next_crossedAt (room : sequence < u64Max) :
    (crossedAt sequence history).next (quiet scroll) =
      crossedAt (sequence + 1)
        (history ++ [(scroll, ((crossedAt sequence history).after (quiet scroll)).trace)]) := by
  have taken : (crossedAt sequence history).after (quiet scroll) =
      (((crossedAt sequence history).turn (quiet scroll)).sendInput (.scroll wheel)).outcome.2 := rfl
  rw [sendInput_crossedAt room] at taken
  unfold SourceRun.next
  rw [taken]
  rfl

theorem scrolled_reachable (positive : 0 < sequence) (bounded : sequence ≤ u64Max) :
    ∃ history, (sourceLts Int).Reachable (crossedAt sequence history) := by
  induction sequence, positive using Nat.le_induction with
  | base => exact ⟨crossed.history, crossed_reachable⟩
  | succ sequence _ ih =>
    obtain ⟨history, reachable⟩ := ih (by omega)
    exact ⟨_, next_crossedAt (show sequence < u64Max by omega) ▸ reachable.extend (.single rfl)⟩

theorem calls_source {run other : SourceRun Int} (source : run.source = other.source)
    (floor : run.floor = other.floor) (made : List (SourceCall Int)) :
    (run.calls made).source = (other.calls made).source := by
  induction made generalizing run other with
  | nil => exact source
  | cons call made ih =>
    have same : run.after (quiet call) = other.after (quiet call) := by
      unfold after turn
      rw [source, floor]
    exact ih (congrArg Turn.source same) (congrArg Turn.floor same)

/-- The last sequence number is spent on the ordinary release, so the hold that comes before
its acknowledgement cannot send its own. -/
theorem owed_not_held : ∃ run : SourceRun Int, (sourceLts Int).Reachable run ∧
    run.source.heldSince = none ∧ run.source.releaseAcksPending = 1 := by
  have last : 0 < u64Max - 1 ∧ u64Max - 1 ≤ u64Max := by decide
  obtain ⟨history, reachable⟩ := scrolled_reachable last.1 last.2
  refine ⟨_, reachable_calls reachable [.requestLocal 0, .tick 100000000000], ?_⟩
  have same : (crossedAt (u64Max - 1) history).source = (crossedAt (u64Max - 1) []).source := rfl
  rw [calls_source same rfl]
  decide +kernel

end SourceRun
end Monhop.Transport
