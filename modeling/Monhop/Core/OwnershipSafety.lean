import Monhop.Core.Ownership
import Monhop.Library.Calls

/-! # Pointer ownership over whole runs

The calls come in any order, with stale epochs and targets among their arguments.

* `PointerOwnership.Change` — what one call can do, said once.
* `PointerOwnership.Kept` — the local machine keeps what it falls back to.
* `pointer_ownership` — epochs, acknowledgements, refusals and the local machine, over every run.
-/

namespace Monhop.Core

open Library PointerOwnership

inductive OwnershipCall where
  | beginTransition (target : PointerTarget)
  | acknowledgeTransition (acknowledgement : TransitionAcknowledgement)
  | onDisconnect
  | onTimeout
  | onInputOverflow
  | onEmergencyEscape
  | beginRecovery
  | completeRecovery (epoch : Nat)

inductive OwnershipReply where
  | command (command : OwnershipCommand)
  | plan (plan : RecoveryPlan)
  | recovering (epoch : Nat)
  | recovered

/-- The epoch a reply opens; an activation and a recovery go on with theirs. -/
def OwnershipReply.opened : OwnershipReply → Option Nat
  | .command (.beginTransition _ _ epoch) => some epoch
  | .plan { epoch, .. } => some epoch
  | .command (.activate _ _) | .recovering _ | .recovered => none

/-- The target that owns input, once a transition is over and no failure followed. -/
def OwnershipState.active : OwnershipState → Option PointerTarget
  | .localActive target | .remoteActive target _ => some target
  | .transitioning _ _ _ | .disconnected _ _ | .recovering _ _ => none

namespace PointerOwnership

def call (ownership : PointerOwnership) :
    OwnershipCall → Except OwnershipError OwnershipReply × PointerOwnership
  | .beginTransition target => (ownership.beginTransition target).map (·.map .command) id
  | .acknowledgeTransition acknowledgement =>
    (ownership.acknowledgeTransition acknowledgement).map (·.map .command) id
  | .onDisconnect => ownership.onDisconnect.map (·.map .plan) id
  | .onTimeout => ownership.onTimeout.map (·.map .plan) id
  | .onInputOverflow => ownership.onInputOverflow.map (·.map .plan) id
  | .onEmergencyEscape => ownership.onEmergencyEscape.map (·.map .plan) id
  | .beginRecovery => ownership.beginRecovery.map (·.map .recovering) id
  | .completeRecovery epoch => (ownership.completeRecovery epoch).map (·.map fun _ => .recovered) id

/-- What one call can do. -/
inductive Change (ownership : PointerOwnership) :
    OwnershipCall → Except OwnershipError OwnershipReply → PointerOwnership → Prop where
  | refused {call : OwnershipCall} (error : OwnershipError) :
      Change ownership call (.error error) ownership
  | began {source target : PointerTarget} (active : ownership.state.active = some source) :
      Change ownership (.beginTransition target)
        (.ok (.command (.beginTransition source target (ownership.epoch + 1))))
        { ownership with
          state := .transitioning source target (ownership.epoch + 1), epoch := ownership.epoch + 1 }
  | acknowledged {source target : PointerTarget} {epoch : Nat}
      (moving : ownership.state = .transitioning source target epoch) :
      Change ownership (.acknowledgeTransition ⟨target, epoch⟩)
        (.ok (.command (.activate target epoch)))
        { ownership with
          state := if target.machine = ownership.home.machine then .localActive target
            else .remoteActive target epoch }
  | failed {call : OwnershipCall} {plan : RecoveryPlan} {state : OwnershipState}
      (epoch : plan.epoch = ownership.epoch + 1)
      (home : state = .disconnected ownership.home (ownership.epoch + 1) ∨
        state = .recovering ownership.home (ownership.epoch + 1)) :
      Change ownership call (.ok (.plan plan))
        { ownership with state, epoch := ownership.epoch + 1 }
  | recovering {home : PointerTarget} {epoch : Nat} (lost : ownership.state = .disconnected home epoch) :
      Change ownership .beginRecovery (.ok (.recovering epoch))
        { ownership with state := .recovering home epoch }
  | recovered {home : PointerTarget} {epoch : Nat} (lost : ownership.state = .recovering home epoch) :
      Change ownership (.completeRecovery epoch) (.ok .recovered)
        { ownership with state := .localActive home }

variable {ownership : PointerOwnership}

theorem transitionSource_eq_ok {source : PointerTarget}
    (found : ownership.transitionSource = .ok source) : ownership.state.active = some source := by
  unfold transitionSource at found
  split at found <;> cases found <;> simp_all [OwnershipState.active]

theorem nextEpoch_eq_some {epoch : Nat} (found : ownership.nextEpoch = some epoch) :
    epoch = ownership.epoch + 1 := by
  unfold nextEpoch at found
  split at found <;> cases found
  rfl

theorem beginTransition_change {target : PointerTarget} :
    Change ownership (.beginTransition target) ((ownership.beginTransition target).1.map .command)
      (ownership.beginTransition target).2 := by
  unfold beginTransition
  split
  · exact .refused _
  next source found =>
  split
  · exact .refused _
  split
  · exact .refused _
  · next epoch fresh =>
    obtain rfl := nextEpoch_eq_some fresh
    exact .began (transitionSource_eq_ok found)

theorem acknowledgeTransition_change {acknowledgement : TransitionAcknowledgement} :
    Change ownership (.acknowledgeTransition acknowledgement)
      ((ownership.acknowledgeTransition acknowledgement).1.map .command)
      (ownership.acknowledgeTransition acknowledgement).2 := by
  unfold acknowledgeTransition
  split
  · next source target epoch moving =>
    split
    · exact .refused _
    · next own =>
      push Not at own
      obtain ⟨rfl, rfl⟩ := own
      exact .acknowledged moving
  · exact .refused _

/-- Every failure retreats to the home target under an epoch of its own. -/
theorem enterFailure_change {call : OwnershipCall} {reason : FailureReason} {disconnected : Bool} :
    Change ownership call ((ownership.enterFailure reason disconnected).1.map .plan)
      (ownership.enterFailure reason disconnected).2 := by
  unfold enterFailure
  split
  · exact .refused _
  next epoch fresh =>
  obtain rfl := nextEpoch_eq_some fresh
  refine .failed rfl ?_
  cases disconnected with
  | true => exact .inl rfl
  | false => exact .inr rfl

theorem beginRecovery_change :
    Change ownership .beginRecovery (ownership.beginRecovery.1.map .recovering)
      ownership.beginRecovery.2 := by
  unfold beginRecovery
  split
  · next lost => exact .recovering lost
  · exact .refused _

theorem completeRecovery_change {epoch : Nat} :
    Change ownership (.completeRecovery epoch)
      ((ownership.completeRecovery epoch).1.map fun _ => .recovered)
      (ownership.completeRecovery epoch).2 := by
  unfold completeRecovery
  split
  · next home expected lost =>
    split
    · exact .refused _
    · next same =>
      obtain rfl := not_not.mp same
      exact .recovered lost
  · exact .refused _

theorem call_change (call : OwnershipCall) :
    Change ownership call (ownership.call call).1 (ownership.call call).2 := by
  cases call with
  | beginTransition target => exact beginTransition_change
  | acknowledgeTransition acknowledgement => exact acknowledgeTransition_change
  | onDisconnect => exact enterFailure_change
  | onTimeout => exact enterFailure_change
  | onInputOverflow => exact enterFailure_change
  | onEmergencyEscape => exact enterFailure_change
  | beginRecovery => exact beginRecovery_change
  | completeRecovery epoch => exact completeRecovery_change

/-! ## What a run keeps -/

/-- The local machine keeps what it falls back to. -/
structure Kept (machine : DeviceId) (ownership : PointerOwnership) : Prop where
  home : ownership.home.machine = machine
  active : ∀ target, ownership.state = .localActive target → target.machine = machine
  lost : ∀ home epoch, ownership.state = .disconnected home epoch ∨
    ownership.state = .recovering home epoch → home.machine = machine

variable {machine : DeviceId} {call : OwnershipCall} {after : PointerOwnership}
  {reply : Except OwnershipError OwnershipReply}

theorem new_kept {home : PointerTarget} (made : new machine home = .ok ownership) :
    ownership.Kept machine := by
  unfold new at made
  split at made
  · cases made
  next own =>
  cases made
  have same := not_not.mp own
  refine ⟨same, ?_, ?_⟩
  · rintro target ⟨⟩
    exact same
  · rintro home epoch (lost | lost) <;> cases lost

theorem Kept.change (kept : ownership.Kept machine) (change : Change ownership call reply after) :
    after.Kept machine := by
  cases change with
  | refused => exact kept
  | began active =>
    refine ⟨kept.home, nofun, ?_⟩
    rintro home epoch (lost | lost) <;> cases lost
  | @acknowledged source target epoch moving =>
    refine ⟨kept.home, ?_, ?_⟩
    · intro other found
      split at found
      · next here =>
        cases found
        exact here.trans kept.home
      · cases found
    · intro home other lost
      split at lost <;> rcases lost with lost | lost <;> cases lost
  | failed epoch fallen =>
    rcases fallen with rfl | rfl
    · refine ⟨kept.home, nofun, ?_⟩
      rintro home other (lost | lost) <;> cases lost
      exact kept.home
    · refine ⟨kept.home, nofun, ?_⟩
      rintro home other (lost | lost) <;> cases lost
      exact kept.home
  | @recovering home epoch lost =>
    refine ⟨kept.home, nofun, ?_⟩
    rintro other later (found | found) <;> cases found
    exact kept.lost home epoch (.inl lost)
  | @recovered home epoch lost =>
    refine ⟨kept.home, ?_, ?_⟩
    · rintro target ⟨⟩
      exact kept.lost home epoch (.inr lost)
    · rintro other later (found | found) <;> cases found

/-- A call opens the next epoch or keeps the one it found. -/
theorem Change.epoch (change : Change ownership call reply after) :
    (∃ answer, reply = .ok answer ∧ answer.opened = some after.epoch ∧
        after.epoch = ownership.epoch + 1) ∨
      (∀ answer, reply = .ok answer → answer.opened = none) ∧ after.epoch = ownership.epoch := by
  cases change with
  | refused => exact .inr ⟨nofun, rfl⟩
  | began => exact .inl ⟨_, rfl, rfl, rfl⟩
  | failed epoch => exact .inl ⟨_, rfl, congrArg some epoch, rfl⟩
  | acknowledged | recovering | recovered =>
    refine .inr ⟨?_, rfl⟩
    rintro answer ⟨⟩
    rfl

/-- A transition that becomes active was acknowledged under its epoch and target. -/
theorem Change.activates (change : Change ownership call reply after)
    {source target active : PointerTarget} {epoch : Nat}
    (moving : ownership.state = .transitioning source target epoch)
    (activated : after.state.active = some active) :
    call = .acknowledgeTransition ⟨target, epoch⟩ ∧ active = target := by
  cases change with
  | refused => simp [moving, OwnershipState.active] at activated
  | began idle => simp [moving, OwnershipState.active] at idle
  | acknowledged found =>
    obtain ⟨rfl, rfl, rfl⟩ := OwnershipState.transitioning.inj (found.symm.trans moving)
    refine ⟨rfl, ?_⟩
    split at activated <;> cases activated <;> rfl
  | failed _ fallen => rcases fallen with rfl | rfl <;> cases activated
  | recovering lost => cases lost.symm.trans moving
  | recovered lost => cases lost.symm.trans moving

/-! ## Runs -/

def afterFirst (start : PointerOwnership) (calls : List OwnershipCall) (count : Nat) :
    PointerOwnership :=
  afterCalls PointerOwnership.call start (calls.take count)

def openedAt (start : PointerOwnership) (calls : List OwnershipCall) (index : Nat) : Option Nat :=
  (replyAt PointerOwnership.call start calls index).bind fun reply =>
    reply.toOption.bind OwnershipReply.opened

variable {start : PointerOwnership} {calls : List OwnershipCall} {index : Nat}

theorem afterFirst_change (here : calls[index]? = some call) :
    ∃ reply, replyAt PointerOwnership.call start calls index = some reply ∧
      Change (start.afterFirst calls index) call reply (start.afterFirst calls (index + 1)) := by
  refine ⟨_, replyAt_eq here, ?_⟩
  rw [afterFirst, afterFirst, afterCalls_take_succ here]
  exact call_change call

/-- An epoch a call opens is the next one after the epoch it found. -/
theorem openedAt_eq {epoch : Nat} (opened : start.openedAt calls index = some epoch) :
    (start.afterFirst calls index).epoch < epoch ∧
      (start.afterFirst calls (index + 1)).epoch = epoch := by
  cases here : calls[index]? with
  | none => simp [openedAt, replyAt, here] at opened
  | some call =>
    obtain ⟨reply, found, change⟩ := @afterFirst_change _ start _ _ here
    rw [openedAt, found, Option.bind_some] at opened
    rcases change.epoch with ⟨answer, rfl, fresh, next⟩ | ⟨none, -⟩
    · cases fresh.symm.trans opened
      omega
    · cases reply with
      | error => cases opened
      | ok answer => cases (none answer rfl).symm.trans opened

theorem epoch_mono (start : PointerOwnership) (calls : List OwnershipCall) :
    Monotone fun count => (start.afterFirst calls count).epoch := by
  refine monotone_nat_of_le_succ fun index => ?_
  cases here : calls[index]? with
  | none =>
    have past := List.getElem?_eq_none_iff.mp here
    rw [afterFirst, afterFirst, List.take_of_length_le past,
      List.take_of_length_le (Nat.le_succ_of_le past)]
  | some call =>
    obtain ⟨reply, -, change⟩ := @afterFirst_change _ start _ _ here
    rcases change.epoch with ⟨-, -, -, next⟩ | ⟨-, same⟩ <;> omega

theorem Kept.afterFirst (kept : start.Kept machine) {count : Nat} (inside : count ≤ calls.length) :
    (start.afterFirst calls count).Kept machine :=
  afterCalls_invariant (fun _ ownership => Kept machine ownership) kept
    (fun _ call _ _ kept => kept.change (call_change call)) inside

end PointerOwnership

/-- Pointer ownership over every run of calls, in any order and with any arguments, on an ownership
made for a local machine: each epoch a call opens is greater than every epoch opened before; a
transition becomes active only by an acknowledgement with its epoch and its target; a call that
returns an error changes nothing; the machine that owns input is the local one while disconnected
or recovering; and a local target is one of the local machine. -/
theorem pointer_ownership (machine : DeviceId) (home : PointerTarget) (start : PointerOwnership)
    (made : PointerOwnership.new machine home = .ok start) (calls : List OwnershipCall) :
    (∀ first second earlier later, first < second → start.openedAt calls first = some earlier →
      start.openedAt calls second = some later → earlier < later) ∧
    (∀ index call, calls[index]? = some call → ∀ source target epoch active,
      (start.afterFirst calls index).state = .transitioning source target epoch →
      (start.afterFirst calls (index + 1)).state.active = some active →
        call = .acknowledgeTransition ⟨target, epoch⟩ ∧ active = target) ∧
    (∀ index error, replyAt PointerOwnership.call start calls index = some (.error error) →
      start.afterFirst calls (index + 1) = start.afterFirst calls index) ∧
    ∀ count ≤ calls.length,
      (∀ lost epoch, (start.afterFirst calls count).state = .disconnected lost epoch ∨
        (start.afterFirst calls count).state = .recovering lost epoch →
        (start.afterFirst calls count).activeDestination.machine = machine) ∧
      ∀ target, (start.afterFirst calls count).state = .localActive target →
        target.machine = machine := by
  refine ⟨?_, ?_, ?_, ?_⟩
  · intro first second earlier later order openedFirst openedSecond
    obtain ⟨-, reached⟩ := openedAt_eq openedFirst
    obtain ⟨below, -⟩ := openedAt_eq openedSecond
    have grown := epoch_mono start calls (Nat.succ_le_of_lt order)
    dsimp only [Nat.succ_eq_add_one] at grown
    omega
  · intro index call here source target epoch active moving activated
    obtain ⟨reply, -, change⟩ := @PointerOwnership.afterFirst_change _ start _ _ here
    exact change.activates moving activated
  · intro index error refused
    cases here : calls[index]? with
    | none => simp [replyAt, here] at refused
    | some call =>
      obtain ⟨reply, found, change⟩ := @PointerOwnership.afterFirst_change _ start _ _ here
      obtain rfl := Option.some.inj (found.symm.trans refused)
      generalize start.afterFirst calls (index + 1) = after at change
      cases change
      rfl
  · intro count inside
    have kept := (new_kept made).afterFirst inside
    refine ⟨?_, kept.active⟩
    intro lost epoch state
    rw [activeDestination]
    rcases state with found | found
    · rw [found]
      exact kept.lost lost epoch (.inl found)
    · rw [found]
      exact kept.lost lost epoch (.inr found)

namespace OwnershipRun

def home : PointerTarget := ⟨⟨1⟩, ⟨10⟩⟩
def across : PointerTarget := ⟨⟨2⟩, ⟨20⟩⟩
def fresh : PointerOwnership := ⟨home, .localActive home, 0⟩

/-- Across, lost, and back: a stale acknowledgement is refused. -/
def calls : List OwnershipCall :=
  [.beginTransition across, .acknowledgeTransition ⟨home, 1⟩, .acknowledgeTransition ⟨across, 1⟩,
    .onDisconnect, .beginRecovery, .completeRecovery 2]

theorem pointer_ownership_returns :
    PointerOwnership.new ⟨1⟩ home = .ok fresh ∧
      (fresh.afterFirst calls 3).state = .remoteActive across 1 ∧
      (fresh.afterFirst calls 4).state = .disconnected home 2 ∧
      (fresh.afterFirst calls 6).state = .localActive home ∧
      (fresh.afterFirst calls 4).activeDestination.machine = ⟨1⟩ :=
  ⟨by decide, by decide, by decide, by decide,
    ((pointer_ownership ⟨1⟩ home fresh (by decide) calls).2.2.2 4 (by decide)).1 home 2
      (.inl (by decide))⟩

end OwnershipRun
end Monhop.Core
