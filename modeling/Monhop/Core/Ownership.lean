import Monhop.Core.Types

/-! # Pointer destination ownership

One display owns input.  A handoff opens a transition under a fresh epoch and becomes
active only by its acknowledgement; a failure retreats to the local target under a fresh
epoch of its own.
-/

namespace Monhop.Core

structure PointerTarget where
  machine : DeviceId
  display : DisplayId
  deriving DecidableEq

inductive OwnershipState where
  | localActive (target : PointerTarget)
  | transitioning (source target : PointerTarget) (epoch : Nat)
  | remoteActive (target : PointerTarget) (epoch : Nat)
  | disconnected (home : PointerTarget) (epoch : Nat)
  | recovering (home : PointerTarget) (epoch : Nat)
  deriving DecidableEq

structure TransitionAcknowledgement where
  target : PointerTarget
  epoch : Nat

inductive OwnershipCommand where
  | beginTransition (source target : PointerTarget) (epoch : Nat)
  | activate (target : PointerTarget) (epoch : Nat)

inductive FailureReason where
  | disconnected
  | timeout
  | inputOverflow
  | emergencyEscape

structure RecoveryPlan where
  reason : FailureReason
  home : PointerTarget
  remoteToRelease : Option PointerTarget
  epoch : Nat

inductive OwnershipError where
  | localTargetMustBelongToLocalMachine
  | transitionAlreadyInProgress
  | notReady
  | sameTarget
  | unsolicitedAcknowledgement
  | staleAcknowledgement
  | staleRecovery
  | epochExhausted
  deriving DecidableEq

structure PointerOwnership where
  /-- The local target it was made with. -/
  home : PointerTarget
  state : OwnershipState
  epoch : Nat
  deriving DecidableEq

def maxOwnershipEpoch : Nat := 2 ^ 64 - 1

namespace PointerOwnership

def new (localMachine : DeviceId) (home : PointerTarget) : Except OwnershipError PointerOwnership :=
  if home.machine ≠ localMachine then .error .localTargetMustBelongToLocalMachine
  else .ok { home, state := .localActive home, epoch := 0 }

variable (ownership : PointerOwnership)

/-- The one destination that owns input, including while handoff recovery is in progress. -/
def activeDestination : PointerTarget :=
  match ownership.state with
  | .localActive target | .remoteActive target _ => target
  | .transitioning source _ _ => source
  | .disconnected home _ | .recovering home _ => home

def nextEpoch : Option Nat :=
  if ownership.epoch < maxOwnershipEpoch then some (ownership.epoch + 1) else none

/-- Where a transition would begin. -/
def transitionSource : Except OwnershipError PointerTarget :=
  match ownership.state with
  | .localActive target | .remoteActive target _ => .ok target
  | .transitioning _ _ _ => .error .transitionAlreadyInProgress
  | .disconnected _ _ | .recovering _ _ => .error .notReady

def beginTransition (target : PointerTarget) :
    Except OwnershipError OwnershipCommand × PointerOwnership :=
  match ownership.transitionSource with
  | .error error => (.error error, ownership)
  | .ok source =>
    if source = target then (.error .sameTarget, ownership)
    else
      match ownership.nextEpoch with
      | none => (.error .epochExhausted, ownership)
      | some epoch =>
        (.ok (.beginTransition source target epoch),
          { ownership with state := .transitioning source target epoch, epoch })

def acknowledgeTransition (acknowledgement : TransitionAcknowledgement) :
    Except OwnershipError OwnershipCommand × PointerOwnership :=
  match ownership.state with
  | .transitioning _ target epoch =>
    if acknowledgement.epoch ≠ epoch ∨ acknowledgement.target ≠ target then
      (.error .staleAcknowledgement, ownership)
    else
      (.ok (.activate target epoch),
        { ownership with
          state := if target.machine = ownership.home.machine then .localActive target
            else .remoteActive target epoch })
  | _ => (.error .unsolicitedAcknowledgement, ownership)

/-- The remote target a failure leaves to release. -/
def remoteToRelease : Option PointerTarget :=
  match ownership.state with
  | .remoteActive target _ => if target.machine ≠ ownership.home.machine then some target else none
  | .transitioning source target _ =>
    if target.machine ≠ ownership.home.machine then some target
    else if source.machine ≠ ownership.home.machine then some source
    else none
  | _ => none

def enterFailure (reason : FailureReason) (disconnected : Bool) :
    Except OwnershipError RecoveryPlan × PointerOwnership :=
  match ownership.nextEpoch with
  | none => (.error .epochExhausted, ownership)
  | some epoch =>
    (.ok { reason, home := ownership.home, remoteToRelease := ownership.remoteToRelease, epoch },
      { ownership with
        epoch
        state := if disconnected then .disconnected ownership.home epoch
          else .recovering ownership.home epoch })

def onDisconnect : Except OwnershipError RecoveryPlan × PointerOwnership :=
  ownership.enterFailure .disconnected true

def onTimeout : Except OwnershipError RecoveryPlan × PointerOwnership :=
  ownership.enterFailure .timeout false

def onInputOverflow : Except OwnershipError RecoveryPlan × PointerOwnership :=
  ownership.enterFailure .inputOverflow false

def onEmergencyEscape : Except OwnershipError RecoveryPlan × PointerOwnership :=
  ownership.enterFailure .emergencyEscape false

def beginRecovery : Except OwnershipError Nat × PointerOwnership :=
  match ownership.state with
  | .disconnected home epoch => (.ok epoch, { ownership with state := .recovering home epoch })
  | _ => (.error .notReady, ownership)

def completeRecovery (epoch : Nat) : Except OwnershipError Unit × PointerOwnership :=
  match ownership.state with
  | .recovering home expected =>
    if epoch ≠ expected then (.error .staleRecovery, ownership)
    else (.ok (), { ownership with state := .localActive home })
  | _ => (.error .notReady, ownership)

end PointerOwnership
end Monhop.Core
