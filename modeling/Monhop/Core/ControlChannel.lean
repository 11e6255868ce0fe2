import Monhop.Library.Transition
import Monhop.Protocol.Codec

/-! # The control channel of the capture thread

One controller publishes at most one command until the capture thread completes it.  The payload
and the revision are words of their own; each access to one is an atomic step.

Beside the shared words and where the two threads stand, a state keeps a log of what happened and
the words as the running submit found them.
-/

namespace Monhop.Core

open Library (Lts)
open Protocol (FloatBits u64Max)

inductive CaptureCommand (F : Type) where
  /-- Begins a remote route. -/
  | activateRemote (deadline : Duration)
  /-- Extends an already active remote route. -/
  | remoteUntil (deadline : Duration)
  /-- Returns to local routing with the cursor at a place. -/
  | localAt (position : Point F)
  /-- Emergency local restore. -/
  | toLocal
  deriving DecidableEq

inductive ControlError where
  | pending
  | failed
  | exhausted
  | invalidDeadline
  | invalidPoint

/-- The capture thread's terminal outcome for one command revision. -/
inductive ControlCompletion where
  | applied
  | failed
  deriving DecidableEq

def ControlCompletion.encoded : ControlCompletion → Nat
  | .applied => 1
  | .failed => 2

def ControlCompletion.fromEncoded : Nat → Option ControlCompletion
  | 1 => some .applied
  | 2 => some .failed
  | _ => none

/-! ## Payloads -/

inductive ControlWord where
  | kind
  | deadlineNs
  | positionXBits
  | positionYBits
  deriving DecidableEq

/-- The order `submit` stores the payload in. -/
def ControlWord.ALL : List ControlWord := [.kind, .deadlineNs, .positionXBits, .positionYBits]

abbrev Payload := ControlWord → Nat

def Payload.of (kind deadlineNs positionXBits positionYBits : Nat) : Payload
  | .kind => kind
  | .deadlineNs => deadlineNs
  | .positionXBits => positionXBits
  | .positionYBits => positionYBits

section
variable {F : Type} [Scalar F] [FloatBits F]

/-- What `submit` stores for a command, or why it refuses. -/
def CaptureCommand.encode : CaptureCommand F → Except ControlError Payload
  | .activateRemote deadline =>
    if deadline ≤ u64Max then .ok (.of 1 deadline 0 0) else .error .invalidDeadline
  | .remoteUntil deadline =>
    if deadline ≤ u64Max then .ok (.of 2 deadline 0 0) else .error .invalidDeadline
  | .localAt position =>
    if !position.isFinite then .error .invalidPoint
    else .ok (.of 3 0 (FloatBits.toBits position.x) (FloatBits.toBits position.y))
  | .toLocal => .ok (.of 4 0 0 0)

end

/-! ## Where the threads stand -/

/-- Where the submitting thread stands: what it does next. -/
inductive WriterAt (F : Type) where
  | idle
  /-- `submit` loads the requested revision. -/
  | submitting (command : CaptureCommand F)
  /-- Loads the completed one. -/
  | comparing (command : CaptureCommand F) (previous : Nat)
  /-- Loads the completion. -/
  | checking (command : CaptureCommand F) (previous : Nat)
  /-- Stores the payload words still to go, then the revision. -/
  | writing (command : CaptureCommand F) (payload : Payload) (revision : Nat)
      (left : List ControlWord)
  | refusing (error : ControlError)
  /-- `completed_revision` loads the completed revision. -/
  | asking
  /-- Loads the completion. -/
  | asked (revision : Nat)
  /-- The completion was no outcome. -/
  | panicked

/-- Where the capture thread stands. -/
inductive ReaderAt (F : Type) where
  | idle
  /-- `pending` loads the requested revision. -/
  | looking
  /-- Loads the completed one. -/
  | comparing (revision : Nat)
  /-- Loads the kind. -/
  | choosing (revision : Nat)
  /-- Loads the deadline of an activation or an extension. -/
  | readingDeadline (revision : Nat) (activates : Bool)
  | readingX (revision : Nat)
  | readingY (revision xBits : Nat)
  /-- `pending` returned this command. -/
  | holding (revision : Nat) (command : CaptureCommand F)
  /-- `complete` stores the completion. -/
  | completing (revision : Nat) (completion : ControlCompletion)
  /-- Stores the completed revision. -/
  | publishing (revision : Nat) (completion : ControlCompletion)
  /-- The kind was none of a command. -/
  | panicked

inductive MailboxEvent (F : Type) where
  /-- A submit published its command. -/
  | accepted (revision : Nat) (command : CaptureCommand F)
  | refused (error : ControlError)
  /-- What `completed_revision` returned. -/
  | reported (result : Except ControlError Nat)
  /-- What `pending` returned. -/
  | observed (revision : Nat) (command : CaptureCommand F)
  | nothingPending
  /-- `complete` stored the outcome. -/
  | decided (revision : Nat) (completion : ControlCompletion)
  /-- `complete` stored the revision. -/
  | finished (revision : Nat) (completion : ControlCompletion)

structure Mailbox (F : Type) where
  requested : Nat
  completed : Nat
  completion : Nat
  words : Payload
  writer : WriterAt F
  reader : ReaderAt F
  log : List (MailboxEvent F)
  /-- The requested revision and the payload as the last submit found them. -/
  requestedAtCall : Nat
  wordsAtCall : Payload

namespace Mailbox

variable {F : Type}

/-- `control_channel`. -/
def new : Mailbox F where
  requested := 0
  completed := 0
  completion := ControlCompletion.applied.encoded
  words := .of 0 0 0 0
  writer := .idle
  reader := .idle
  log := []
  requestedAtCall := 0
  wordsAtCall := .of 0 0 0 0

def record (box : Mailbox F) (event : MailboxEvent F) : Mailbox F :=
  { box with log := box.log ++ [event] }

section
variable [Scalar F] [FloatBits F]

/-- One atomic step of the submitting thread. -/
def write (box : Mailbox F) : Option (Mailbox F) :=
  match box.writer with
  | .idle | .panicked => none
  | .submitting command => some { box with writer := .comparing command box.requested }
  | .comparing command previous =>
    some <|
      if box.completed ≠ previous then { box with writer := .refusing .pending }
      else { box with writer := .checking command previous }
  | .checking command previous =>
    some <|
      if ControlCompletion.fromEncoded box.completion = some .failed then
        { box with writer := .refusing .failed }
      else if previous = u64Max then { box with writer := .refusing .exhausted }
      else
        match command.encode with
        | .error error => { box with writer := .refusing error }
        | .ok payload => { box with writer := .writing command payload (previous + 1) ControlWord.ALL }
  | .writing command payload revision (word :: left) =>
    some { box with
      words := Function.update box.words word (payload word)
      writer := .writing command payload revision left }
  | .writing command _ revision [] =>
    some ({ box with requested := revision, writer := .idle }.record (.accepted revision command))
  | .refusing error => some ({ box with writer := .idle }.record (.refused error))
  | .asking => some { box with writer := .asked box.completed }
  | .asked revision =>
    some <|
      match ControlCompletion.fromEncoded box.completion with
      | some .applied => { box with writer := .idle }.record (.reported (.ok revision))
      | some .failed => { box with writer := .idle }.record (.reported (.error .failed))
      | none => { box with writer := .panicked }

/-- `pending` has the whole command. -/
def hold (box : Mailbox F) (revision : Nat) (command : CaptureCommand F) : Mailbox F :=
  { box with reader := .holding revision command }.record (.observed revision command)

/-- One atomic step of the capture thread. -/
def read (box : Mailbox F) : Option (Mailbox F) :=
  match box.reader with
  | .idle | .holding _ _ | .panicked => none
  | .looking => some { box with reader := .comparing box.requested }
  | .comparing revision =>
    some <|
      if revision = box.completed then { box with reader := .idle }.record .nothingPending
      else { box with reader := .choosing revision }
  | .choosing revision =>
    some <|
      match box.words .kind with
      | 1 => { box with reader := .readingDeadline revision true }
      | 2 => { box with reader := .readingDeadline revision false }
      | 3 => { box with reader := .readingX revision }
      | 4 => box.hold revision .toLocal
      | _ => { box with reader := .panicked }
  | .readingDeadline revision activates =>
    some <|
      box.hold revision <|
        if activates then .activateRemote (box.words .deadlineNs)
        else .remoteUntil (box.words .deadlineNs)
  | .readingX revision =>
    some { box with reader := .readingY revision (box.words .positionXBits) }
  | .readingY revision xBits =>
    some <|
      box.hold revision
        (.localAt ⟨FloatBits.fromBits xBits, FloatBits.fromBits (box.words .positionYBits)⟩)
  | .completing revision completion =>
    some <|
      { box with
        completion := completion.encoded
        reader := .publishing revision completion }.record (.decided revision completion)
  | .publishing revision completion =>
    some ({ box with completed := revision, reader := .idle }.record (.finished revision completion))

end
end Mailbox

/-! ## Runs -/

inductive MailboxLabel (F : Type) where
  | submit (command : CaptureCommand F)
  | completedRevision
  | write
  | pending
  /-- The capture thread completes the command it holds. -/
  | complete (completion : ControlCompletion)
  | read

/-- One step of either thread. -/
def Mailbox.next {F : Type} [Scalar F] [FloatBits F] (box : Mailbox F) :
    MailboxLabel F → Option (Mailbox F)
  | .submit command =>
    match box.writer with
    | .idle =>
      some { box with
        writer := .submitting command
        requestedAtCall := box.requested, wordsAtCall := box.words }
    | _ => none
  | .completedRevision =>
    match box.writer with
    | .idle => some { box with writer := .asking }
    | _ => none
  | .write => box.write
  | .pending =>
    match box.reader with
    -- a command that is held may be looked at again before it is completed
    | .idle | .holding _ _ => some { box with reader := .looking }
    | _ => none
  | .complete completion =>
    match box.reader with
    | .holding revision _ => some { box with reader := .completing revision completion }
    | _ => none
  | .read => box.read

def mailboxLts (F : Type) [Scalar F] [FloatBits F] : Lts (Mailbox F) (MailboxLabel F) :=
  .ofNext (· = .new) Mailbox.next

end Monhop.Core
