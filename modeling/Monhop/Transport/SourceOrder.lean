import Monhop.Transport.SourceAccounts

/-! # The order of what a controller sends

Input frames are numbered within epochs; an epoch opens with the request to activate a
display, carries input once the request was acknowledged and nothing after its `ReleaseAll`.
Heartbeats keep a sequence of their own in the base epoch.

* `Numbered` — the counters are ahead of every frame sent.
* `Staged` — input is sent only between an epoch's acknowledgement and its release, and no
  other input overtakes a waiting position.
* `outgoing_order` — both, over every run.
-/

namespace Monhop.Protocol

variable {F : Type}

/-- Earlier epoch, or earlier in the same epoch. -/
def Frame.Precedes (first second : Frame F) : Prop :=
  first.epoch.get < second.epoch.get ∨ first.epoch = second.epoch ∧ first.sequence < second.sequence

namespace Message

def isInput : Message F → Bool
  | .motion _ | .key _ | .button _ | .scroll _ | .gesture _ | .systemGesture _ => true
  | _ => false

/-- A position may not wait behind this message. -/
def overtakes : Message F → Bool
  | .key _ | .button _ | .scroll _ | .gesture _ | .systemGesture _ | .releaseAll => true
  | _ => false

end Message
end Monhop.Protocol

namespace Monhop.Transport

open Monhop.Core Protocol List
open Library (AtEach atEach_nil atEach_concat pairwise_concat)
variable {F : Type}

/-! ## What is sent -/

namespace SourceEvent

def sent? : SourceEvent F → Option (Frame F)
  | .asked (.remoteFrame frame) _ => some frame
  | _ => none

/-- A frame of an input epoch. -/
def input? (event : SourceEvent F) : Option (Frame F) :=
  event.sent?.filter fun frame => !frame.message.isHeartbeat

def heartbeat? (event : SourceEvent F) : Option (Frame F) :=
  event.sent?.filter fun frame => frame.message.isHeartbeat

end SourceEvent

variable (log : List (SourceEvent F))

def inputs : List (Frame F) := log.filterMap SourceEvent.input?

def heartbeats : List (Frame F) := log.filterMap SourceEvent.heartbeat?

/-- The epoch of the last input frame; the base epoch before the first. -/
def lastEpoch (base : SessionEpoch) (log : List (SourceEvent F)) : SessionEpoch :=
  ((inputs log).getLast?.map Frame.epoch).getD base

/-- A frame of a new epoch is the request that opens it, one epoch on. -/
def OpensAt (base : SessionEpoch) (before : List (SourceEvent F)) (event : SourceEvent F) : Prop :=
  ∀ frame, event.input? = some frame → frame.epoch ≠ lastEpoch base before →
    frame.epoch.get = (lastEpoch base before).get + 1 ∧ frame.sequence = 0 ∧
      ∃ display position translate, frame.message = .activateDisplayAt display position translate

/-- Nothing overtakes a waiting position. -/
def StillAt (_before : List (SourceEvent F)) : SourceEvent F → Prop
  | .asked (.remoteFrame frame) waiting => frame.message.overtakes = true → waiting = none
  | _ => True

/-- The epoch's request to activate a display went out. -/
def Requested (epoch : SessionEpoch) (display : DisplayId) : Prop :=
  ∃ event ∈ log, ∃ frame position translate, event.sent? = some frame ∧ frame.epoch = epoch ∧
    frame.message = .activateDisplayAt display position translate

/-- The epoch's request went out and was then acknowledged. -/
def Acknowledged (epoch : SessionEpoch) : Prop :=
  ∃ asked answered display frame, log = asked ++ answered ∧ Requested asked epoch display ∧
    .accepted frame ∈ answered ∧ frame.epoch = epoch ∧ frame.message = .activationAck display

def Released (epoch : SessionEpoch) : Prop :=
  ∃ event ∈ log, ∃ frame, event.sent? = some frame ∧ frame.epoch = epoch ∧
    frame.message = .releaseAll

/-- The epoch takes input. -/
def Open (epoch : SessionEpoch) : Prop :=
  Acknowledged log epoch ∧ ¬Released log epoch

def OpenAt (before : List (SourceEvent F)) (event : SourceEvent F) : Prop :=
  ∀ frame, event.sent? = some frame → frame.message.isInput = true → Open before frame.epoch

/-! ## Counters -/

structure Numbered (past : List (SourceEvent F)) (view : View F) : Prop where
  ordered : (inputs (view.log past)).Pairwise Frame.Precedes
  beating : (heartbeats (view.log past)).Pairwise fun first second =>
    first.sequence < second.sequence
  base : ∀ frame ∈ heartbeats (view.log past), frame.epoch = view.baseEpoch
  opens : AtEach (OpensAt view.baseEpoch) (view.log past)
  counted : view.Alive → ∀ frame ∈ inputs (view.log past),
    frame.epoch.get < view.inputEpoch.get ∨
      frame.epoch = view.inputEpoch ∧ frame.sequence < view.inputSequence
  beaten : view.Alive → ∀ frame ∈ heartbeats (view.log past),
    frame.sequence < view.controlSequence
  opened : view.Alive → lastEpoch view.baseEpoch (view.log past) = view.inputEpoch

variable {base : SessionEpoch}

section
variable {past : List (SourceEvent F)} {view later : View F}

theorem inputs_append (front back : List (SourceEvent F)) :
    inputs (front ++ back) = inputs front ++ inputs back := filterMap_append

theorem heartbeats_append (front back : List (SourceEvent F)) :
    heartbeats (front ++ back) = heartbeats front ++ heartbeats back := filterMap_append

variable {display : DisplayId} {frame : Frame F} {events front back : List (SourceEvent F)}
  {epoch : SessionEpoch} {event : SourceEvent F} {drifted : View F}

theorem inputs_silent (silent : ∀ event ∈ events, event.sent? = none) :
    inputs events = [] ∧ heartbeats events = [] := by
  rw [inputs, heartbeats, filterMap_eq_nil_iff, filterMap_eq_nil_iff]
  constructor <;> intro event member
  · rw [SourceEvent.input?, silent event member]
    rfl
  · rw [SourceEvent.heartbeat?, silent event member]
    rfl

theorem lastEpoch_of_inputs_nil (none : inputs back = []) :
    lastEpoch base (front ++ back) = lastEpoch base front := by
  rw [lastEpoch, inputs_append, none, append_nil]
  rfl

theorem lastEpoch_of_input (input : event.input? = some frame) :
    lastEpoch base (front ++ [event]) = frame.epoch := by
  have last : inputs [event] = [frame] := by simp [inputs, input]
  simp [lastEpoch, inputs_append, last]

theorem Numbered.silent (numbered : Numbered past view)
    (adds : view.Adds later fun event => event.sent? = none)
    (base : later.baseEpoch = view.baseEpoch)
    (same : later.Alive → view.Alive ∧ later.inputEpoch = view.inputEpoch ∧
      later.inputSequence = view.inputSequence ∧ later.controlSequence = view.controlSequence) :
    Numbered past later := by
  obtain ⟨events, trace, silent⟩ := adds
  obtain ⟨noInputs, noBeats⟩ := inputs_silent silent
  have sent : inputs (later.log past) = inputs (view.log past) := by
    rw [log_append trace, inputs_append, noInputs, append_nil]
  have beats : heartbeats (later.log past) = heartbeats (view.log past) := by
    rw [log_append trace, heartbeats_append, noBeats, append_nil]
  constructor
  · exact sent ▸ numbered.ordered
  · exact beats ▸ numbered.beating
  · rw [beats, base]
    exact numbered.base
  · rw [log_append trace, base]
    refine numbered.opens.append fun event member before frame input => ?_
    rw [SourceEvent.input?, silent event member] at input
    cases input
  · intro alive
    obtain ⟨alive, epoch, sequence, -⟩ := same alive
    rw [sent, epoch, sequence]
    exact numbered.counted alive
  · intro alive
    obtain ⟨alive, -, -, control⟩ := same alive
    rw [beats, control]
    exact numbered.beaten alive
  · intro alive
    obtain ⟨alive, epoch, -⟩ := same alive
    rw [log_append trace, lastEpoch_of_inputs_nil noInputs, base, epoch]
    exact numbered.opened alive

theorem inputs_of_input (input : event.input? = some frame) :
    inputs [event] = [frame] ∧ heartbeats [event] = [] := by
  obtain ⟨sent, other⟩ := Option.filter_eq_some_iff.mp input
  simp only [Bool.not_eq_true'] at other
  constructor
  · simp [inputs, input]
  · simp [heartbeats, SourceEvent.heartbeat?, sent, other]

theorem heartbeats_of_heartbeat (heartbeat : event.heartbeat? = some frame) :
    inputs [event] = [] ∧ heartbeats [event] = [frame] := by
  obtain ⟨sent, beats⟩ := Option.filter_eq_some_iff.mp heartbeat
  constructor
  · simp [inputs, SourceEvent.input?, sent, beats]
  · simp [heartbeats, heartbeat]

/-- An input frame goes out: the next of the present epoch, or the request that opens the next
epoch. -/
theorem Numbered.sends (numbered : Numbered past view) (alive : view.Alive)
    (trace : later.trace = view.trace ++ [event]) (input : event.input? = some frame)
    (numbers : frame.epoch = view.inputEpoch ∧ frame.sequence = view.inputSequence ∨
      frame.epoch.get = view.inputEpoch.get + 1 ∧ frame.sequence = 0 ∧
        ∃ display position translate, frame.message = .activateDisplayAt display position translate)
    (base : later.baseEpoch = view.baseEpoch) (same : later.Alive → later.inputEpoch = frame.epoch ∧
      later.inputSequence = frame.sequence + 1 ∧ later.controlSequence = view.controlSequence) :
    Numbered past later := by
  obtain ⟨sends, quiet⟩ := inputs_of_input input
  have sent : inputs (later.log past) = inputs (view.log past) ++ [frame] := by
    rw [log_append trace, inputs_append, sends]
  have beats : heartbeats (later.log past) = heartbeats (view.log past) := by
    rw [log_append trace, heartbeats_append, quiet, append_nil]
  have newest : ∀ earlier ∈ inputs (view.log past), earlier.Precedes frame := by
    intro earlier member
    rcases numbered.counted alive earlier member with older | ⟨same, below⟩ <;>
      rcases numbers with ⟨epoch, sequence⟩ | ⟨next, -⟩
    · exact .inl (epoch ▸ older)
    · exact .inl (by omega)
    · exact .inr ⟨same.trans epoch.symm, sequence ▸ below⟩
    · exact .inl (by rw [same]; omega)
  constructor
  · exact sent ▸ pairwise_concat.mpr ⟨numbered.ordered, newest⟩
  · exact beats ▸ numbered.beating
  · rw [beats, base]
    exact numbered.base
  · rw [log_append trace, base, atEach_concat]
    refine ⟨numbered.opens, fun other isInput fresh => ?_⟩
    rw [input] at isInput
    cases isInput
    rw [numbered.opened alive] at fresh ⊢
    rcases numbers with ⟨epoch, -⟩ | opening
    · exact absurd epoch fresh
    · exact opening
  · intro stays
    obtain ⟨epoch, sequence, -⟩ := same stays
    rw [sent, epoch, sequence]
    refine forall_mem_append.mpr ⟨fun earlier member => ?_,
      forall_mem_singleton.mpr (.inr ⟨rfl, Nat.lt_succ_self _⟩)⟩
    exact (newest earlier member).imp_right fun ⟨sameEpoch, below⟩ => ⟨sameEpoch, by omega⟩
  · intro stays
    rw [beats, (same stays).2.2]
    exact numbered.beaten alive
  · intro stays
    rw [log_append trace, lastEpoch_of_input input, (same stays).1]

theorem Numbered.holdBarrier (numbered : Numbered past view) (alive : view.Alive) :
    Numbered past view.holdBarrier :=
  numbered.sends alive rfl rfl (.inl ⟨rfl, rfl⟩) rfl fun _ => ⟨rfl, rfl, rfl⟩

theorem Numbered.beats (numbered : Numbered past view) (alive : view.Alive)
    (trace : later.trace = view.trace ++ [event]) (heartbeat : event.heartbeat? = some frame)
    (ofBase : frame.epoch = view.baseEpoch) (next : frame.sequence = view.controlSequence)
    (base : later.baseEpoch = view.baseEpoch) (epoch : later.inputEpoch = view.inputEpoch)
    (sequence : later.inputSequence = view.inputSequence)
    (control : later.controlSequence = view.controlSequence + 1) : Numbered past later := by
  obtain ⟨quiet, beat⟩ := heartbeats_of_heartbeat heartbeat
  have sent : inputs (later.log past) = inputs (view.log past) := by
    rw [log_append trace, inputs_append, quiet, append_nil]
  have beats : heartbeats (later.log past) = heartbeats (view.log past) ++ [frame] := by
    rw [log_append trace, heartbeats_append, beat]
  constructor
  · exact sent ▸ numbered.ordered
  · rw [beats, pairwise_concat, next]
    exact ⟨numbered.beating, numbered.beaten alive⟩
  · rw [beats, base]
    exact forall_mem_append.mpr ⟨numbered.base, forall_mem_singleton.mpr ofBase⟩
  · rw [log_append trace, base, atEach_concat]
    refine ⟨numbered.opens, fun other isInput => ?_⟩
    have member : other ∈ inputs [event] :=
      mem_filterMap.mpr ⟨event, mem_singleton_self _, isInput⟩
    rw [quiet] at member
    cases member
  · intro _
    rw [sent, epoch, sequence]
    exact numbered.counted alive
  · intro _
    rw [beats, control]
    refine forall_mem_append.mpr ⟨fun other member => ?_, forall_mem_singleton.mpr ?_⟩
    · exact (numbered.beaten alive other member).trans (Nat.lt_succ_self _)
    · exact next ▸ Nat.lt_succ_self _
  · intro _
    rw [log_append trace, lastEpoch_of_inputs_nil quiet, base, epoch]
    exact numbered.opened alive

/-- A failing call sends at most a release, with the number that was next. -/
theorem Numbered.fails (numbered : Numbered past view) (alive : view.Alive)
    (drift : view.Drift drifted) (reason : SourceFailure) (display : DisplayId) (position : Point F) :
    Numbered past (drifted.fail reason display position) := by
  obtain ⟨frames, taken⟩ := drift.trace
  obtain ⟨released, restored, trace, releases, restores⟩ :=
    drifted.fail_trace
  have base : (drifted.fail reason display position).baseEpoch = view.baseEpoch :=
    (View.fail_rest).2.1.trans drift.baseEpoch
  have failed : (drifted.fail reason display position).failure ≠ none := by
    rw [View.fail_failure]
    nofun
  have unsent : ∀ event ∈ restored, event.sent? = none := by
    rcases restores with rfl | ⟨request, rfl⟩ <;> simp [SourceEvent.sent?]
  -- the frames taken, then the release, then the restore
  have arrived : Numbered past { view with trace := drifted.trace } := by
    refine numbered.silent ⟨_, taken, fun event member => ?_⟩ rfl
      fun alive => ⟨alive, rfl, rfl, rfl⟩
    obtain ⟨frame, -, rfl⟩ := mem_map.mp member
    rfl
  rcases releases with rfl | ⟨room, rfl⟩
  · rw [append_nil] at trace
    exact arrived.silent ⟨restored, trace, unsent⟩ base fun alive => absurd alive failed
  have sequence : drifted.inputSequence = view.inputSequence := by
    rcases drift.inputSequence with same | full
    · exact same
    · rw [Turn.drift_hasRoom drift, full] at room
      cases room
  have sent : Numbered past
      { view with failure := some reason, trace := drifted.trace ++ [drifted.lastRelease] } :=
    arrived.sends alive rfl rfl (.inl ⟨drift.inputEpoch, sequence⟩) rfl nofun
  exact sent.silent ⟨restored, trace, unsent⟩ base fun alive => absurd alive failed

variable {call : SourceCall F}

theorem Numbered.move (move : Move call view later)
    (numbered : Numbered past view) : Numbered past later := by
  cases move with
  | arrive =>
    unfold View.arrive
    split
    · exact numbered
    · exact numbered.silent (.none rfl) rfl fun alive => ⟨alive, rfl, rfl, rfl⟩
  | takeBack | handover | credit | creditHeld | reach | key | button | offer | seed | foreign | lose
  | routeRemote | markHandover | land | declined | forget | arriveHome | bindRemote | bindLocal =>
    exact numbered.silent (.none rfl) rfl fun alive => ⟨alive, rfl, rfl, rfl⟩
  | acceptHeartbeat | accept | barrierAck | resume | claim | takeOver | sending | returning | free
  | handOn | enter =>
    exact numbered.silent (.one rfl rfl) rfl fun alive => ⟨alive, rfl, rfl, rfl⟩
  | released frame display position =>
    split
    · exact numbered.silent (.two rfl ⟨rfl, rfl⟩) rfl fun alive => ⟨alive, rfl, rfl, rfl⟩
    · exact numbered.silent (.one rfl rfl) rfl fun alive => ⟨alive, rfl, rfl, rfl⟩
  | ping alive | pong token alive => exact numbered.beats alive rfl rfl rfl rfl rfl rfl rfl rfl
  | motion | press | again | release | pressButton | releaseButton | catchPress | catchRelease
  | catchPressButton | catchReleaseButton | comeBack | declinedHop | resend =>
    exact numbered.sends (by assumption) rfl rfl (.inl ⟨rfl, rfl⟩) rfl fun _ => ⟨rfl, rfl, rfl⟩
  | forward message alive away still plain =>
    rcases plain with ⟨_, rfl⟩ | ⟨_, rfl⟩ | ⟨_, rfl⟩ <;>
      exact numbered.sends alive rfl rfl (.inl ⟨rfl, rfl⟩) rfl fun _ => ⟨rfl, rfl, rfl⟩
  | ask display position translate crossing epoch next alive =>
    exact numbered.sends alive rfl rfl (.inr ⟨next, rfl, display, position, translate, rfl⟩) rfl
      fun _ => ⟨rfl, rfl, rfl⟩
  | hold now display position alive =>
    have sent := numbered.holdBarrier alive
    unfold View.retreat
    split
    · exact sent.silent (.one rfl rfl) rfl fun alive => ⟨alive, rfl, rfl, rfl⟩
    · split
      · exact sent.silent (.two rfl ⟨rfl, rfl⟩) rfl fun alive => ⟨alive, rfl, rfl, rfl⟩
      · exact sent.silent (.one rfl rfl) rfl fun alive => ⟨alive, rfl, rfl, rfl⟩
  | fail drifted reason display position alive drift =>
    exact numbered.fails alive drift reason display position
  | holdFail drifted reason display position alive free still drift =>
    exact (numbered.holdBarrier alive).fails alive drift reason display position
  | overflow left alive full failure trace inputEpoch baseEpoch =>
    exact numbered.silent (.none trace) baseEpoch fun alive => by cases failure.symm.trans alive
  | latch => exact numbered.silent (.none rfl) rfl nofun
  | afterFail left failed stays =>
    refine numbered.silent (.none stays.trace) stays.baseEpoch fun alive => ?_
    rw [← stays.failure, alive] at failed
    cases failed

/-! ## Epochs -/

theorem Requested.append (requested : Requested front epoch display) :
    Requested (front ++ back) epoch display := by
  obtain ⟨event, member, rest⟩ := requested
  exact ⟨event, mem_append_left _ member, rest⟩

theorem Acknowledged.append (acknowledged : Acknowledged front epoch) :
    Acknowledged (front ++ back) epoch := by
  obtain ⟨asked, answered, display, frame, split, requested, taken, answers⟩ := acknowledged
  refine ⟨asked, answered ++ back, display, frame, ?_, requested, mem_append_left _ taken, answers⟩
  rw [split, append_assoc]

theorem Released.of_append (released : Released (front ++ back) epoch) :
    Released front epoch ∨ Released back epoch := by
  obtain ⟨event, member, rest⟩ := released
  rcases mem_append.mp member with member | member
  · exact .inl ⟨event, member, rest⟩
  · exact .inr ⟨event, member, rest⟩

/-- An acknowledgement answers a request that went out before it. -/
def AnswersAt (before : List (SourceEvent F)) : SourceEvent F → Prop
  | .accepted frame => ∀ display, frame.message = .activationAck display →
    Requested before frame.epoch display
  | _ => True

theorem acknowledged_of_accepted {log : List (SourceEvent F)} (answers : AtEach AnswersAt log)
    (taken : .accepted frame ∈ log) (isAck : frame.message = .activationAck display) :
    Acknowledged log frame.epoch := by
  obtain ⟨before, after, split⟩ := append_of_mem taken
  exact ⟨before, .accepted frame :: after, display, frame, split,
    answers before _ after split display isAck, mem_cons_self, rfl, isAck⟩

/-- Where the present epoch stands. -/
structure Staged (past : List (SourceEvent F)) (view : View F) : Prop where
  still : AtEach StillAt (view.log past)
  inside : AtEach OpenAt (view.log past)
  answers : view.Alive → AtEach AnswersAt (view.log past)
  asking : view.Alive → ∀ display crossing handedOver,
    view.phase = .asking display crossing handedOver →
      Requested (view.log past) view.inputEpoch display ∧ ¬Released (view.log past) view.inputEpoch
  entering : view.Alive → ∀ request ticket, view.phase = .entering request ticket →
    Open (view.log past) view.inputEpoch
  away : view.Alive → view.phase = .away → Open (view.log past) view.inputEpoch
  waits : view.Alive → view.waiting.isSome = true → Open (view.log past) view.inputEpoch

/-- The phases in which the present epoch may still take input. -/
def Phase.isOpen : Phase → Bool
  | .asking _ _ _ | .entering _ _ | .away => true
  | _ => false

/-- Held input is brought to the peer only in an epoch that takes it. -/
theorem Staged.open_of_answered (staged : Staged past view) (alive : view.Alive)
    {crossing handedOver : Bool} (phase : view.phase = .asking display crossing handedOver)
    (answered : view.Answered display) : Open (view.log past) view.inputEpoch := by
  obtain ⟨frame, taken, isAck, epoch⟩ := answered
  refine ⟨?_, (staged.asking alive _ _ _ phase).2⟩
  rw [← epoch]
  exact acknowledged_of_accepted (staged.answers alive) (mem_append_right _ taken) isAck

theorem Staged.open_of_landing (staged : Staged past view) (alive : view.Alive)
    (landing : view.Landing) : Open (view.log past) view.inputEpoch := by
  rcases landing with ⟨request, ticket, phase⟩ | ⟨display, handedOver, phase, answered⟩
  · exact staged.entering alive request ticket phase
  · exact staged.open_of_answered alive phase answered

theorem Open.append (isOpen : Open front epoch) (kept : ¬Released back epoch) :
    Open (front ++ back) epoch :=
  ⟨isOpen.1.append, fun released => released.of_append.elim isOpen.2 kept⟩

/-- A move after which the present epoch stands where it stood, or takes no more input. -/
theorem Staged.stays (staged : Staged past view) (events : List (SourceEvent F))
    (trace : later.trace = view.trace ++ events)
    (still : ∀ event ∈ events, ∀ before, StillAt before event)
    (inside : AtEach OpenAt (view.log past ++ events))
    (answers : view.Alive → AtEach AnswersAt (view.log past ++ events))
    (same : later.Alive → view.Alive ∧ later.inputEpoch = view.inputEpoch ∧
      (later.phase = view.phase ∧ ¬Released events view.inputEpoch ∨ later.phase.isOpen = false) ∧
      (later.waiting = none ∨ ¬Released events view.inputEpoch ∧
        (later.waiting.isSome = true → view.waiting.isSome = true))) : Staged past later := by
  have log : later.log past = view.log past ++ _ := log_append trace
  have closed : ∀ {Goal : Prop}, later.phase.isOpen = false → later.phase.isOpen = true → Goal := by
    intro Goal shut opens
    rw [shut] at opens
    cases opens
  constructor
  · rw [log]
    exact staged.still.append still
  · rwa [log]
  · intro alive
    rw [log]
    exact answers (same alive).1
  · intro alive display crossing handedOver phase
    obtain ⟨alive, epoch, ⟨samePhase, kept⟩ | shut, -⟩ := same alive
    · obtain ⟨requested, unreleased⟩ :=
        staged.asking alive display crossing handedOver (samePhase ▸ phase)
      rw [log, epoch]
      exact ⟨requested.append, fun released => released.of_append.elim unreleased kept⟩
    · exact closed shut (by rw [phase]; rfl)
  · intro alive request ticket phase
    obtain ⟨alive, epoch, ⟨samePhase, kept⟩ | shut, -⟩ := same alive
    · rw [log, epoch]
      exact (staged.entering alive request ticket (samePhase ▸ phase)).append kept
    · exact closed shut (by rw [phase]; rfl)
  · intro alive phase
    obtain ⟨alive, epoch, ⟨samePhase, kept⟩ | shut, -⟩ := same alive
    · rw [log, epoch]
      exact (staged.away alive (samePhase ▸ phase)).append kept
    · exact closed shut (by rw [phase]; rfl)
  · intro alive waits
    obtain ⟨alive, epoch, -, still | ⟨kept, waited⟩⟩ := same alive
    · rw [still] at waits
      cases waits
    · rw [log, epoch]
      exact (staged.waits alive (waited waits)).append kept

theorem not_released_of_unsent (unsent : ∀ event ∈ events, event.sent? = none) :
    ¬Released events epoch := by
  rintro ⟨event, member, frame, sent, -⟩
  rw [unsent event member] at sent
  cases sent

/-- Nothing is sent and no request acknowledged. -/
def SourceEvent.IsSilent (event : SourceEvent F) : Prop :=
  event.sent? = none ∧ ∀ before, AnswersAt before event

theorem SourceEvent.IsSilent.stillAt {before : List (SourceEvent F)} (silent : event.IsSilent) :
    StillAt before event := by
  unfold StillAt
  split
  · cases silent.1
  · exact trivial

theorem SourceEvent.IsSilent.openAt {before : List (SourceEvent F)} (silent : event.IsSilent) :
    OpenAt before event := by
  intro frame sent
  rw [silent.1] at sent
  cases sent

theorem isSilent_accepted (other : ∀ display, frame.message ≠ .activationAck display) :
    SourceEvent.IsSilent (.accepted frame) :=
  ⟨rfl, fun _ display isAck => absurd isAck (other display)⟩

section
variable (staged : Staged past view)
include staged

theorem Staged.silent (adds : view.Adds later SourceEvent.IsSilent)
    (same : later.Alive → view.Alive ∧ later.inputEpoch = view.inputEpoch ∧
      (later.phase = view.phase ∨ later.phase.isOpen = false) ∧
      (later.waiting.isSome = true → view.waiting.isSome = true)) : Staged past later := by
  obtain ⟨events, trace, silent⟩ := adds
  refine staged.stays events trace (fun event member _ => (silent event member).stillAt)
    (staged.inside.append fun event member _ => (silent event member).openAt)
    (fun alive => (staged.answers alive).append fun event member => (silent event member).2)
    fun alive => ?_
  obtain ⟨alive, epoch, phase, waits⟩ := same alive
  have kept : ¬Released _ view.inputEpoch :=
    not_released_of_unsent fun event member => (silent event member).1
  exact ⟨alive, epoch, phase.imp_left fun phase => ⟨phase, kept⟩, .inr ⟨kept, waits⟩⟩

theorem Staged.sends (alive : view.Alive) {waiting : Option (Point F)}
    (trace : later.trace = view.trace ++ [.asked (.remoteFrame frame) waiting])
    (still : frame.message.overtakes = true → waiting = none)
    (opens : frame.message.isInput = true → Open (view.log past) frame.epoch)
    (epoch : later.inputEpoch = view.inputEpoch)
    (stage : later.phase = view.phase ∧ frame.message ≠ .releaseAll ∧
        (later.waiting.isSome = true → view.waiting.isSome = true) ∨
      later.phase.isOpen = false ∧ later.waiting = none) :
    Staged past later := by
  refine staged.stays _ trace (forall_mem_singleton.mpr fun _ => still) ?_ (fun alive => ?_)
    fun _ => ⟨alive, epoch, ?_⟩
  · refine atEach_concat.mpr ⟨staged.inside, fun other sent => ?_⟩
    cases sent
    exact opens
  · exact atEach_concat.mpr ⟨staged.answers alive, trivial⟩
  rcases stage with ⟨phase, other, waits⟩ | ⟨shut, still⟩
  · have kept : ¬Released [SourceEvent.asked (.remoteFrame frame) waiting] view.inputEpoch := by
      rintro ⟨event, member, sent, isSent, -, isRelease⟩
      rw [mem_singleton.mp member] at isSent
      cases isSent
      exact other isRelease
    exact ⟨.inl ⟨phase, kept⟩, .inr ⟨kept, waits⟩⟩
  · exact ⟨.inr shut, .inl still⟩

omit staged in
theorem SourceEvent.IsLast.calm (last : event.IsLast) (before : List (SourceEvent F)) :
    StillAt before event ∧ OpenAt before event := by
  match event, last with
  | .accepted _, _ | .asked (.restoreLocalAt _ _ _) _, _ => exact ⟨trivial, nofun⟩
  | .asked (.remoteFrame frame) waiting, ⟨isRelease, still⟩ =>
    refine ⟨fun _ => still, fun other sent isInput => ?_⟩
    cases sent
    rw [isRelease] at isInput
    cases isInput

/-- A failing call asks for nothing an open epoch or a waiting position could mind. -/
theorem Staged.stopped
    (move : Move call view later) (failed : later.failure ≠ none) : Staged past later := by
  obtain ⟨events, trace, last⟩ := move.ended failed
  have log : later.log past = view.log past ++ events := log_append trace
  have never {Goal : Prop} (alive : later.Alive) : Goal := absurd alive failed
  refine ⟨?_, ?_, never, never, never, never, never⟩ <;> rw [log]
  · exact staged.still.append fun event member before => ((last event member).calm before).1
  · exact staged.inside.append fun event member before => ((last event member).calm before).2

theorem Staged.enters (adds : view.Adds later SourceEvent.IsSilent)
    (alive : view.Alive) (isOpen : Open (view.log past) view.inputEpoch)
    (epoch : later.inputEpoch = view.inputEpoch)
    (phase : ∀ display crossing handedOver, later.phase ≠ .asking display crossing handedOver) :
    Staged past later := by
  obtain ⟨events, trace, silent⟩ := adds
  have log : later.log past = view.log past ++ events := log_append trace
  have stays : Open (later.log past) later.inputEpoch := by
    rw [log, epoch]
    exact isOpen.append (not_released_of_unsent fun event member => (silent event member).1)
  constructor
  · rw [log]
    exact staged.still.append fun event member _ => (silent event member).stillAt
  · rw [log]
    exact staged.inside.append fun event member _ => (silent event member).openAt
  · intro _
    rw [log]
    exact (staged.answers alive).append fun event member => (silent event member).2
  · exact fun _ display crossing handedOver isAsking =>
      absurd isAsking (phase display crossing handedOver)
  · exact fun _ _ _ _ => stays
  · exact fun _ _ => stays
  · exact fun _ _ => stays

/-- A request opens an epoch no frame belongs to yet. -/
theorem Staged.requests (numbered : Numbered past view)
    (alive : view.Alive) {position : Point F} {translate crossing : Bool}
    (next : epoch.get = view.inputEpoch.get + 1) (still : view.waiting = none) :
    Staged past ((view.opening display crossing epoch).sendInput
      (.activateDisplayAt display position translate)) := by
  let event : SourceEvent F := .asked
    (.remoteFrame (.new epoch 0 (.activateDisplayAt display position translate))) view.waiting
  have log : ((view.opening display crossing epoch).sendInput
      (.activateDisplayAt display position translate)).log past = view.log past ++ [event] :=
    log_append rfl
  have fresh : ¬Released (view.log past ++ [event]) epoch := by
    intro released
    rcases released.of_append with ⟨other, member, frame, sent, isEpoch, isRelease⟩ | released
    · have isInput : frame ∈ inputs (view.log past) := by
        refine mem_filterMap.mpr ⟨other, member, ?_⟩
        rw [SourceEvent.input?, sent, Option.filter_some, isRelease]
        rfl
      rcases numbered.counted alive frame isInput with older | ⟨same, -⟩
      · rw [isEpoch] at older
        omega
      · rw [← same, isEpoch] at next
        omega
    · obtain ⟨other, member, frame, sent, -, isRelease⟩ := released
      rw [mem_singleton.mp member] at sent
      cases sent
      cases isRelease
  constructor
  · rw [log]
    exact staged.still.append (forall_mem_singleton.mpr nofun)
  · rw [log]
    refine staged.inside.append (forall_mem_singleton.mpr fun _ frame sent isInput => ?_)
    cases sent
    cases isInput
  · intro _
    rw [log]
    exact (staged.answers alive).append (forall_mem_singleton.mpr fun _ => trivial)
  · rintro - _ _ _ ⟨⟩
    rw [log]
    exact ⟨⟨event, by simp, _, position, translate, rfl, rfl, rfl⟩, fresh⟩
  · nofun
  · nofun
  · intro _ waits
    have waited : view.waiting.isSome = true := waits
    rw [still] at waited
    cases waited

theorem Staged.accepts (alive : view.Alive)
    (admitted : frame.message = .takeBack ∧ view.AdmitsTakeBack frame ∨
      view.InOrder frame ∧ view.AnsweredBy frame) :
    Staged past (view.accept frame) := by
  have kept : ¬Released [SourceEvent.accepted frame] view.inputEpoch :=
    not_released_of_unsent (forall_mem_singleton.mpr rfl)
  refine staged.stays [.accepted frame] rfl (forall_mem_singleton.mpr fun _ => trivial)
    (staged.inside.append (forall_mem_singleton.mpr nofun)) (fun _ => ?_)
    fun _ => ⟨alive, rfl, .inl ⟨rfl, kept⟩, .inr ⟨kept, id⟩⟩
  refine atEach_concat.mpr ⟨staged.answers alive, fun display isAck => ?_⟩
  rcases admitted with ⟨isTakeBack, -⟩ | ⟨inOrder, asked, crossing, handedOver, phase, answer⟩
  · rw [isAck] at isTakeBack
    cases isTakeBack
  rw [inOrder.1]
  rcases answer with same | ⟨reason, declines⟩
  · rw [isAck] at same
    cases same
    exact (staged.asking alive _ _ _ phase).1
  · rw [isAck] at declines
    cases declines

omit staged in
theorem Phase.isOpen_of_isRetreated {phase : Phase} (retreated : phase.isRetreated = true) :
    phase.isOpen = false := by
  cases phase <;> first | rfl | cases retreated

theorem Staged.holds (alive : view.Alive)
    (still : view.waiting = none) (now : Duration) (display : DisplayId) (position : Point F) :
    Staged past (view.retreat now display position) := by
  obtain ⟨events, trace, restores, retreated, -, -, -, -, -, -, epoch, -⟩ :=
    view.retreat_spec
  have silent : ∀ event ∈ events ++ [.held now], event.IsSilent := by
    rcases restores with rfl | ⟨request, rfl⟩ <;>
      simp [SourceEvent.IsSilent, SourceEvent.sent?, AnswersAt]
  have sent : Staged past
      { view with phase := (view.retreat now display position).phase
                  trace := view.trace ++ [view.barrier] } :=
    staged.sends alive rfl (fun _ => still) nofun rfl
      (.inr ⟨Phase.isOpen_of_isRetreated retreated, still⟩)
  refine sent.silent ⟨events ++ [.held now], ?_, silent⟩ fun _ => ⟨alive, epoch, .inl rfl, ?_⟩
  · rw [trace, append_assoc]
    rfl
  · unfold View.retreat
    repeat' split
    all_goals exact id

end

theorem Staged.move (move : Move call view later)
    (balanced : Balanced past view) (numbered : Numbered past view) (staged : Staged past view) :
    Staged past later := by
  by_cases stopped : later.failure ≠ none
  · exact staged.stopped move stopped
  cases move with
  | arrive =>
    unfold View.arrive
    split
    · exact staged
    · exact staged.silent (.none rfl) fun alive => ⟨alive, rfl, .inl rfl, id⟩
  | takeBack | handover | credit | creditHeld | reach | key | button | seed | foreign | lose
  | routeRemote | forget =>
    exact staged.silent (.none rfl) fun alive => ⟨alive, rfl, .inl rfl, id⟩
  | resume | claim | takeOver | sending | returning | free =>
    exact staged.silent (.one rfl ⟨rfl, fun _ => trivial⟩) fun alive => ⟨alive, rfl, .inl rfl, id⟩
  | ping alive | pong token alive =>
    exact staged.sends alive rfl nofun nofun rfl (.inl ⟨rfl, nofun, id⟩)
  | motion position alive waits =>
    have isOpen := staged.waits alive (by rw [waits]; rfl)
    exact staged.sends alive rfl nofun (fun _ => isOpen) rfl (.inl ⟨rfl, nofun, nofun⟩)
  | press usage modifiers alive away still | again usage modifiers alive away still
  | release usage modifiers alive away still | pressButton button stamp clicks alive away still
  | releaseButton button stamp alive away still =>
    exact staged.sends alive rfl (fun _ => still) (fun _ => staged.away alive away) rfl
      (.inl ⟨rfl, nofun, id⟩)
  | acceptHeartbeat frame alive brought heartbeat =>
    refine staged.silent (.one rfl (isSilent_accepted fun display isAck => ?_))
      fun alive => ⟨alive, rfl, .inl rfl, id⟩
    rw [isAck] at heartbeat
    cases heartbeat
  | accept frame alive brought other quiet admitted => exact staged.accepts alive admitted
  | barrierAck frame alive brought isReleaseAck =>
    exact staged.silent (.one rfl (isSilent_accepted (by simp [isReleaseAck])))
      fun alive => ⟨alive, rfl, .inl rfl, id⟩
  | offer position alive forwards =>
    have isOpen : Open (view.log past) view.inputEpoch :=
      forwards.elim (staged.away alive) (staged.open_of_landing alive)
    exact ⟨staged.still, staged.inside, staged.answers, staged.asking, staged.entering, staged.away,
      fun _ _ => isOpen⟩
  | forward message alive away still plain =>
    have isOpen := staged.away alive away
    refine staged.sends alive rfl (fun _ => still) (fun _ => isOpen) rfl (.inl ⟨rfl, ?_, id⟩)
    rcases plain with ⟨_, rfl⟩ | ⟨_, rfl⟩ | ⟨_, rfl⟩ <;> nofun
  | catchPress index alive landing still | catchPressButton button alive landing still =>
    exact staged.sends alive rfl (fun _ => still) (fun _ => staged.open_of_landing alive landing) rfl
      (.inl ⟨rfl, nofun, id⟩)
  | catchRelease index display alive hopping still
  | catchReleaseButton button display alive hopping still =>
    have isOpen := staged.open_of_answered alive hopping.phase hopping.answered
    exact staged.sends alive rfl (fun _ => still) (fun _ => isOpen) rfl (.inl ⟨rfl, nofun, id⟩)
  | ask display position translate crossing epoch next alive still leaves =>
    exact staged.requests numbered alive next still
  | markHandover display handover now brought asked =>
    refine ⟨staged.still, staged.inside, staged.answers, ?_, nofun, nofun, staged.waits⟩
    rintro alive _ _ _ ⟨⟩
    exact staged.asking alive display false false asked
  | enter display handedOver alive asked answered =>
    exact staged.enters (.one rfl ⟨rfl, fun _ => trivial⟩) alive
      (staged.open_of_answered alive asked answered) rfl nofun
  | land alive landing =>
    exact staged.enters (.none rfl) alive (staged.open_of_landing alive landing) rfl nofun
  | bindRemote request ticket now alive brought entering =>
    exact staged.enters (.none rfl) alive (staged.entering alive request none entering) rfl nofun
  | comeBack onward alive away still | declinedHop display handedOver alive asked declined still =>
    exact staged.sends alive rfl (fun _ => still) nofun rfl (.inr ⟨rfl, still⟩)
  | resend alive held settled still =>
    have shut := Phase.isOpen_of_isRetreated (balanced.retreated alive held)
    exact staged.sends alive rfl (fun _ => still) nofun rfl (.inr ⟨shut, still⟩)
  | declined | arriveHome | bindLocal =>
    exact staged.silent (.none rfl) fun alive => ⟨alive, rfl, .inr rfl, id⟩
  | released frame display position alive free releasing brought isReleaseAck =>
    have silent : SourceEvent.IsSilent (.accepted frame) :=
      isSilent_accepted (by simp [isReleaseAck])
    split
    · exact staged.silent (.two rfl ⟨silent, rfl, fun _ => trivial⟩)
        fun alive => ⟨alive, rfl, .inr rfl, id⟩
    · exact staged.silent (.one rfl silent) fun alive => ⟨alive, rfl, .inr rfl, id⟩
  | handOn frame passed claim alive free releasing brought isReleaseAck =>
    exact staged.silent (.one rfl (isSilent_accepted (by simp [isReleaseAck])))
      fun alive => ⟨alive, rfl, .inr rfl, id⟩
  | hold now display position alive free still => exact staged.holds alive still now display position
  | fail | holdFail | overflow | latch => simp_all [View.fail_failure]
  | afterFail left failed stays => simp_all [stays.failure]

end

/-! ## Over a run -/

variable [Scalar F]

theorem reachable_ordered {run : SourceRun F} (reachable : (sourceLts F).Reachable run) :
    Balanced run.log run.view ∧ Numbered run.log run.view ∧ Staged run.log run.view := by
  refine reachable_keeps (fun past view => Balanced past view ∧ Numbered past view ∧ Staged past view)
    ?_ ?_ ?_ reachable
  · intro source floor start
    refine ⟨balanced_atStart floor start, ?_, ?_⟩
    · exact ⟨.nil, .nil, nofun, atEach_nil, nofun, nofun, fun _ => start.inputEpoch.symm⟩
    obtain ⟨target, state⟩ := start.state
    have home : (SourceRun.view { source, floor, history := [] }).phase = .home := by
      show source.state.phase = .home
      rw [state]
      rfl
    refine ⟨atEach_nil, atEach_nil, fun _ => atEach_nil, by simp [home], by simp [home],
      by simp [home], fun _ waits => ?_⟩
    have waited : source.pacer.waiting.isSome = true := waits
    rw [start.waiting] at waited
    cases waited
  · intro past view script ⟨balanced, numbered, staged⟩
    have same : (view.reopened script).log (view.log past) = view.log past := append_nil _
    refine ⟨balanced.reopen script, ?_, ?_⟩
    · cases numbered
      constructor <;> rwa [same]
    · cases staged
      constructor <;> rwa [same]
  · rintro past call view later move ⟨balanced, numbered, staged⟩
    exact ⟨balanced.move move, numbered.move move, staged.move move balanced numbered⟩

/-- The order of outgoing frames, over every run of a controller. -/
theorem outgoing_order {run : SourceRun F} (reachable : (sourceLts F).Reachable run) :
    (inputs run.log).Pairwise Frame.Precedes ∧
    (heartbeats run.log).Pairwise (fun first second => first.sequence < second.sequence) ∧
    (∀ frame ∈ heartbeats run.log, frame.epoch = run.source.baseEpoch) ∧
    ∀ before event after, run.log = before ++ event :: after →
      OpensAt run.source.baseEpoch before event ∧ OpenAt before event ∧ StillAt before event := by
  obtain ⟨-, numbered, staged⟩ := reachable_ordered reachable
  have same : run.view.log run.log = run.log := append_nil _
  refine ⟨same ▸ numbered.ordered, same ▸ numbered.beating, same ▸ numbered.base,
    fun before event after log => ?_⟩
  rw [← same] at log
  exact ⟨numbered.opens before event after log, staged.inside before event after log,
    staged.still before event after log⟩

/-- A controller that has not failed asked for the display it waits for, may send input while
it is away or a position waits, is not away in a hold and then counts the releases not
acknowledged, at most two, and counts ahead of every frame. -/
theorem controller_in_step {run : SourceRun F} (reachable : (sourceLts F).Reachable run)
    (alive : run.source.failure = none) :
    (∀ display crossing handedOver, run.view.phase = .asking display crossing handedOver →
      Requested run.log run.view.inputEpoch display ∧ ¬Released run.log run.view.inputEpoch) ∧
    (run.view.phase = .away ∨ run.view.waiting.isSome = true → Open run.log run.view.inputEpoch) ∧
    (run.view.heldSince.isSome = true → run.view.phase.isRetreated = true ∧
      releases run.log = acknowledgements run.log + run.view.pending ∧ run.view.pending ≤ 2) ∧
    ∀ frame ∈ inputs run.log, frame.epoch.get < run.view.inputEpoch.get ∨
      frame.epoch = run.view.inputEpoch ∧ frame.sequence < run.view.inputSequence := by
  obtain ⟨balanced, numbered, staged⟩ := reachable_ordered reachable
  have same : run.view.log run.log = run.log := append_nil _
  refine ⟨same ▸ staged.asking alive, ?_, ?_, same ▸ numbered.counted alive⟩
  · rintro (away | waits)
    · exact same ▸ staged.away alive away
    · exact same ▸ staged.waits alive waits
  · intro held
    have retreated := balanced.retreated alive held
    have balance := balanced.balance alive
    rw [same, View.owed_of_isRetreated retreated, Nat.add_zero] at balance
    exact ⟨retreated, balance, balanced.bounded alive⟩

namespace SourceRun

/-- The activation, a scroll and the release of one trip. -/
theorem outgoing_order_returned :
    (inputs (crossed.calls [scroll, .requestLocal 0]).log).map Frame.sequence = [0, 1, 2] ∧
      (inputs (crossed.calls [scroll, .requestLocal 0]).log).Pairwise Frame.Precedes :=
  ⟨rfl, (outgoing_order (reachable_calls crossed_reachable _)).1⟩

/-- Away, and held once the neighbour falls silent. -/
theorem controller_in_step_crossed : let held := crossed.calls [.tick silence]
    (crossed.view.phase = .away ∧ Open crossed.log crossed.view.inputEpoch) ∧
      (held.view.heldSince = some silence ∧ releases held.log = 1) ∧
      releases held.log = acknowledgements held.log + held.view.pending ∧ held.view.pending ≤ 2 :=
  ⟨⟨rfl, (controller_in_step crossed_reachable rfl).2.1 (.inl rfl)⟩, ⟨rfl, rfl⟩,
    ((controller_in_step (reachable_calls crossed_reachable _) rfl).2.2.1 rfl).2⟩

end SourceRun
end Monhop.Transport
