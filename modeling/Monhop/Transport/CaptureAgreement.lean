import Monhop.Core.CaptureRun
import Monhop.Transport.SourceKeys

/-! # Capture and source keep the same keys

The callback's tables and the source's key table are two ledgers of the same physical
keys, joined by the capture queue.  The callback drops some records: those of withheld and
initially held keys, and the presses of the local emergency chord.  `QueuedCapture` runs
the callback and keeps every record its queue admitted; the source reads those in order.

Both ledgers agree as long as a queued record claims no modifier whose press was dropped,
and does not repeat a press that was dropped (`PhysicalCapture.Claimable`).  The chord
drops the press that completes it and the presses that fall while it is complete, so a
record queued afterwards can claim too much.
-/

namespace Monhop.Core

open CaptureChannel

/-! ## What a physical event does to the queue -/

def CaptureEvent.isKey {F : Type} : CaptureEvent F → Bool
  | .key .. => true
  | _ => false

namespace CaptureChannel

variable {F : Type}

/-- The queue gained records of other inputs only, and capture was not restarted. -/
structure QueuesNoKey (channel sent : CaptureChannel F) : Prop where
  queue : ∃ records, sent.queue = channel.queue ++ records ∧
    ∀ record ∈ records, record.event.isKey = false
  running : sent.stopped = none → channel.stopped = none

variable (channel : CaptureChannel F)

theorem QueuesNoKey.refl : channel.QueuesNoKey channel :=
  ⟨⟨[], by simp, nofun⟩, id⟩

theorem QueuesNoKey.trans {first second third : CaptureChannel F} (leading : first.QueuesNoKey second)
    (trailing : second.QueuesNoKey third) : first.QueuesNoKey third := by
  obtain ⟨⟨front, front_eq, frontOthers⟩, started⟩ := leading
  obtain ⟨⟨back, back_eq, backOthers⟩, running⟩ := trailing
  refine ⟨⟨front ++ back, by rw [back_eq, front_eq, List.append_assoc], ?_⟩, started ∘ running⟩
  intro record member
  exact (List.mem_append.mp member).elim (frontOthers record) (backOthers record)

theorem publish_queue {record : CapturedEvent F} :
    (channel.publish record).queue = channel.queue ++ [record] ∧
      (channel.publish record).stopped = channel.stopped := by
  simp only [publish]
  split <;> exact ⟨rfl, rfl⟩

variable {reason : StopReason}

theorem stop_stopped : (channel.stop reason).stopped ≠ none := by
  simp only [stop]
  cases channel.stopped <;> simp

theorem stop_queuesNoKey : channel.QueuesNoKey (channel.stop reason) :=
  ⟨⟨[], by simp [stop], nofun⟩, fun running => absurd running channel.stop_stopped⟩

theorem tryPopTagged_queue :
    channel.tryPopTagged.2.stopped = channel.stopped ∧
      channel.tryPopTagged.2.queue.length ≤ channel.queue.length := by
  unfold tryPopTagged
  split
  · exact ⟨rfl, le_rfl⟩
  · split
    · exact ⟨rfl, le_rfl⟩
    · next queue => exact ⟨rfl, by simp [queue]⟩

variable [Scalar F]

/-- A push publishes the record, or leaves the queue alone and capture stopped. -/
theorem tryPushTagged_cases {record : CapturedEvent F} :
    (channel.tryPushTagged record = (true, channel.publish record) ∧ channel.stopped = none) ∨
      ((channel.tryPushTagged record).1 = false ∧
        (channel.tryPushTagged record).2.queue = channel.queue ∧
          (channel.tryPushTagged record).2.stopped ≠ none) := by
  cases stopped : channel.stopped with
  | some reason => exact .inr (by simp [tryPushTagged, isStopped, stopped])
  | none =>
    simp only [tryPushTagged, isStopped, stopped, Option.isSome_none, Bool.false_eq_true,
      ↓reduceIte]
    split
    · exact .inr ⟨rfl, rfl, channel.stop_stopped⟩
    · split
      · exact .inr ⟨rfl, rfl, channel.stop_stopped⟩
      · exact .inl ⟨rfl, trivial⟩

theorem tryPushTagged_queuesNoKey {record : CapturedEvent F} (other : record.event.isKey = false) :
    channel.QueuesNoKey (channel.tryPushTagged record).2 := by
  rcases channel.tryPushTagged_cases with ⟨pushed, running⟩ | ⟨_, queue, halted⟩
  · rw [pushed]
    exact ⟨⟨[record], channel.publish_queue.1, by simpa using other⟩, fun _ => running⟩
  · exact ⟨⟨[], by simpa using queue, nofun⟩, fun running => absurd running halted⟩

end CaptureChannel

namespace PhysicalCapture

variable {F : Type} [Scalar F]

theorem pushWhen_cases (wanted : Bool) (record : CapturedEvent F) (channel : CaptureChannel F) :
    (pushWhen wanted record channel = (true, channel.publish record) ∧ wanted = true ∧
        channel.stopped = none) ∨
      ((pushWhen wanted record channel).1 = false ∧
        (pushWhen wanted record channel).2.queue = channel.queue ∧
          ((pushWhen wanted record channel).2.stopped = none →
            wanted = false ∧ channel.stopped = none)) := by
  cases wanted with
  | false => exact .inr ⟨rfl, rfl, fun running => ⟨rfl, running⟩⟩
  | true =>
    cases stopped : channel.stopped with
    | some reason => exact .inr (by simp [pushWhen, isStopped, stopped])
    | none =>
      have pushes : pushWhen true record channel = channel.tryPushTagged record := by
        simp [pushWhen, isStopped, stopped]
      rw [pushes]
      rcases channel.tryPushTagged_cases with ⟨pushed, _⟩ | ⟨refused, queue, halted⟩
      · exact .inl ⟨pushed, rfl, rfl⟩
      · exact .inr ⟨refused, queue, fun running => absurd running halted⟩

variable (capture : PhysicalCapture F)

/-- A press that may be queued, or the release of one that was: what the callback decides
before it looks at withholding. -/
def offers (usage : HidUsage) (pressed : Bool) : Bool :=
  let previous := capture.keys usage.code
  let moved := capture.setKey usage.code { previous with physical := pressed }
  !previous.withheld && !previous.initiallyHeld &&
    if pressed then !moved.reserved usage && !moved.chordRepeat pressed else previous.queuedDown

/-- The record queued for a key: a press of a key that is down repeats it. -/
def keyRecord (usage : HidUsage) (pressed : Bool) : CaptureEvent F :=
  let previous := capture.keys usage.code
  .key usage pressed (pressed && previous.physical)
    (capture.setKey usage.code { previous with physical := pressed }).modifiers

/-- What an event of a key with a slot does to the queue and to its own queued flag. -/
inductive Queues (usage : HidUsage) (pressed : Bool)
    (channel : CaptureChannel F) (after : PhysicalCapture F) (sent : CaptureChannel F) : Prop where
  | queued (record : CapturedEvent F) (event : record.event = capture.keyRecord usage pressed)
      (offered : capture.offers usage pressed = true)
      (queue : sent.queue = channel.queue ++ [record]) (running : channel.stopped = none)
      (queuedDown : (after.keys usage.code).queuedDown = pressed)
  | dropped (queue : sent.queue = channel.queue)
      (queuedDown : sent.stopped = none → channel.stopped = none ∧
        (after.keys usage.code).queuedDown = (capture.keys usage.code).queuedDown)

omit [Scalar F] in
/-- Withholding a press or its release never touches the queued flag. -/
theorem withholdPress_queuedDown {previous state : Press} {pressed withholding suppress : Bool}
    (regular : previous.Regular)
    (withheld : withholdPress { previous with physical := pressed } previous pressed withholding =
      (some suppress, state)) : state.queuedDown = previous.queuedDown := by
  simp only [withholdPress] at withheld
  split at withheld
  · next hidden =>
    split at withheld
    · cases withheld
      exact (regular.withheld_unqueued hidden).symm
    · cases withheld
      rfl
  · split at withheld
    · cases withheld
      rfl
    · cases withheld

omit [Scalar F] in
theorem withholdPress_none {base previous state : Press} {pressed withholding : Bool}
    (normal : withholdPress base previous pressed withholding = (none, state)) :
    previous.withheld = false ∧ state = base := by
  simp only [withholdPress] at normal
  split at normal
  · split at normal <;> cases normal
  next visible =>
  split at normal
  · cases normal
  · cases normal
    exact ⟨by simpa using visible, rfl⟩

theorem processKey_queues {capture : PhysicalCapture F} {usage : HidUsage}
    (regular : (capture.keys usage.code).Regular) (pressed remote withholding : Bool)
    (tagged : CaptureEvent F → CapturedEvent F) (tags : ∀ event, (tagged event).event = event)
    (now : Duration) (channel : CaptureChannel F) :
    let result := capture.processKey usage pressed remote withholding tagged now channel
    Queues capture usage pressed channel result.2.1 result.2.2 := by
  cases withheld : withholdPress { capture.keys usage.code with physical := pressed }
      (capture.keys usage.code) pressed withholding with
  | mk verdict state =>
    cases verdict with
    | some suppress =>
      simp only [processKey, observeChord_keys, withheld]
      refine .dropped rfl fun running => ⟨running, ?_⟩
      rw [setKey_keys_self]
      exact withholdPress_queuedDown regular withheld
    | none =>
      obtain ⟨visible, rfl⟩ := withholdPress_none withheld
      simp only [processKey, observeChord_keys, withheld]
      generalize wanted_eq : (!(capture.keys usage.code).initiallyHeld && _) = wanted
      rcases pushWhen_cases wanted (tagged _) channel with
        ⟨pushed, rfl, running⟩ | ⟨refused, queue, halted⟩
      · rw [pushed]
        refine .queued _ (tags _) ?_ channel.publish_queue.1 running ?_
        · simpa [offers, visible] using wanted_eq
        · cases pressed with
          | false => simp [settlePress, updatePress, Press.default]
          | true => simp [(Press.settlePress_pressed ..).2.2.2]
      · refine .dropped queue fun running => ?_
        obtain ⟨unwanted, started⟩ := halted running
        refine ⟨started, ?_⟩
        rw [refused, setKey_keys_self]
        cases pressed with
        | true => simp [(Press.settlePress_pressed ..).2.2.2]
        | false =>
          -- the release of a queued press is always wanted
          rw [unwanted] at wanted_eq
          cases initial : (capture.keys usage.code).initiallyHeld with
          | true => simp [settlePress, updatePress, Press.default, regular.initial_unqueued initial]
          | false =>
            simp only [initial, Bool.not_false, Bool.true_and, Bool.false_eq_true, ↓reduceIte] at wanted_eq
            simp [settlePress, updatePress, Press.default, wanted_eq]

omit [Scalar F] in
theorem tick_channel (now : Duration) (channel : CaptureChannel F) :
    (capture.tick now channel).2 = channel ∨
      ∃ reason, (capture.tick now channel).2 = channel.stop reason := by
  unfold tick
  split
  · exact .inr ⟨_, rfl⟩
  simp only
  split
  · split
    · exact .inr ⟨_, rfl⟩
    · exact .inl rfl
  · exact .inl rfl

omit [Scalar F] in
theorem tick_queuesNoKey {now : Duration} {channel : CaptureChannel F} :
    channel.QueuesNoKey (capture.tick now channel).2 := by
  rcases capture.tick_channel now channel with kept | ⟨reason, stopped⟩
  · rw [kept]
    exact .refl channel
  · rw [stopped]
    exact channel.stop_queuesNoKey

variable {channel : CaptureChannel F}

theorem pushWhen_queuesNoKey {wanted : Bool} {record : CapturedEvent F}
    (other : record.event.isKey = false) :
    channel.QueuesNoKey (pushWhen wanted record channel).2 := by
  unfold pushWhen
  split
  · exact channel.tryPushTagged_queuesNoKey other
  · exact .refl channel

theorem processWithTravel_queues {capture : PhysicalCapture F} {usage : HidUsage}
    (regular : (capture.keys usage.code).Regular) (valid : usage.isValid = true)
    (pressed isRepeat : Bool) (modifiers : ModifierState) (travel : Option (F × F)) (remote : Bool)
    (now : Duration) (channel : CaptureChannel F) :
    let result := capture.processWithTravel (.key usage pressed isRepeat modifiers) travel remote
      now channel
    Queues capture usage pressed channel result.2.1 result.2.2 := by
  have started := capture.tick_channel now channel
  have clock := capture.prepare_withClock (.key usage pressed isRepeat modifiers) travel remote now
    channel
  have ticked : (capture.prepare (.key usage pressed isRepeat modifiers) travel remote now
    channel).channel = (capture.tick now channel).2 := rfl
  simp only [processWithTravel, valid, Bool.not_true, Bool.false_eq_true, ↓reduceIte]
  generalize capture.prepare (.key usage pressed isRepeat modifiers) travel remote now channel =
    ready at *
  -- the clock and the take-back leave everything a key reads
  obtain ⟨_, _, _, _, _, moved⟩ := clock
  have entry : ready.capture.keys usage.code = capture.keys usage.code := by rw [moved]
  have queues := processKey_queues (entry ▸ regular) pressed ready.remote ready.withholding
    ready.tagged (fun _ => rfl) now ready.channel
  rcases started with kept | ⟨reason, stopped⟩
  · rw [ticked, kept] at queues ⊢
    cases queues with
    | queued record event offered queue running queuedDown =>
      exact .queued record (event.trans (by rw [moved]; rfl)) (Eq.trans (by rw [moved]; rfl) offered)
        queue running queuedDown
    | dropped queue queuedDown => exact .dropped queue (entry ▸ queuedDown)
  · rw [ticked, stopped] at queues ⊢
    -- nothing is queued once the clock stopped capture
    cases queues with
    | queued _ _ _ _ running _ => exact absurd running channel.stop_stopped
    | dropped queue queuedDown =>
      exact .dropped queue fun running => absurd (queuedDown running).1 channel.stop_stopped

theorem processButton_queues (mouse : MouseButton)
    (pressed remote withholding : Bool) (record : CapturedEvent F)
    (other : record.event.isKey = false) :
    let result := capture.processButton mouse pressed remote withholding record channel
    channel.QueuesNoKey result.2.2 := by
  simp only [processButton]
  split
  · exact .refl channel
  · exact pushWhen_queuesNoKey other

/-- Any event but a key with a slot queues no key and leaves the keys alone. -/
theorem processWithTravel_other {event : CaptureEvent F}
    (other : ¬∃ usage pressed isRepeat modifiers,
      event = .key usage pressed isRepeat modifiers ∧ usage.isValid = true)
    (travel : Option (F × F)) (remote : Bool) (now : Duration) (channel : CaptureChannel F) :
    let result := capture.processWithTravel event travel remote now channel
    channel.QueuesNoKey result.2.2 ∧ ∀ code, result.2.1.keys code = capture.keys code := by
  have ticked : channel.QueuesNoKey (capture.prepare event travel remote now channel).channel :=
    capture.tick_queuesNoKey
  cases event with
  | key usage pressed isRepeat modifiers =>
    have invalid : usage.isValid = false := by simpa using other
    constructor
    · simp only [processWithTravel, invalid, Bool.not_false, ↓reduceIte]
      exact ⟨ticked.queue, fun running => absurd running (stop_stopped _)⟩
    · refine fun code => processWithTravel_press capture travel remote now channel ?_ (.key ⟨code⟩)
      intro held down input
      cases input
      exact invalid
  | button mouse pressed time =>
    have input : (CaptureEvent.button mouse pressed time : CaptureEvent F).input =
      some (.button mouse, pressed) := rfl
    exact ⟨ticked.trans (processButton_queues _ _ _ _ _ _ rfl),
      fun code => (capture.processWithTravel_settles input rfl).others (.key ⟨code⟩) (by simp)⟩
  | _ =>
    exact ⟨ticked.trans (pushWhen_queuesNoKey rfl), fun code => processWithTravel_press capture
      travel remote now channel (fun _ _ input => by cases input) (.key ⟨code⟩)⟩

/-- A queued record of this key may claim what it does: every other modifier it names was
queued, and so was the press it repeats. -/
structure Claimable (usage : HidUsage) (pressed : Bool) : Prop where
  modifiers : ∀ index < 8, 0xe0 + index ≠ usage.code →
    (capture.keys (0xe0 + index)).physical = true →
      (capture.keys (0xe0 + index)).withheld = false →
        (capture.keys (0xe0 + index)).initiallyHeld = false →
          (capture.keys (0xe0 + index)).queuedDown = true
  repeats : pressed = true → (capture.keys usage.code).physical = true →
    (capture.keys usage.code).queuedDown = true

end PhysicalCapture
end Monhop.Core

namespace Monhop.Transport

open Monhop.Core List KeyTable PhysicalCapture CaptureUnit

/-! ## Reading the queue -/

namespace KeyTable

variable {F : Type}

/-- The table after one record. -/
def observe (keys : KeyTable) (record : CapturedEvent F) : KeyTable :=
  match record.event with
  | .key usage pressed isRepeat modifiers => (keys.updateKey usage pressed isRepeat modifiers).1
  | _ => keys

def read (keys : KeyTable) (records : List (CapturedEvent F)) : KeyTable :=
  records.foldl observe keys

/-- A key record the table agrees with, or a record of another input. -/
def Reads (keys : KeyTable) (record : CapturedEvent F) : Prop :=
  match record.event with
  | .key usage pressed isRepeat modifiers =>
    usage.isValid = true ∧ keys.Agrees usage pressed isRepeat modifiers
  | _ => True

def accepts (keys : KeyTable) (record : CapturedEvent F) : Bool :=
  match record.event with
  | .key usage pressed isRepeat modifiers =>
    (keys.updateKey usage pressed isRepeat modifiers).2.isSome
  | _ => true

/-- Every record agrees with the table the ones before it left. -/
def ReadsAll (keys : KeyTable) : List (CapturedEvent F) → Prop
  | [] => True
  | record :: records => keys.Reads record ∧ (keys.observe record).ReadsAll records

variable {keys : KeyTable}

theorem readsAll_append {front back : List (CapturedEvent F)} :
    keys.ReadsAll (front ++ back) ↔ keys.ReadsAll front ∧ (keys.read front).ReadsAll back := by
  induction front generalizing keys with
  | nil => simp [ReadsAll, read]
  | cons record front ih =>
    simp only [cons_append, ReadsAll, ih, and_assoc]
    rfl

theorem read_append (keys : KeyTable) (front back : List (CapturedEvent F)) :
    keys.read (front ++ back) = (keys.read front).read back :=
  foldl_append ..

theorem observe_key {record : CapturedEvent F} {usage : HidUsage} {pressed isRepeat : Bool}
    {modifiers : ModifierState} (event : record.event = .key usage pressed isRepeat modifiers)
    (reads : keys.Reads record) : keys.observe record = keys.setPhysical usage.code pressed := by
  simp only [Reads, event] at reads
  simp only [observe, event]
  exact (reads.2.updateKey reads.1).1

theorem reads_other (keys : KeyTable) {record : CapturedEvent F}
    (other : record.event.isKey = false) : keys.Reads record ∧ keys.observe record = keys := by
  obtain ⟨event, _, _, _⟩ := record
  cases event with
  | key => cases other
  | _ => exact ⟨trivial, rfl⟩

theorem readsAll_others (keys : KeyTable) {records : List (CapturedEvent F)}
    (others : ∀ record ∈ records, record.event.isKey = false) :
    keys.ReadsAll records ∧ keys.read records = keys := by
  induction records with
  | nil => exact ⟨trivial, rfl⟩
  | cons record records ih =>
    obtain ⟨reads, kept⟩ := keys.reads_other (others record mem_cons_self)
    obtain ⟨rest, same⟩ := ih fun later member =>
      others later (mem_cons_of_mem _ member)
    refine ⟨⟨reads, by rwa [kept]⟩, ?_⟩
    simpa only [read, foldl_cons, kept] using same

/-- What a record says about the keys that are down. -/
def settle (down : Nat → Bool) (record : CapturedEvent F) : Nat → Bool :=
  match record.event with
  | .key usage pressed _ _ => Function.update down usage.code pressed
  | _ => down

/-- The keys whose queued press has not been followed by a queued release. -/
def pending (records : List (CapturedEvent F)) : Nat → Bool :=
  records.foldl settle fun _ => false

theorem pending_concat (records : List (CapturedEvent F)) (record : CapturedEvent F) :
    pending (records ++ [record]) = settle (pending records) record :=
  foldl_concat ..

theorem read_concat (keys : KeyTable) (records : List (CapturedEvent F)) (record : CapturedEvent F) :
    keys.read (records ++ [record]) = (keys.read records).observe record :=
  foldl_concat ..

theorem read_pending {records : List (CapturedEvent F)} (reads : up.ReadsAll records) (code : Nat) :
    (up.read records code).physical = pending records code := by
  induction records using List.reverseRecOn with
  | nil => rfl
  | append_singleton front record ih =>
    obtain ⟨front_reads, last, _⟩ := readsAll_append.mp reads
    have before := ih front_reads
    rw [read_concat, pending_concat]
    cases event : record.event with
    | key usage pressed isRepeat modifiers =>
      rw [observe_key event last]
      simp only [settle, event]
      by_cases same : code = usage.code
      · subst same
        simp
      · rw [setPhysical_of_ne same, Function.update_of_ne same]
        exact before
    | _ => simpa only [observe, settle, event] using before

/-- A table equal to what was queued agrees with a queued record exactly when the record
claims no more than was queued. -/
theorem agrees_iff_claimable {capture : PhysicalCapture F} {usage : HidUsage} {pressed : Bool}
    (regular : ∀ code, (capture.keys code).Regular)
    (same : ∀ code, (keys code).physical = (capture.keys code).queuedDown)
    (visible : (capture.keys usage.code).withheld = false)
    (later : (capture.keys usage.code).initiallyHeld = false)
    (releases : pressed = false → (capture.keys usage.code).queuedDown = true) :
    keys.Agrees usage pressed (pressed && (capture.keys usage.code).physical)
        (capture.setKey usage.code { capture.keys usage.code with physical := pressed }).modifiers ↔
      capture.Claimable usage pressed := by
  have queued_physical : ∀ code, (capture.keys code).queuedDown = true →
      (capture.keys code).physical = true := by
    intro code queued
    cases down : (capture.keys code).physical with
    | true => rfl
    | false => rw [(regular code).up down] at queued; cases queued
  -- bit by bit: the key's own bit always agrees
  have bits : (keys.setPhysical usage.code pressed).physicalModifiers =
      (capture.setKey usage.code { capture.keys usage.code with physical := pressed }).modifiers ↔
      ∀ index < 8, 0xe0 + index ≠ usage.code → (capture.keys (0xe0 + index)).queuedDown =
        ((capture.keys (0xe0 + index)).physical && !(capture.keys (0xe0 + index)).withheld &&
          !(capture.keys (0xe0 + index)).initiallyHeld) := by
    rw [physicalModifiers, modifiersBy_eq, PhysicalCapture.modifiers, ModifierState.mk.injEq,
      Library.mask_eq_iff]
    refine forall₂_congr fun index _ => ?_
    by_cases own : 0xe0 + index = usage.code
    · simp [own, visible, later]
    · simp [own, setPhysical_of_ne own, setKey_keys_of_ne own, same]
  constructor
  · intro agrees
    constructor
    · intro index below other down shown started
      rw [bits.mp agrees.modifiers_eq index below other, down, shown, started]
      rfl
    · intro presses down
      rw [← same]
      exact (agrees.repeats.mp (by simp [presses, down])).2
  · intro claimable
    constructor
    · rw [same, Bool.and_eq_true]
      exact and_congr_right fun presses =>
        ⟨claimable.repeats presses, queued_physical usage.code⟩
    · intro lifted
      rw [same]
      exact releases lifted
    rw [bits]
    intro index below other
    cases queued : (capture.keys (0xe0 + index)).queuedDown with
    | true =>
      have shown : (capture.keys (0xe0 + index)).withheld = false := by
        simpa [queued] using mt (regular (0xe0 + index)).withheld_unqueued
      have started : (capture.keys (0xe0 + index)).initiallyHeld = false := by
        simpa [queued] using mt (regular (0xe0 + index)).initial_unqueued
      simp [queued_physical _ queued, shown, started]
    | false =>
      symm
      by_contra claims
      simp only [Bool.not_eq_false, Bool.and_eq_true, Bool.not_eq_true'] at claims
      exact absurd (claimable.modifiers index below other claims.1.1 claims.1.2 claims.2)
        (by simp [queued])

end KeyTable

/-! ## The callback with everything it queued -/

/-- The callback, its queue, and every record the queue admitted so far. -/
structure QueuedCapture (F : Type) extends CaptureUnit F where
  queued : List (CapturedEvent F)

namespace QueuedCapture

variable {F : Type}

/-- What was found held is seeded before the first event. -/
def Allows (system : QueuedCapture F) : CaptureLabel F → Prop
  | .seed _ => False
  | label => system.toCaptureUnit.Allows label

/-- A key event that may be queued claims nothing that was dropped. -/
def Claims (system : QueuedCapture F) : CaptureLabel F → Prop
  | .process (.key usage pressed _ _) _ _ _ =>
    system.capture.offers usage pressed = true → system.capture.Claimable usage pressed
  | _ => True

variable [Scalar F]

def next (system : QueuedCapture F) (label : CaptureLabel F) : QueuedCapture F :=
  let moved := system.toCaptureUnit.next label
  { moved with
    queued := system.queued ++ moved.channel.queue.drop system.channel.queue.length }

/-- A callback at its start, with or without the local emergency chord and a gate. -/
structure Initial (system : QueuedCapture F) : Prop where
  capture : ∃ now intercepts takeBack held, system.capture =
    List.foldl seedLocallyHeld
      { PhysicalCapture.new now with interceptsEscape := intercepts, takeBack } held
  channel : system.channel = .new
  queued : system.queued = []

end QueuedCapture

def queuedLts (F : Type) [Scalar F] : Library.Lts (QueuedCapture F) (CaptureLabel F) where
  init := QueuedCapture.Initial
  step first label second := first.Allows label ∧ second = first.next label

variable {code : Nat}

namespace QueuedCapture

variable {F : Type}

/-- Everything queued reads well, and while capture runs the source's table after reading
it is what the callback counts as queued. -/
structure Linked (system : QueuedCapture F) : Prop where
  regular : system.Regular
  reads : KeyTable.up.ReadsAll system.queued
  agrees : system.channel.stopped = none → ∀ code,
    (KeyTable.up.read system.queued code).physical = (system.capture.keys code).queuedDown

theorem seedLocallyHeld_keys {capture : PhysicalCapture F} {held : HeldInput} :
    (capture.seedLocallyHeld held).keys code = capture.keys code ∨
      (capture.seedLocallyHeld held).keys code = .initial := by
  unfold seedLocallyHeld
  split
  · cases held with
    | button mouse => exact .inl rfl
    | key usage =>
      by_cases own : code = usage.code
      · subst own
        exact .inr (setKey_keys_self ..)
      · exact .inl (setKey_keys_of_ne own)
  · exact .inl rfl

variable [Scalar F]

/-- Seeding keeps the tables regular, and nothing counts as queued. -/
theorem seeds_regular {unit : CaptureUnit F} (regular : unit.Regular)
    (unqueued : ∀ code, (unit.capture.keys code).queuedDown = false) {held : List HeldInput} :
    let seeded := held.foldl seedLocallyHeld unit.capture
    CaptureUnit.Regular { unit with capture := seeded } ∧
      ∀ code, (seeded.keys code).queuedDown = false := by
  induction held generalizing unit with
  | nil => exact ⟨regular, unqueued⟩
  | cons first held ih =>
    have seeded : (unit.next (.seed first)).Regular := regular.next trivial
    refine ih seeded fun code => ?_
    rcases seedLocallyHeld_keys with kept | found
    · exact (congrArg Press.queuedDown kept).trans (unqueued code)
    · exact congrArg Press.queuedDown found

variable {label : CaptureLabel F} {system : QueuedCapture F}

theorem initial_linked (initial : system.Initial) : system.Linked := by
  obtain ⟨⟨now, intercepts, takeBack, held, capture⟩, _, queued⟩ := initial
  have fresh : CaptureUnit.Regular
      { system.toCaptureUnit with
        capture := { PhysicalCapture.new now with interceptsEscape := intercepts, takeBack } } :=
    ⟨fun held => by cases held <;> exact Press.Regular.default, fun held _ => by cases held <;> rfl⟩
  obtain ⟨regular, unqueued⟩ := seeds_regular fresh (fun _ => rfl)
  rw [← capture] at regular unqueued
  refine ⟨regular, ?_, fun _ code => ?_⟩
  · rw [queued]
    trivial
  · rw [queued, unqueued]
    rfl

/-- A step that queues no key and changes no queued flag. -/
theorem Linked.quiet (linked : system.Linked) (regular : (system.toCaptureUnit.next label).Regular)
    (sent : system.channel.QueuesNoKey (system.toCaptureUnit.next label).channel)
    (same : ∀ code, ((system.toCaptureUnit.next label).capture.keys code).queuedDown =
      (system.capture.keys code).queuedDown) :
    (system.next label).Linked := by
  obtain ⟨⟨records, queue, others⟩, running⟩ := sent
  have queued : (system.next label).queued = system.queued ++ records := by
    simp [next, queue]
  obtain ⟨reads, kept⟩ := (KeyTable.up.read system.queued).readsAll_others others
  refine ⟨regular, ?_, fun started code => ?_⟩
  · rw [queued, readsAll_append]
    exact ⟨linked.reads, reads⟩
  · rw [queued, read_append, kept]
    exact (linked.agrees (running started) code).trans (same code).symm

omit [Scalar F] in
/-- A record the callback would queue now reads well exactly when it claims no more than
was queued, and the source accepts it in no other case. -/
theorem Linked.reads_iff (linked : system.Linked) (running : system.channel.stopped = none)
    {usage : HidUsage} {pressed : Bool} (valid : usage.isValid = true)
    (offered : system.capture.offers usage pressed = true) {record : CapturedEvent F}
    (event : record.event = system.capture.keyRecord usage pressed) :
    ((KeyTable.up.read system.queued).Reads record ↔ system.capture.Claimable usage pressed) ∧
      ((KeyTable.up.read system.queued).accepts record = true ↔
        (KeyTable.up.read system.queued).Reads record) := by
  have regular : ∀ code, (system.capture.keys code).Regular :=
    fun code => linked.regular.press (.key ⟨code⟩)
  have agrees := linked.agrees running
  simp only [PhysicalCapture.offers, Bool.and_eq_true, Bool.not_eq_true'] at offered
  obtain ⟨⟨visible, later⟩, queueable⟩ := offered
  have releases : pressed = false → (system.capture.keys usage.code).queuedDown = true := by
    intro lifted
    simpa [lifted] using queueable
  constructor
  · rw [← agrees_iff_claimable regular agrees visible later releases]
    simp only [KeyTable.Reads, event, keyRecord, valid, true_and]
  simp only [KeyTable.Reads, KeyTable.accepts, event, keyRecord, valid, true_and]
  refine ⟨fun accepted => agrees_of_updateKey accepted fun lifted => ?_,
    fun reads => (reads.updateKey valid).2⟩
  rw [agrees]
  exact releases lifted

theorem Linked.key (linked : system.Linked) {usage : HidUsage} (valid : usage.isValid = true)
    {pressed : Bool} (isRepeat : Bool) (modifiers : ModifierState) (travel : Option (F × F))
    (remote : Bool) (now : Duration)
    (claims : system.capture.offers usage pressed = true → system.capture.Claimable usage pressed) :
    (system.next (.process (.key usage pressed isRepeat modifiers) travel remote now)).Linked := by
  have queues := processWithTravel_queues (linked.regular.press (.key usage)) valid
    pressed isRepeat modifiers travel remote now system.channel
  have input : (CaptureEvent.key usage pressed isRepeat modifiers : CaptureEvent F).input =
    some (.key usage, pressed) := rfl
  have regular := linked.regular.process (.key usage pressed isRepeat modifiers) travel remote now
  have kept : ∀ code, code ≠ usage.code →
      (system.next (.process (.key usage pressed isRepeat modifiers) travel remote now)).capture.keys
        code = system.capture.keys code := by
    intro code different
    refine (system.capture.processWithTravel_settles input valid).others (.key ⟨code⟩) ?_
    exact fun same => different (congrArg HidUsage.code (HeldInput.key.inj same))
  cases queues with
  | queued record event offered queue running queuedDown =>
    have reads := (linked.reads_iff running valid offered event).1.mpr (claims offered)
    have queued : (system.next (.process (.key usage pressed isRepeat modifiers) travel remote
        now)).queued = system.queued ++ [record] := by
      simp [next, next_process, queue]
    refine ⟨regular, ?_, fun _ code => ?_⟩
    · rw [queued, readsAll_append]
      exact ⟨linked.reads, reads, trivial⟩
    rw [queued, read_concat, observe_key event reads]
    by_cases own : code = usage.code
    · subst own
      rw [setPhysical_self]
      exact queuedDown.symm
    · rw [setPhysical_of_ne own, kept code own]
      exact linked.agrees running code
  | dropped queue queuedDown =>
    have queued : (system.next (.process (.key usage pressed isRepeat modifiers) travel remote
        now)).queued = system.queued := by
      simp [next, next_process, queue]
    refine ⟨regular, queued ▸ linked.reads, fun running code => ?_⟩
    obtain ⟨started, same⟩ := queuedDown running
    rw [queued, linked.agrees started code]
    by_cases own : code = usage.code
    · subst own
      exact same.symm
    · rw [kept code own]

section

omit [Scalar F]

theorem Allows.unit (allowed : system.Allows label) : system.toCaptureUnit.Allows label := by
  cases label with
  | seed => exact allowed.elim
  | _ => exact allowed

theorem transfers_queuedDown {unit : CaptureUnit F} {done : List LocalTransfer}
    (planned : ∀ transfer ∈ done, transfer.input.isKnown = true ∧
      (unit.capture.press transfer.input).physical = true) (code : Nat) :
    ((done.foldl applyTransferSuccess unit.capture).keys code).queuedDown =
      (unit.capture.keys code).queuedDown :=
  (applyTransfers_press planned (.key ⟨code⟩)).1.queuedDown

/-- A forgotten key was held at the start, so it was never queued. -/
theorem Linked.forget_queuedDown (linked : system.Linked) {forgotten : HeldInput} (code : Nat) :
    ((system.capture.forgetInitiallyHeld forgotten).2.keys code).queuedDown =
      (system.capture.keys code).queuedDown := by
  cases cleared : (system.capture.forgetInitiallyHeld forgotten).1 with
  | false => rw [forgetInitiallyHeld_of_not cleared]
  | true =>
    obtain ⟨_, initial, entries⟩ := forgetInitiallyHeld_press cleared
    have entry : (system.capture.forgetInitiallyHeld forgotten).2.keys code =
        (system.capture.setPress forgotten .default).press (.key ⟨code⟩) := entries (.key ⟨code⟩)
    by_cases own : HeldInput.key ⟨code⟩ = forgotten
    · subst own
      rw [entry, setPress_press_self]
      exact ((linked.regular.press _).initial_unqueued initial).symm
    · rw [entry, setPress_press_of_ne own]
      rfl

end

theorem Linked.next (linked : system.Linked) (allowed : system.Allows label)
    (claims : system.Claims label) : (system.next label).Linked := by
  have regular : (system.toCaptureUnit.next label).Regular := linked.regular.next allowed.unit
  cases label with
  | process event travel remote now =>
    by_cases slot : ∃ usage pressed isRepeat modifiers,
        event = .key usage pressed isRepeat modifiers ∧ usage.isValid = true
    · obtain ⟨usage, pressed, isRepeat, modifiers, rfl, valid⟩ := slot
      exact linked.key valid isRepeat modifiers travel remote now claims
    obtain ⟨sent, keys⟩ :=
      system.capture.processWithTravel_other slot travel remote now system.channel
    exact linked.quiet regular sent fun code => congrArg Press.queuedDown (keys code)
  | tick now =>
    refine linked.quiet regular system.capture.tick_queuesNoKey fun code => ?_
    exact congrArg Press.queuedDown
      (system.capture.tick_withClock.press (.key ⟨code⟩))
  | handoff remote done =>
    refine linked.quiet regular (.refl system.channel) (transfers_queuedDown fun transfer member => ?_)
    exact mem_handoffPlan (allowed.subset member)
  | releaseInjected done =>
    refine linked.quiet regular (.refl system.channel) (transfers_queuedDown fun transfer member => ?_)
    exact linked.regular.planned (mem_releaseInjectedPlan (allowed.subset member)).2
  | seed held => exact allowed.elim
  | forget held =>
    exact linked.quiet regular (.refl system.channel) linked.forget_queuedDown
  | setRoutingRevision | gate =>
    exact linked.quiet regular (.refl system.channel) fun code => rfl
  | barrier remote revision floorGeneration =>
    exact linked.quiet regular (system.channel.tryPushTagged_queuesNoKey rfl) fun code => rfl
  | stop reason =>
    exact linked.quiet regular system.channel.stop_queuesNoKey fun code => rfl
  | consume =>
    obtain ⟨running, shorter⟩ := system.channel.tryPopTagged_queue
    have queued : (system.next .consume).queued = system.queued := by
      simp [QueuedCapture.next, CaptureUnit.next, shorter]
    refine ⟨regular, queued ▸ linked.reads, fun started code => ?_⟩
    rw [queued]
    exact linked.agrees (running ▸ started) code

/-! ## The source accepts what was queued -/

theorem linked_of_reachable (reachable : ((queuedLts F).restrict Claims).Reachable system) :
    system.Linked := by
  refine reachable.invariant Linked (fun _ => initial_linked) ?_
  intro first label second linked step
  rw [step.2.2]
  exact linked.next step.2.1 step.1

/-- Along every run whose key events claim only what was queued, the source accepts every
key record, reading them in order: its repeat flag is set exactly for a press of a key the
source counts as down, and its modifiers are those whose queued press was not followed by
a queued release.  A record queued next is accepted exactly if it, too, claims only that. -/
theorem queued_keys_accepted {system : QueuedCapture F}
    (reachable : ((queuedLts F).restrict Claims).Reachable system) :
    (∀ earlier record later usage pressed isRepeat modifiers,
      system.queued = earlier ++ record :: later →
      record.event = .key usage pressed isRepeat modifiers →
        (KeyTable.up.read earlier).accepts record = true ∧
        (isRepeat = true ↔
          pressed = true ∧ (KeyTable.up.read earlier usage.code).physical = true) ∧
        modifiers = ⟨Library.mask 8 fun index =>
          KeyTable.pending (earlier ++ [record]) (0xe0 + index)⟩) ∧
    (∀ usage pressed isRepeat modifiers travel remote now record, usage.isValid = true →
      (system.next (.process (.key usage pressed isRepeat modifiers) travel remote now)).queued =
        system.queued ++ [record] →
      ((KeyTable.up.read system.queued).accepts record = true ↔
        system.capture.Claimable usage pressed)) := by
  have linked := linked_of_reachable reachable
  constructor
  · intro earlier record later usage pressed isRepeat modifiers split event
    have reads := linked.reads
    rw [split, readsAll_append] at reads
    obtain ⟨front, reads, _⟩ := reads
    have last : KeyTable.up.ReadsAll (earlier ++ [record]) :=
      readsAll_append.mpr ⟨front, reads, trivial⟩
    have after := observe_key event reads
    simp only [KeyTable.Reads, event] at reads
    refine ⟨?_, reads.2.repeats, ?_⟩
    · simp only [KeyTable.accepts, event]
      exact (reads.2.updateKey reads.1).2
    · rw [← reads.2.modifiers_eq, ← after, ← read_concat, physicalModifiers, modifiersBy_eq]
      simp only [read_pending last]
  · intro usage pressed isRepeat modifiers travel remote now record valid queued
    have queues := processWithTravel_queues (linked.regular.press (.key usage)) valid
      pressed isRepeat modifiers travel remote now system.channel
    cases queues with
    | queued sent event offered queue running queuedDown =>
      have same : sent = record := by
        simpa [next, next_process, queue] using queued
      subst same
      have exactly := linked.reads_iff running valid offered event
      exact exactly.2.trans exactly.1
    | dropped queue queuedDown =>
      simp [next, next_process, queue] at queued

/-- A physical key event at time 0 on the local route. -/
def keyEvent (code : Nat) (pressed : Bool) : CaptureLabel Int :=
  .process (.key ⟨code⟩ pressed false ⟨0⟩) none false 0

def fresh : QueuedCapture Int := { capture := .new 0, channel := .new, queued := [] }

theorem fresh_initial : fresh.Initial := ⟨⟨0, true, none, [], rfl⟩, rfl, rfl⟩

/-- Left Ctrl and A go down. -/
def typing : QueuedCapture Int := (fresh.next (keyEvent 0xe0 true)).next (keyEvent 4 true)

theorem typing_reachable : ((queuedLts Int).restrict Claims).Reachable typing := by
  have control : ((queuedLts Int).restrict Claims).step fresh (keyEvent 0xe0 true)
      (fresh.next (keyEvent 0xe0 true)) :=
    ⟨fun _ => ⟨by decide, by decide⟩, trivial, rfl⟩
  have letter : ((queuedLts Int).restrict Claims).step (fresh.next (keyEvent 0xe0 true))
      (keyEvent 4 true) typing :=
    ⟨fun _ => ⟨by decide, by decide⟩, trivial, rfl⟩
  exact ⟨fresh, _, fresh_initial, .cons control (.single letter)⟩

theorem queued_keys_accepted_typing :
    ∃ first second, typing.queued = [first, second] ∧
      second.event = .key ⟨4⟩ true false ⟨1⟩ ∧
        (KeyTable.up.read [first]).accepts second = true := by
  refine ⟨_, _, rfl, rfl, ?_⟩
  exact ((queued_keys_accepted typing_reachable).1 [_] _ [] ⟨4⟩ true false ⟨1⟩ rfl rfl).1

theorem keyEvent_step (system : QueuedCapture Int) (pressed : Bool) :
    (queuedLts Int).step system (keyEvent code pressed) (system.next (keyEvent code pressed)) :=
  ⟨trivial, rfl⟩

/-- Left Ctrl and Escape go down, right Ctrl completes the chord, Escape goes up. -/
def chordBroken : QueuedCapture Int :=
  (((fresh.next (keyEvent 0xe0 true)).next (keyEvent ESCAPE true)).next (keyEvent 0xe4 true)).next
    (keyEvent ESCAPE false)

/-- The release of Escape is queued with right Ctrl in its modifiers, although the press
of right Ctrl completed the chord and was dropped. -/
theorem chord_release_refused :
    (queuedLts Int).Reachable chordBroken ∧ chordBroken.channel.stopped = none ∧
      ∃ earlier record, chordBroken.queued = earlier ++ [record] ∧
        record.event = .key ⟨ESCAPE⟩ false false ⟨17⟩ ∧
          KeyTable.pending chordBroken.queued 0xe4 = false ∧
            (KeyTable.up.read earlier).accepts record = false := by
  refine ⟨⟨fresh, _, fresh_initial, .cons (keyEvent_step ..) (.cons (keyEvent_step ..)
    (.cons (keyEvent_step ..) (.single (keyEvent_step ..))))⟩, rfl, ?_⟩
  exact ⟨chordBroken.queued.take 2, _, rfl, rfl, by decide, by decide⟩

end QueuedCapture
end Monhop.Transport
