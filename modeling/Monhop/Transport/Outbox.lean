import Monhop.Protocol.Frame
import Monhop.Library.Thinned
import Monhop.Library.Trace
import Monhop.Library.Transition

/-! # The send queue

Every frame of a link waits in one queue.  Absolute motion at its tail takes the newer position in
place, and a newer heartbeat of the same kind and direction replaces an older unsent one.

* `Queue.push_cases` — all a push can do.
* `OutboxRun.Sound` — the queue against what was pushed and popped, kept by every call.
* `outbox_order` — what every run of a queue sends.
-/

namespace Monhop.Transport

open Monhop.Core Protocol Library List
variable {F : Type}

/-- Why the queue took no frame. -/
inductive Refusal where
  /-- The bounded queue of frames that cannot merge is full. -/
  | full
  /-- The writer stopped. -/
  | closed

def sameLane (queued next : Frame F) : Bool :=
  queued.epoch == next.epoch && queued.scope == next.scope &&
    decide (queued.sequence < next.sequence)

theorem sameLane_iff {queued next : Frame F} : sameLane queued next = true ↔
    queued.epoch = next.epoch ∧ queued.scope = next.scope ∧ queued.sequence < next.sequence := by
  simp [sameLane, and_assoc]

variable (frame : Frame F)

def isPosition : Bool :=
  match frame.message with
  | .motion (.absolute _) => true
  | _ => false

variable {frame} in
theorem isPosition_iff :
    isPosition frame = true ↔ ∃ point, frame.message = .motion (.absolute point) := by
  unfold isPosition
  split
  · next point message => simp [message]
  · next other => simpa using other

/-- Absolute motion at the queued tail takes the newer position in place. -/
def newerPosition (queued next : Frame F) : Bool :=
  sameLane queued next && isPosition queued && isPosition next

theorem newerPosition_iff {queued next : Frame F} : newerPosition queued next = true ↔
    (queued.epoch = next.epoch ∧ queued.scope = next.scope ∧ queued.sequence < next.sequence) ∧
      (∃ point, queued.message = .motion (.absolute point)) ∧
        ∃ point, next.message = .motion (.absolute point) := by
  simp only [newerPosition, Bool.and_eq_true, sameLane_iff, isPosition_iff, and_assoc]

/-- Two challenges or two replies. -/
def sameBeat (queued next : Frame F) : Bool :=
  match queued.message, next.message with
  | .ping _, .ping _ => true
  | .pong _, .pong _ => true
  | _, _ => false

theorem sameBeat_iff {queued next : Frame F} : sameBeat queued next = true ↔
    (∃ first second, queued.message = .ping first ∧ next.message = .ping second) ∨
      ∃ first second, queued.message = .pong first ∧ next.message = .pong second := by
  unfold sameBeat
  split
  · next first second here there => simp [here, there]
  · next first second here there => simp [here, there]
  · next notPings notPongs =>
    simp only [Bool.false_eq_true, false_iff, not_or, not_exists, not_and]
    exact ⟨notPings, notPongs⟩

/-- Only the newest challenge or reply of a direction counts as fresh. -/
def superseded (queued next : Frame F) : Bool :=
  sameLane queued next && sameBeat queued next

theorem superseded_iff {queued next : Frame F} : superseded queued next = true ↔
    (queued.epoch = next.epoch ∧ queued.scope = next.scope ∧ queued.sequence < next.sequence) ∧
      ((∃ first second, queued.message = .ping first ∧ next.message = .ping second) ∨
        ∃ first second, queued.message = .pong first ∧ next.message = .pong second) := by
  rw [superseded, Bool.and_eq_true, sameLane_iff, sameBeat_iff]

/-- Frames not yet handed to the stream, in send order, each with when its wait began. -/
structure Queue (F : Type) where
  frames : List (Frame F × Duration)
  capacity : Nat
  /-- When the frame the writer is still writing began to wait. -/
  inFlight : Option Duration
  refused : Option Refusal

namespace Queue

def new (capacity : Nat) : Queue F :=
  { frames := [], capacity, inFlight := none, refused := none }

variable (queue : Queue F)

/-- The queue without the first frame the next one supersedes, and the wait the next one starts
with: a replacement keeps the wait already run up. -/
def withoutStale (frame : Frame F) (now : Duration) : List (Frame F × Duration) × Duration :=
  match queue.frames.find? fun queued => superseded queued.1 frame with
  | some (_, since) => (queue.frames.eraseP fun queued => superseded queued.1 frame, since)
  | none => (queue.frames, now)

/-- Queues a frame that replaces no position. -/
def append (frame : Frame F) (now : Duration) : Except Refusal Unit × Queue F :=
  let (frames, waiting) := queue.withoutStale frame now
  if queue.capacity ≤ frames.length then
    (.error .full, { queue with frames, refused := some .full })
  else (.ok (), { queue with frames := frames ++ [(frame, waiting)] })

def push (frame : Frame F) (now : Duration) : Except Refusal Unit × Queue F :=
  match queue.refused with
  | some refusal => (.error refusal, queue)
  | none =>
    match queue.frames.getLast? with
    | some (tail, since) =>
      if newerPosition tail frame then
        (.ok (), { queue with frames := queue.frames.dropLast ++ [(frame, since)] })
      else queue.append frame now
    | none => queue.append frame now

/-- The next frame to write; it counts as waiting until `written`. -/
def pop : Option (Frame F) × Queue F :=
  match queue.frames with
  | [] => (none, queue)
  | (frame, waiting) :: frames => (some frame, { queue with frames, inFlight := some waiting })

def written : Queue F := { queue with inFlight := none }

def close : Queue F :=
  { queue with refused := some (queue.refused.getD .closed) }

/-- When the oldest wait among frames the local stream has not yet accepted began. -/
def waitingSince : Option Duration :=
  (queue.inFlight.toList ++ queue.frames.map (·.2)).min?

def queued : List (Frame F) := queue.frames.map (·.1)

/-! ## What a push can do -/

variable {now : Duration}

theorem withoutStale_cases :
    (∃ front old since back, queue.frames = front ++ (old, since) :: back ∧
      superseded old frame = true ∧ (∀ other ∈ front, superseded other.1 frame = false) ∧
        queue.withoutStale frame now = (front ++ back, since)) ∨
    (∀ other ∈ queue.frames, superseded other.1 frame = false) ∧
      queue.withoutStale frame now = (queue.frames, now) := by
  unfold withoutStale
  cases found : queue.frames.find? fun queued => superseded queued.1 frame with
  | none =>
    right
    refine ⟨fun other member => ?_, rfl⟩
    simpa using find?_eq_none.mp found other member
  | some stale =>
    left
    obtain ⟨old, since⟩ := stale
    obtain ⟨stales, front, back, split, fresh⟩ := find?_eq_some_iff_append.mp found
    have fresh : ∀ other ∈ front, superseded other.1 frame = false := by simpa using fresh
    have erased : (queue.frames.eraseP fun queued => superseded queued.1 frame) =
        front ++ back := by
      rw [split, eraseP_append_right _ (by simpa using fresh)]
      simp only [stales, eraseP_cons_of_pos]
    exact ⟨front, old, since, back, split, stales, fresh, by rw [erased]⟩

/-- A push is refused for good, or replaces the position at the tail, or queues the frame behind
all others, in place of a stale heartbeat if there is one. -/
theorem push_cases :
    (∃ refusal, queue.refused = some refusal ∧ queue.push frame now = (.error refusal, queue)) ∨
    (queue.refused = none ∧ ∃ front tail since, queue.frames = front ++ [(tail, since)] ∧
      newerPosition tail frame = true ∧
        queue.push frame now = (.ok (), { queue with frames := front ++ [(frame, since)] })) ∨
    queue.refused = none ∧ queue.push frame now = queue.append frame now := by
  unfold push
  cases refused : queue.refused with
  | some refusal => exact .inl ⟨refusal, rfl, rfl⟩
  | none =>
    right
    cases tailed : queue.frames.getLast? with
    | none => exact .inr ⟨rfl, rfl⟩
    | some entry =>
      obtain ⟨tail, since⟩ := entry
      by_cases newer : newerPosition tail frame = true
      · left
        obtain ⟨front, split⟩ := getLast?_eq_some_iff.mp tailed
        refine ⟨rfl, front, tail, since, split, newer, ?_⟩
        simp [newer, split]
      · right
        refine ⟨rfl, ?_⟩
        simp [newer]

/-- A frame is queued when there is room once the stale heartbeat is gone. -/
theorem append_of_room {queue : Queue F} (room : queue.frames.length ≤ queue.capacity)
    {frame : Frame F} :
    (∃ front old since back, queue.frames = front ++ (old, since) :: back ∧
      superseded old frame = true ∧ (∀ other ∈ front, superseded other.1 frame = false) ∧
      queue.append frame now =
        (.ok (), { queue with frames := front ++ back ++ [(frame, since)] })) ∨
    (∀ other ∈ queue.frames, superseded other.1 frame = false) ∧
      (queue.append frame now = (.error .full, { queue with refused := some .full }) ∨
        queue.frames.length < queue.capacity ∧ queue.append frame now =
          (.ok (), { queue with frames := queue.frames ++ [(frame, now)] })) := by
  unfold append
  rcases queue.withoutStale_cases frame with
    ⟨front, old, since, back, split, stale, fresh, left⟩ | ⟨fresh, left⟩
  · left
    refine ⟨front, old, since, back, split, stale, fresh, ?_⟩
    have shorter : ¬ queue.capacity ≤ (front ++ back).length := by
      rw [split] at room
      simp only [length_append, length_cons] at room ⊢
      omega
    rw [left]
    exact if_neg shorter
  · right
    refine ⟨fresh, ?_⟩
    rw [left]
    by_cases full : queue.capacity ≤ queue.frames.length
    · exact .inl (if_pos full)
    · exact .inr ⟨by omega, if_neg full⟩

/-- What keeps the wait of every queued frame keeps the oldest. -/
theorem waitingSince_le {before after : Queue F} {oldest : Duration}
    (waiting : before.waitingSince = some oldest) (flying : after.inFlight = before.inFlight)
    (kept : ∀ since ∈ before.frames.map (·.2), since ∈ after.frames.map (·.2)) :
    ∃ since ≤ oldest, after.waitingSince = some since := by
  obtain ⟨member, _⟩ := min?_eq_some_iff.mp waiting
  have stays : oldest ∈ after.inFlight.toList ++ after.frames.map (·.2) := by
    rw [flying]
    rcases mem_append.mp member with flight | queued
    · exact mem_append_left _ flight
    · exact mem_append_right _ (kept _ queued)
  cases found : after.waitingSince with
  | none =>
    rw [min?_eq_none_iff.mp found] at stays
    cases stays
  | some since => exact ⟨since, (min?_eq_some_iff.mp found).2 _ stays, rfl⟩

end Queue

/-! ## Runs -/

/-- A queue, the frames its pushes were accepted for, those popped, and whether it refused one. -/
structure OutboxRun (F : Type) where
  queue : Queue F
  accepted : List (Frame F)
  popped : List (Frame F)
  refusedOne : Bool

inductive OutboxCall (F : Type) where
  | push (frame : Frame F) (now : Duration)
  | pop
  | written
  | close

namespace OutboxRun

def start (capacity : Nat) : OutboxRun F :=
  { queue := .new capacity, accepted := [], popped := [], refusedOne := false }

def pushed (run : OutboxRun F) (frame : Frame F) (now : Duration) : OutboxRun F :=
  match run.queue.push frame now with
  | (.ok (), queue) => { run with queue, accepted := run.accepted ++ [frame] }
  | (.error _, queue) => { run with queue, refusedOne := true }

def after (run : OutboxRun F) : OutboxCall F → OutboxRun F
  | .push frame now => run.pushed frame now
  | .pop => { run with queue := run.queue.pop.2, popped := run.popped ++ run.queue.pop.1.toList }
  | .written => { run with queue := run.queue.written }
  | .close => { run with queue := run.queue.close }

/-- The frame's sequence is past every earlier one of its epoch and direction. -/
def Rising (run : OutboxRun F) (frame : Frame F) : Prop :=
  ∀ earlier ∈ run.accepted, earlier.epoch = frame.epoch → earlier.scope = frame.scope →
    earlier.sequence < frame.sequence

end OutboxRun

/-- Any calls, with sequences increasing within each epoch and direction. -/
def outboxRuns (F : Type) (capacity : Nat) : Lts (OutboxRun F) (OutboxCall F) where
  init run := run = .start capacity
  step first call second :=
    (∀ frame now, call = .push frame now → first.Rising frame) ∧ second = first.after call

/-- Two heartbeats of one kind, epoch and direction. -/
def Twins (first second : Frame F) : Prop :=
  first.epoch = second.epoch ∧ first.scope = second.scope ∧ sameBeat first second = true

namespace OutboxRun

structure Sound (run : OutboxRun F) : Prop where
  thinned : Thinned (fun old new => newerPosition old new = true)
    (fun old new => superseded old new = true) run.accepted (run.popped ++ run.queue.queued)
  room : run.queue.frames.length ≤ run.queue.capacity
  single : run.queue.queued.Pairwise fun first second => ¬ Twins first second
  sticky : run.refusedOne = true → run.queue.refused ≠ none

variable {run : OutboxRun F}

theorem start_sound (capacity : Nat) : (start capacity : OutboxRun F).Sound where
  thinned := thinned_nil
  room := Nat.zero_le _
  single := .nil
  sticky refused := nomatch refused

/-- A queued heartbeat of the frame's kind and lane is older, so the frame supersedes it. -/
theorem Sound.superseded_of_twins (sound : run.Sound) {frame queued : Frame F}
    (rising : run.Rising frame) (inside : queued ∈ run.queue.queued) (twins : Twins queued frame) :
    superseded queued frame = true := by
  obtain ⟨epoch, scope, beat⟩ := twins
  have old : queued ∈ run.accepted :=
    sound.thinned.sublist.subset (mem_append_right _ inside)
  exact superseded_iff.mpr ⟨⟨epoch, scope, rising queued old epoch scope⟩, sameBeat_iff.mp beat⟩

theorem twins_of_superseded {first second frame : Frame F} (one : superseded first frame = true)
    (other : superseded second frame = true) : Twins first second := by
  obtain ⟨⟨firstEpoch, firstScope, _⟩, firstBeat⟩ := superseded_iff.mp one
  obtain ⟨⟨secondEpoch, secondScope, _⟩, secondBeat⟩ := superseded_iff.mp other
  refine ⟨firstEpoch.trans secondEpoch.symm, firstScope.trans secondScope.symm, ?_⟩
  rw [sameBeat_iff]
  rcases firstBeat with ⟨one, _, here, there⟩ | ⟨one, _, here, there⟩
  · rcases secondBeat with ⟨other, _, also, _⟩ | ⟨_, _, _, pong⟩
    · exact .inl ⟨one, other, here, also⟩
    · cases there.symm.trans pong
  · rcases secondBeat with ⟨_, _, _, ping⟩ | ⟨other, _, also, _⟩
    · cases there.symm.trans ping
    · exact .inr ⟨one, other, here, also⟩

theorem not_twins_position {queued frame : Frame F}
    (position : ∃ point, frame.message = .motion (.absolute point)) : ¬ Twins queued frame := by
  rintro ⟨_, _, beat⟩
  obtain ⟨_, absolute⟩ := position
  rcases sameBeat_iff.mp beat with ⟨_, _, _, ping⟩ | ⟨_, _, _, pong⟩
  · cases absolute.symm.trans ping
  · cases absolute.symm.trans pong

section
variable (sound : run.Sound)
include sound

/-- A push in place: the new position stands where the old one stood. -/
theorem Sound.replace {frame tail : Frame F} {since : Duration}
    {front : List (Frame F × Duration)} (split : run.queue.frames = front ++ [(tail, since)])
    (newer : newerPosition tail frame = true) :
    Sound { run with
      queue := { run.queue with frames := front ++ [(frame, since)] }
      accepted := run.accepted ++ [frame] } := by
  have before : run.queue.queued = front.map (·.1) ++ [tail] := by simp [Queue.queued, split]
  obtain ⟨_, _, position⟩ := newerPosition_iff.mp newer
  refine ⟨?_, ?_, ?_, sound.sticky⟩
  · have thinned := sound.thinned
    rw [before, ← append_assoc] at thinned
    have replaced := thinned.replace newer
    simpa [Queue.queued] using replaced
  · have room := sound.room
    rw [split] at room
    simpa using room
  · have single := sound.single
    rw [before, pairwise_append] at single
    simp only [Queue.queued, map_append, map_cons, map_nil]
    exact pairwise_concat.mpr ⟨single.1, fun other _ => not_twins_position position⟩

/-- A push that takes a stale heartbeat out and stands behind all others. -/
theorem Sound.supersede {frame old : Frame F} {since : Duration}
    (rising : run.Rising frame) {front back : List (Frame F × Duration)}
    (split : run.queue.frames = front ++ (old, since) :: back)
    (stale : superseded old frame = true) :
    Sound { run with
      queue := { run.queue with frames := front ++ back ++ [(frame, since)] }
      accepted := run.accepted ++ [frame] } := by
  have before : run.queue.queued = front.map (·.1) ++ old :: back.map (·.1) := by
    simp [Queue.queued, split]
  refine ⟨?_, ?_, ?_, sound.sticky⟩
  · have thinned := sound.thinned
    rw [before, ← append_assoc] at thinned
    have left := thinned.supersede stale
    simpa [Queue.queued, append_assoc] using left
  · have room := sound.room
    rw [split] at room
    simp only [length_append, length_cons] at room ⊢
    exact room
  have single := sound.single
  rw [before, pairwise_append, pairwise_cons] at single
  obtain ⟨fronts, ⟨behind, backs⟩, across⟩ := single
  have lone : ∀ other ∈ front.map (·.1) ++ back.map (·.1), ¬ Twins other frame := by
    intro other member twins
    have inside : other ∈ run.queue.queued := by
      rw [before]
      rcases mem_append.mp member with ahead | after
      · exact mem_append_left _ ahead
      · exact mem_append_right _ (mem_cons_of_mem _ after)
    have also := sound.superseded_of_twins rising inside twins
    -- The frame taken out was a twin of this one, and the queue held no twins.
    rcases mem_append.mp member with ahead | after
    · exact across other ahead old mem_cons_self (twins_of_superseded also stale)
    · exact behind other after (twins_of_superseded stale also)
  simp only [Queue.queued, map_append, map_cons, map_nil]
  rw [pairwise_concat, pairwise_append]
  refine ⟨⟨fronts, backs, fun other ahead later after => ?_⟩, lone⟩
  exact across other ahead later (mem_cons_of_mem _ after)

/-- A push behind a queue that holds nothing stale. -/
theorem Sound.extend {frame : Frame F} (rising : run.Rising frame)
    (now : Duration) (room : run.queue.frames.length < run.queue.capacity)
    (fresh : ∀ other ∈ run.queue.frames, superseded other.1 frame = false) :
    Sound { run with
      queue := { run.queue with frames := run.queue.frames ++ [(frame, now)] }
      accepted := run.accepted ++ [frame] } := by
  refine ⟨?_, by rw [length_append]; exact room, ?_, sound.sticky⟩
  · have pushed := sound.thinned.push frame
    simpa [Queue.queued, append_assoc] using pushed
  simp only [Queue.queued, map_append, map_cons, map_nil]
  refine pairwise_concat.mpr ⟨sound.single, fun other member twins => ?_⟩
  have stale := sound.superseded_of_twins rising member twins
  obtain ⟨entry, inside, rfl⟩ := mem_map.mp member
  exact Bool.false_ne_true ((fresh entry inside).symm.trans stale)

theorem Sound.pushed {frame : Frame F} (rising : run.Rising frame)
    (now : Duration) : (run.pushed frame now).Sound := by
  unfold OutboxRun.pushed
  rcases run.queue.push_cases frame with ⟨refusal, refused, answer⟩ |
    ⟨_, front, tail, since, split, newer, answer⟩ | ⟨_, answer⟩
  · rw [answer]
    exact { sound with sticky := fun _ none_ => nomatch refused.symm.trans none_ }
  · rw [answer]
    exact sound.replace split newer
  rw [answer]
  rcases Queue.append_of_room sound.room with
    ⟨front, old, since, back, split, stale, _, answer⟩ | ⟨fresh, answer | ⟨room, answer⟩⟩
  · rw [answer]
    exact sound.supersede rising split stale
  · rw [answer]
    exact { sound with sticky := fun _ none_ => nomatch none_ }
  · rw [answer]
    exact sound.extend rising now room fresh

theorem Sound.popped : (run.after .pop).Sound := by
  unfold after Queue.pop
  cases found : run.queue.frames with
  | nil => simpa [found] using sound
  | cons entry rest =>
    obtain ⟨frame, waiting⟩ := entry
    have thinned := sound.thinned
    have room := sound.room
    have single := sound.single
    simp only [Queue.queued, found, map_cons, length_cons, pairwise_cons]
      at thinned room single
    refine ⟨?_, Nat.le_of_succ_le room, single.2, sound.sticky⟩
    simpa [Queue.queued, append_assoc] using thinned

theorem Sound.after {call : OutboxCall F}
    (rising : ∀ frame now, call = .push frame now → run.Rising frame) : (run.after call).Sound := by
  cases call with
  | push frame now => exact sound.pushed (rising frame now rfl) now
  | pop => exact sound.popped
  | written => exact ⟨sound.thinned, sound.room, sound.single, sound.sticky⟩
  | close => exact ⟨sound.thinned, sound.room, sound.single, fun _ none_ => nomatch none_⟩

end

theorem reachable_sound {capacity : Nat} (reachable : (outboxRuns F capacity).Reachable run) :
    run.Sound := by
  refine reachable.invariant Sound ?_ ?_
  · rintro _ rfl
    exact start_sound capacity
  · rintro first call _ sound ⟨rising, rfl⟩
    exact sound.after rising

theorem Sound.waits (sound : run.Sound) (frame : Frame F) (now : Duration) {oldest : Duration}
    (waiting : run.queue.waitingSince = some oldest) :
    ∃ since ≤ oldest, (run.queue.push frame now).2.waitingSince = some since := by
  rcases run.queue.push_cases frame with ⟨_, _, answer⟩ |
    ⟨_, front, tail, since, split, _, answer⟩ | ⟨_, answer⟩
  · rw [answer]
    exact ⟨oldest, Nat.le_refl _, waiting⟩
  · rw [answer]
    refine Queue.waitingSince_le waiting rfl fun other member => ?_
    simpa [split] using member
  rw [answer]
  rcases Queue.append_of_room sound.room with
    ⟨front, old, since, back, split, _, _, answer⟩ | ⟨_, answer | ⟨_, answer⟩⟩
  · rw [answer]
    refine Queue.waitingSince_le waiting rfl fun other member => ?_
    rw [split] at member
    simp only [map_append, map_cons, mem_append, mem_cons, map_nil] at member ⊢
    tauto
  · rw [answer]
    exact ⟨oldest, Nat.le_refl _, waiting⟩
  · rw [answer]
    refine Queue.waitingSince_le waiting rfl fun other member => ?_
    simp only [map_append, mem_append]
    exact .inl member

end OutboxRun

/-- Outbox order.  In every run the frames popped, followed by those queued, are the accepted pushes
in push order; a frame is left out only if the very next accepted push is a newer position of its
lane and it is a position too, or if a later heartbeat of its kind and lane superseded it.  No two
heartbeats of one kind and lane are queued; once a push is refused every later one is; and a push
never moves the oldest wait later. -/
theorem outbox_order {capacity : Nat} {run : OutboxRun F}
    (reachable : (outboxRuns F capacity).Reachable run) :
    Thinned (fun old new => newerPosition old new = true) (fun old new => superseded old new = true)
      run.accepted (run.popped ++ run.queue.queued) ∧
    (run.queue.queued.Pairwise fun first second => ¬ Twins first second) ∧
    (run.refusedOne = true → ∀ frame now, ∃ refusal,
      run.queue.push frame now = (.error refusal, run.queue)) ∧
    ∀ frame now oldest, run.queue.waitingSince = some oldest →
      ∃ since ≤ oldest, (run.queue.push frame now).2.waitingSince = some since := by
  have sound := OutboxRun.reachable_sound reachable
  refine ⟨sound.thinned, sound.single, fun refusedOne frame now => ?_, fun frame now _ =>
    sound.waits frame now⟩
  obtain ⟨refusal, refused⟩ := Option.ne_none_iff_exists'.mp (sound.sticky refusedOne)
  exact ⟨refusal, by simp only [Queue.push, refused]⟩

namespace OutboxRun

def beat (sequence : Nat) : Frame Int := .new ⟨1, Nat.one_pos⟩ sequence (.ping sequence)

def move (sequence : Nat) : Frame Int :=
  .new ⟨1, Nat.one_pos⟩ sequence (.motion (.absolute ⟨sequence, 0⟩))

/-- A challenge and a position, the newer ones that take their places, and a frame too many. -/
def pushes : List (OutboxCall Int) :=
  [.push (beat 1) 10, .push (move 2) 20, .push (move 3) 30, .push (beat 4) 40,
    .push (.new ⟨1, Nat.one_pos⟩ 5 .releaseAll) 50]

def beaten : OutboxRun Int := pushes.foldl after (start 2)

theorem beaten_reachable : (outboxRuns Int 2).Reachable beaten := by
  refine ⟨start 2, pushes, rfl, .cons ⟨?_, rfl⟩ (.cons ⟨?_, rfl⟩ (.cons ⟨?_, rfl⟩
    (.cons ⟨?_, rfl⟩ (.cons ⟨?_, rfl⟩ (.nil _)))))⟩
  all_goals
    rintro _ _ ⟨⟩
    unfold Rising
    decide

theorem outbox_order_beaten :
    (outboxRuns Int 2).Reachable beaten ∧ beaten.accepted = [beat 1, move 2, move 3, beat 4] ∧
      beaten.popped ++ beaten.queue.queued = [move 3, beat 4] ∧
      Thinned (fun old new => newerPosition old new = true)
        (fun old new => superseded old new = true)
        [beat 1, move 2, move 3, beat 4] [move 3, beat 4] ∧
      (beaten.queue.queued.Pairwise fun first second => ¬ Twins first second) ∧
      (∃ refusal, beaten.queue.push (beat 6) 60 = (.error refusal, beaten.queue)) ∧
      ∃ since ≤ 10, (beaten.queue.push (beat 6) 60).2.waitingSince = some since := by
  obtain ⟨thinned, single, refuses, waits⟩ := outbox_order beaten_reachable
  exact ⟨beaten_reachable, by decide, by decide, thinned, single, refuses (by decide) (beat 6) 60,
    waits (beat 6) 60 10 (by decide)⟩

end OutboxRun
end Monhop.Transport
