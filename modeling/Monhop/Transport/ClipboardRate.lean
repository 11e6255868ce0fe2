import Monhop.Core.Types
import Monhop.Library.Calls
import Monhop.Library.Trace
import Monhop.Library.Transition
import Monhop.Library.Window

/-! # The pacing of clipboard streams

The sender opens a stream only while fewer than `maxStreamsPerWindow` stand in its window, and the
receiver refuses a stream that finds as many in its own, shorter one.  Streams that arrive within
the receiver's window were opened within the sender's, as long as their delays differ by no more
than the windows do.
-/

namespace Monhop.Transport

open Monhop.Core Library List

def maxStreamsPerWindow : Nat := 16
def maxViolations : Nat := 4

structure ClipboardLimits where
  inboundWindow : Duration
  /-- Longer, so that only jitter above the difference makes a paced sender look too fast. -/
  outboundWindow : Duration

def ClipboardLimits.production : ClipboardLimits :=
  { inboundWindow := .fromSecs 10, outboundWindow := .fromSecs 11 }

/-! ## The sender -/

structure ClipboardSender where
  opened : List Duration
  opening : Bool
  deriving DecidableEq

/-- None when another stream may open now, else when the oldest open leaves the window. -/
def ClipboardSender.openBudget (limits : ClipboardLimits) (sender : ClipboardSender)
    (now : Duration) : Option Duration × ClipboardSender :=
  let opened := sender.opened.dropWhile fun time => decide (limits.outboundWindow ≤ now - time)
  (if opened.length ≥ maxStreamsPerWindow then
    some ((opened.head?.map fun time => time + limits.outboundWindow).getD now) else none,
    { sender with opened })

inductive SenderEvent where
  /-- The loop comes by with something to send. -/
  | wanted (now : Duration)
  /-- The loop comes by with nothing to send, which drops an opening. -/
  | unwanted
  /-- The opening ends, with a stream or without one. -/
  | opened (now : Duration)

/-- A sender, its clock and the times its streams were opened at, oldest first. -/
structure SenderRun where
  now : Duration
  sender : ClipboardSender
  streams : List Duration
  deriving DecidableEq

namespace SenderRun

variable (limits : ClipboardLimits)

def next (run : SenderRun) : SenderEvent → Option SenderRun
  | .wanted now =>
    if now < run.now then none
    else if run.sender.opening then some { run with now }
    else
      let (wake, sender) := run.sender.openBudget limits now
      some { run with now, sender := { sender with opening := wake.isNone } }
  | .unwanted => some { run with sender := { run.sender with opening := false } }
  | .opened now =>
    if now < run.now || !run.sender.opening then none
    else
      some { now, sender := { opened := run.sender.opened ++ [now], opening := false }
             streams := run.streams ++ [now] }

def Initial (run : SenderRun) : Prop :=
  run.sender = { opened := [], opening := false } ∧ run.streams = []

def lts : Lts SenderRun SenderEvent := .ofNext Initial (next limits)

/-- A stream finds room in the window that ends with it. -/
def Paced (before : List Duration) (stream : Duration) : Prop :=
  (recent id limits.outboundWindow stream before).length < maxStreamsPerWindow

structure Kept (run : SenderRun) : Prop where
  ordered : run.streams.Pairwise (· ≤ ·)
  past : ∀ stream ∈ run.streams, stream ≤ run.now
  /-- What the sender no longer counts is out of the window. -/
  counted : ∃ old, run.streams = old ++ run.sender.opened ∧
    ∀ stream ∈ old, limits.outboundWindow ≤ run.now - stream
  room : run.sender.opening = true → run.sender.opened.length < maxStreamsPerWindow
  paced : AtEach (Paced limits) run.streams

variable {limits} {run after : SenderRun}

theorem Kept.later (kept : Kept limits run) {now : Duration} (le : run.now ≤ now) :
    Kept limits { run with now } := by
  obtain ⟨old, split, out⟩ := kept.counted
  exact { kept with
    past := fun stream member => (kept.past stream member).trans le
    counted := ⟨old, split, fun stream member =>
      (out stream member).trans (Nat.sub_le_sub_right le _)⟩ }

theorem Kept.budget (kept : Kept limits run) :
    Kept limits { run with
      sender := { (run.sender.openBudget limits run.now).2 with
        opening := (run.sender.openBudget limits run.now).1.isNone } } := by
  obtain ⟨old, split, out⟩ := kept.counted
  refine { kept with counted := ?_, room := fun allowed => ?_ }
  · refine ⟨old ++ run.sender.opened.takeWhile
      fun time => decide (limits.outboundWindow ≤ run.now - time), ?_, fun stream member => ?_⟩
    · rw [append_assoc, ClipboardSender.openBudget, takeWhile_append_dropWhile]
      exact split
    · rcases mem_append.mp member with member | member
      · exact out stream member
      · simpa using mem_takeWhile_imp member
  · simpa [ClipboardSender.openBudget] using allowed

/-- The streams of the window that ends now are among those the sender counts. -/
theorem Kept.open (kept : Kept limits run) (opening : run.sender.opening = true) :
    Kept limits { run with
      sender := { opened := run.sender.opened ++ [run.now], opening := false }
      streams := run.streams ++ [run.now] } := by
  obtain ⟨old, split, out⟩ := kept.counted
  refine ⟨pairwise_concat.mpr ⟨kept.ordered, kept.past⟩, ?_, ⟨old, ?_, out⟩, nofun,
    atEach_concat.mpr ⟨kept.paced, ?_⟩⟩
  · exact forall_mem_append.mpr ⟨kept.past, forall_mem_singleton.mpr le_rfl⟩
  · rw [split, append_assoc]
  · rw [Paced, split, recent_append, @recent_eq_nil _ id _ _ _ out, nil_append]
    exact (length_filter_le ..).trans_lt (kept.room opening)

theorem Kept.step {event : SenderEvent} (kept : Kept limits run)
    (stepped : run.next limits event = some after) : Kept limits after := by
  cases event with
  | wanted now =>
    simp only [next] at stepped
    split at stepped
    · cases stepped
    next earlier =>
    have later := kept.later (not_lt.mp earlier)
    split at stepped
    · cases stepped
      exact later
    · cases stepped
      exact later.budget
  | unwanted =>
    cases stepped
    exact { kept with room := nofun }
  | opened now =>
    simp only [next, Bool.or_eq_true, decide_eq_true_eq, Bool.not_eq_true'] at stepped
    split at stepped
    · cases stepped
    next allowed =>
    cases stepped
    exact (kept.later (not_lt.mp fun early => allowed (.inl early))).open
      (Bool.not_eq_false _ ▸ fun closed => allowed (.inr closed))

theorem kept_of_reachable (reachable : (lts limits).Reachable run) : Kept limits run := by
  refine reachable.invariant (Kept limits) (fun run initial => ?_) fun _ _ _ => Kept.step
  obtain ⟨sender, streams⟩ := initial
  refine ⟨?_, ?_, ⟨[], ?_, nofun⟩, ?_, ?_⟩
  · simp [streams]
  · simp [streams]
  · rw [streams, sender]
    rfl
  · rw [sender]
    nofun
  · rw [streams]
    exact atEach_nil

/-- No more streams than the limit lie within one window of each other. -/
theorem Kept.length_le (kept : Kept limits run) {some : List Duration}
    (among : some.Subperm run.streams)
    (close : ∀ first ∈ some, ∀ second ∈ some, second - first < limits.outboundWindow) :
    some.length ≤ maxStreamsPerWindow := by
  obtain ⟨line, same, inside⟩ := among
  rw [← same.length_eq]
  rcases eq_nil_or_concat line with rfl | ⟨earlier, last, rfl⟩
  · exact Nat.zero_le _
  rw [concat_eq_append] at *
  have near : recent id limits.outboundWindow last earlier = earlier := by
    refine filter_eq_self.mpr fun stream member => decide_eq_true ?_
    exact close stream (same.subset (by simp [member])) last (same.subset (by simp))
  -- the last of them found all the others in its window
  obtain ⟨front, back, split, before, final⟩ := append_sublist_iff.mp inside
  obtain ⟨between, rest, rfl⟩ := append_of_mem (singleton_sublist.mp final)
  have room := kept.paced (front ++ between) last rest (by rw [split, append_assoc])
  have held : (recent id limits.outboundWindow last earlier).length ≤
      (recent id limits.outboundWindow last (front ++ between)).length :=
    ((before.trans (sublist_append_left front between)).filter _).length_le
  rw [near] at held
  rw [length_append]
  exact lt_of_le_of_lt held room

end SenderRun

/-! ## The receiver -/

structure ClipboardReceiver where
  accepted : List Duration
  lastRateViolation : Option Duration
  violations : Nat
  disabled : Bool

/-- What becomes of an incoming stream. -/
inductive Admission where
  | disabled
  /-- Refused for rate: noted only, or counted as a violation. -/
  | rateLimited (counted : Bool)
  | accepted

namespace ClipboardReceiver

def start : ClipboardReceiver :=
  { accepted := [], lastRateViolation := none, violations := 0, disabled := false }

def violation (receiver : ClipboardReceiver) : ClipboardReceiver :=
  let violations := min (receiver.violations + 1) 255
  { receiver with
    violations, disabled := receiver.disabled || decide (violations ≥ maxViolations) }

def admits (limits : ClipboardLimits) (receiver : ClipboardReceiver) (now : Duration) :
    Admission × ClipboardReceiver :=
  if receiver.disabled then (.disabled, receiver)
  else
    let accepted := receiver.accepted.dropWhile fun time => decide (limits.inboundWindow ≤ now - time)
    let receiver := { receiver with accepted }
    if accepted.length ≥ maxStreamsPerWindow then
      if receiver.lastRateViolation.any fun time => decide (now - time < limits.inboundWindow) then
        (.rateLimited false, receiver)
      else (.rateLimited true, { receiver with lastRateViolation := some now }.violation)
    else (.accepted, { receiver with accepted := accepted ++ [now] })

end ClipboardReceiver

inductive IntakeEvent where
  /-- A stream opened at `opened` on the sender's clock comes in at `accepted` on the receiver's. -/
  | stream (opened accepted : Duration)
  /-- A stream accepted before breaks a rule. -/
  | violation

def intake (limits : ClipboardLimits) (receiver : ClipboardReceiver) :
    IntakeEvent → Option Admission × ClipboardReceiver
  | .stream _ accepted => (receiver.admits limits accepted).map some id
  | .violation => (none, receiver.violation)

/-- The streams that came in, each with its opening and its arrival. -/
def arrivals (events : List IntakeEvent) : List (Duration × Duration) :=
  events.filterMap fun
    | .stream opened accepted => some (opened, accepted)
    | .violation => none

section
variable {limits : ClipboardLimits} {receiver : ClipboardReceiver} {now : Duration}
variable {events : List IntakeEvent} {index : Nat}

theorem arrivals_take_succ {event : IntakeEvent} (here : events[index]? = some event) :
    arrivals (events.take (index + 1)) = arrivals (events.take index) ++ arrivals [event] := by
  rw [take_add_one, here, Option.toList_some, arrivals, filterMap_append]
  rfl

theorem admit_accepted :
    ((receiver.admits limits now).2.accepted).Sublist (receiver.accepted ++ [now]) := by
  have fewer : (receiver.accepted.dropWhile fun time =>
      decide (limits.inboundWindow ≤ now - time)).Sublist receiver.accepted :=
    dropWhile_sublist _
  unfold ClipboardReceiver.admits
  dsimp only
  repeat' split
  · exact sublist_append_left ..
  · exact fewer.trans (sublist_append_left ..)
  · exact fewer.trans (sublist_append_left ..)
  · exact fewer.append_right _

theorem accepted_sublist (inside : index ≤ events.length) :
    ((afterCalls (intake limits) .start (events.take index)).accepted).Sublist
      ((arrivals (events.take index)).map Prod.snd) := by
  refine afterCalls_invariant (fun index (receiver : ClipboardReceiver) => receiver.accepted.Sublist
    ((arrivals (events.take index)).map Prod.snd)) ?_ (fun index event receiver here kept => ?_) inside
  · exact nil_sublist _
  · rw [arrivals_take_succ here, map_append]
    cases event with
    | stream opened accepted => exact admit_accepted.trans (kept.append_right _)
    | violation => exact kept.trans (sublist_append_left ..)

theorem admit_rateLimited {counted : Bool} (ordered : receiver.accepted.Pairwise (· ≤ ·))
    (limited : (receiver.admits limits now).1 = .rateLimited counted) :
    maxStreamsPerWindow ≤ (recent id limits.inboundWindow now receiver.accepted).length := by
  rw [← dropWhile_eq_recent (by rwa [map_id])]
  unfold ClipboardReceiver.admits at limited
  dsimp only at limited
  split at limited
  · cases limited
  split at limited
  · next full => exact full
  · cases limited

theorem opened_near {opened accepted opened' accepted' now inbound outbound : Nat}
    (past : accepted' ≤ now) (near : now - accepted < inbound)
    (itself : ((accepted : Int) - opened) - (accepted - opened) ≤ outbound - inbound)
    (steady : ((accepted : Int) - opened) - (accepted' - opened') ≤ outbound - inbound) :
    opened' - opened < outbound := by
  omega

/-- Streams that arrive within the receiver's window were opened within the sender's. -/
theorem SenderRun.Kept.arrivals_le {run : SenderRun} (kept : SenderRun.Kept limits run)
    {some : List (Duration × Duration)} (among : (some.map Prod.fst).Subperm run.streams)
    (near : ∀ stream ∈ some, stream.2 ≤ now ∧ now - stream.2 < limits.inboundWindow)
    (steady : ∀ first ∈ some, ∀ second ∈ some,
      ((first.2 : Int) - first.1) - (second.2 - second.1) ≤
        limits.outboundWindow - limits.inboundWindow) :
    some.length ≤ maxStreamsPerWindow := by
  rw [← length_map Prod.fst]
  refine kept.length_le among fun early first late second => ?_
  obtain ⟨one, oneIn, rfl⟩ := mem_map.mp first
  obtain ⟨other, otherIn, rfl⟩ := mem_map.mp second
  exact opened_near (near other otherIn).1 (near one oneIn).2 (steady one oneIn one oneIn)
    (steady one oneIn other otherIn)

/-- A sender that keeps to its budget is never refused for rate, in any order its streams come in,
each at most once, while their delays differ by no more than the windows do. -/
theorem honest_sender_not_rateLimited {run : SenderRun}
    (reachable : (SenderRun.lts limits).Reachable run)
    (delivered : ((arrivals events).map Prod.fst).Subperm run.streams)
    (ordered : ((arrivals events).map Prod.snd).Pairwise (· ≤ ·))
    (steady : ∀ first ∈ arrivals events, ∀ second ∈ arrivals events,
      ((first.2 : Int) - first.1) - (second.2 - second.1) ≤
        limits.outboundWindow - limits.inboundWindow) (index : Nat) (counted : Bool) :
    replyAt (intake limits) .start events index ≠ some (some (.rateLimited counted)) := by
  intro limited
  cases here : events[index]? with
  | none => simp [replyAt, here] at limited
  | some event =>
    rw [replyAt_eq here] at limited
    cases event with
    | violation => cases limited
    | stream opened accepted =>
      have refused := Option.some.inj (Option.some.inj limited)
      have before := @accepted_sublist limits events index (List.getElem?_eq_some_iff.mp here).1.le
      have whole : (arrivals (events.take index) ++ [(opened, accepted)]).Sublist (arrivals events) := by
        have upTo : (arrivals (events.take (index + 1))).Sublist (arrivals events) :=
          (take_sublist ..).filterMap _
        rwa [arrivals_take_succ here] at upTo
      have inOrder := ordered.sublist (whole.map Prod.snd)
      rw [map_append, pairwise_append] at inOrder
      have full := admit_rateLimited (inOrder.1.sublist before) refused
      obtain ⟨pairs, among, same⟩ := sublist_map_iff.mp
        ((recent_sublist : (recent id limits.inboundWindow accepted _).Sublist _).trans before)
      -- those the receiver counts and the one it refuses are one too many for the sender's window
      have close : ∀ stream ∈ pairs, stream.2 ≤ accepted ∧
          accepted - stream.2 < limits.inboundWindow := by
        intro stream member
        have counted : stream.2 ∈ recent id limits.inboundWindow accepted _ :=
          same ▸ mem_map_of_mem member
        exact ⟨inOrder.2.2 _ (mem_map_of_mem (among.subset member)) _ (by simp),
          of_decide_eq_true (mem_filter.mp counted).2⟩
      have count : maxStreamsPerWindow ≤ pairs.length := by
        rwa [same, length_map] at full
      have window : 0 < limits.inboundWindow := by
        cases pairs with
        | nil => cases count
        | cons first rest => exact (Nat.zero_le _).trans_lt (close first mem_cons_self).2
      have near : ∀ stream ∈ pairs ++ [(opened, accepted)], stream.2 ≤ accepted ∧
          accepted - stream.2 < limits.inboundWindow :=
        forall_mem_append.mpr
          ⟨close, forall_mem_singleton.mpr ⟨le_rfl, by rwa [Nat.sub_self]⟩⟩
      have inside := (among.append_right [(opened, accepted)]).trans whole
      have fits := (SenderRun.kept_of_reachable reachable).arrivals_le
        ((inside.map Prod.fst).subperm.trans delivered) near fun first firstIn second secondIn =>
          steady first (inside.subset firstIn) second (inside.subset secondIn)
      rw [length_append, length_singleton] at fits
      exact absurd (count.trans_lt fits) (lt_irrefl _)

end

/-- A full window of streams, two of which overtake each other, all delayed by a second but one more
that waits for room. -/
theorem honest_sender_not_rateLimited_overtaking : let late : Duration := .fromSecs 11
    let run : SenderRun :=
      { now := late, streams := range 16 ++ [late]
        sender := { opened := range' 1 15 ++ [late], opening := false } }
    let second : Duration := .fromSecs 1
    (SenderRun.lts .production).Reachable run ∧ ∀ index counted,
      replyAt (intake .production) .start ([.stream 1 second, .violation, .stream 0 second] ++
        (range' 2 14).map (fun time => .stream time (second + time)) ++ [.stream late late]) index ≠
          some (some (.rateLimited counted)) := by
  intro late run second
  have reachable : (SenderRun.lts .production).Reachable run :=
    ⟨{ now := 0, sender := { opened := [], opening := false }, streams := [] },
      (range 16).flatMap (fun time => [.wanted time, .opened time]) ++
        [.wanted 16, .wanted late, .opened late], ⟨rfl, rfl⟩,
      .of_foldlM (fun _ _ _ _ => id) (by decide +kernel)⟩
  refine ⟨reachable, honest_sender_not_rateLimited reachable (Perm.subperm ?_) ?_ ?_⟩
  all_goals decide +kernel

end Monhop.Transport
