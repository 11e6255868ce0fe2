import Monhop.Core.Types
import Monhop.Library.Calls

/-! # Settling display changes

Displays that drop out and come back inside the settle window never end a session; a change that
holds, or displays that stay unreadable, do.

The tracker keeps two times and a flag.  What they stand for is said of the calls alone:

* `RecoversAt` — a run of matching rereads after the last alarm reaches the steady time.
* `SuspectedSince` — the alarm the current suspicion began with.
* `ChangedBy` — a read that differs finds the suspicion as old as the limit.
* `Tracks` — what the tracker's fields stand for; `DisplaySettle.Follows.take` — every call keeps it.
* `display_settling` — every verdict of every sequence of calls.
-/

namespace Monhop.Core

open Library

def DISPLAY_SETTLE_LIMIT : Duration := .fromSecs 3
def DISPLAY_STEADY_FOR : Duration := .fromMillis 250

/-- One reread compared with the displays the session started on. -/
inductive DisplayRead where
  | same
  | different
  | unreadable
  deriving DecidableEq

inductive DisplayVerdict where
  /-- The displays match the session's and nothing is suspected. -/
  | steady
  | unsettled
  /-- The session's displays came back after being away this long. -/
  | recovered (away : Duration)
  /-- Different or unreadable for the whole settle window. -/
  | changed
  deriving DecidableEq

structure DisplaySettle where
  limit : Duration
  steadyFor : Duration
  since : Option Duration
  matchingSince : Option Duration
  decided : Bool

namespace DisplaySettle

def withTiming (limit steadyFor : Duration) : DisplaySettle :=
  { limit, steadyFor, since := none, matchingSince := none, decided := false }

def new : DisplaySettle := withTiming DISPLAY_SETTLE_LIMIT DISPLAY_STEADY_FOR

variable (settle : DisplaySettle)

/-- The platform said displays changed without a reread. -/
def suspect (now : Duration) : DisplaySettle :=
  { settle with since := some (settle.since.getD now), matchingSince := none }

def expire (since now : Duration) : DisplayVerdict × DisplaySettle :=
  if now - since ≥ settle.limit then (.changed, { settle with decided := true })
  else (.unsettled, settle)

def observe (read : DisplayRead) (now : Duration) : DisplayVerdict × DisplaySettle :=
  if settle.decided then (.changed, settle)
  else
    match settle.since with
    | none =>
      if read = .same then (.steady, settle)
      else { settle with since := some now }.expire now now
    | some since =>
      if read ≠ .same then { settle with matchingSince := none }.expire since now
      else
        let began := settle.matchingSince.getD now
        if now - began ≥ settle.steadyFor then
          (.recovered (began - since), { settle with since := none, matchingSince := none })
        else (.unsettled, { settle with matchingSince := some began })

end DisplaySettle

/-! ## Sequences of calls -/

inductive SettleCall where
  | suspect (now : Duration)
  | observe (read : DisplayRead) (now : Duration)

namespace SettleCall

def now : SettleCall → Duration
  | .suspect now | .observe _ now => now

/-- The call says the displays may have changed. -/
def alarms : SettleCall → Bool
  | .suspect _ => true
  | .observe read _ => read ≠ .same

end SettleCall

namespace DisplaySettle

/-- What one call answers, none for a suspicion, and what it leaves. -/
def take (settle : DisplaySettle) : SettleCall → Option DisplayVerdict × DisplaySettle
  | .suspect now => (none, settle.suspect now)
  | .observe read now =>
    let (verdict, settle) := settle.observe read now
    (some verdict, settle)

/-- The answer to the call at `index`, none for a suspicion. -/
def verdict (settle : DisplaySettle) (calls : List SettleCall) (index : Nat) :
    Option DisplayVerdict :=
  (replyAt take settle calls index).join

end DisplaySettle

section Calls
variable (calls : List SettleCall)

def timeAt (index : Nat) : Duration := (calls[index]?.map SettleCall.now).getD 0

def AlarmAt (index : Nat) : Prop := ∃ call, calls[index]? = some call ∧ call.alarms = true

def SameAt (index : Nat) : Prop := ∃ now, calls[index]? = some (.observe .same now)

/-- The call is a read that differs or finds the displays unreadable. -/
def DiffersAt (index : Nat) : Prop :=
  ∃ read now, calls[index]? = some (.observe read now) ∧ read ≠ .same

/-- Every call after the alarm up to `index` is a read of the same displays. -/
def SameSince (alarm index : Nat) : Prop :=
  AlarmAt calls alarm ∧ alarm < index ∧ ∀ between, alarm < between → between ≤ index →
    SameAt calls between

/-- The run of same reads that began after the last alarm first spans the steady time. -/
def RecoversAt (steadyFor : Duration) (index : Nat) : Prop :=
  ∃ alarm, SameSince calls alarm index ∧
    steadyFor ≤ timeAt calls index - timeAt calls (alarm + 1) ∧
    ∀ between, alarm < between → between < index →
      timeAt calls between - timeAt calls (alarm + 1) < steadyFor

/-- The suspicion open after the first `count` calls began with the alarm: no recovery came
since, and one came between every earlier alarm and it. -/
def SuspectedSince (steadyFor : Duration) (alarm count : Nat) : Prop :=
  AlarmAt calls alarm ∧ alarm < count ∧
    (∀ between, alarm < between → between < count → ¬ RecoversAt calls steadyFor between) ∧
    ∀ earlier < alarm, AlarmAt calls earlier →
      ∃ between, earlier < between ∧ between < alarm ∧ RecoversAt calls steadyFor between

/-- Among the first `count` calls a read that differs came the limit or more after the suspicion
it met, or began, had begun. -/
def ChangedBy (limit steadyFor : Duration) (count : Nat) : Prop :=
  ∃ index < count, DiffersAt calls index ∧ ∃ alarm,
    SuspectedSince calls steadyFor alarm (index + 1) ∧
      limit ≤ timeAt calls index - timeAt calls alarm

end Calls

section Facts
variable {calls : List SettleCall} {limit steadyFor : Duration} {index count alarm : Nat}

theorem not_sameAt_of_alarmAt (alarmed : AlarmAt calls index) : ¬ SameAt calls index := by
  obtain ⟨call, here, alarms⟩ := alarmed
  rintro ⟨now, same⟩
  obtain rfl : call = .observe .same now := Option.some.inj (here.symm.trans same)
  cases alarms

theorem RecoversAt.sameAt (recovers : RecoversAt calls steadyFor index) : SameAt calls index := by
  obtain ⟨alarm, ⟨-, before, same⟩, -⟩ := recovers
  exact same index before le_rfl

/-- The last alarm before a run of same reads is one. -/
theorem SameSince.unique {other later : Nat} (run : SameSince calls alarm index)
    (others : SameSince calls other later) (first : other < index) (second : alarm < later) :
    alarm = other := by
  obtain ⟨alarmed, -, same⟩ := run
  obtain ⟨otherAlarmed, -, otherSame⟩ := others
  rcases lt_trichotomy alarm other with before | equal | past
  · exact absurd (same other before first.le) (not_sameAt_of_alarmAt otherAlarmed)
  · exact equal
  · exact absurd (otherSame alarm past second.le) (not_sameAt_of_alarmAt alarmed)

/-- An alarm no recovery followed belongs to an open suspicion. -/
theorem exists_suspectedSince (alarmed : AlarmAt calls alarm) (before : alarm < count)
    (unrecovered : ∀ between, alarm < between → between < count →
      ¬ RecoversAt calls steadyFor between) :
    ∃ first ≤ alarm, SuspectedSince calls steadyFor first count := by
  induction alarm using Nat.strongRecOn with
  | ind alarm ih =>
    by_cases first : ∀ earlier < alarm, AlarmAt calls earlier →
        ∃ between, earlier < between ∧ between < alarm ∧ RecoversAt calls steadyFor between
    · exact ⟨alarm, le_rfl, alarmed, before, unrecovered, first⟩
    -- an earlier alarm was not recovered from either
    push Not at first
    obtain ⟨earlier, older, alarmedEarlier, none⟩ := first
    obtain ⟨start, older', suspected⟩ := ih earlier older alarmedEarlier
      (older.trans before) fun between after inside recovers => by
        rcases lt_trichotomy between alarm with early | rfl | late
        · exact none between after early recovers
        · exact not_sameAt_of_alarmAt alarmed recovers.sameAt
        · exact unrecovered between late inside recovers
    exact ⟨start, older'.trans older.le, suspected⟩

theorem SuspectedSince.unique {other : Nat} (first : SuspectedSince calls steadyFor alarm count)
    (second : SuspectedSince calls steadyFor other count) : alarm = other := by
  obtain ⟨alarmed, before, unrecovered, oldest⟩ := first
  obtain ⟨otherAlarmed, otherBefore, otherUnrecovered, otherOldest⟩ := second
  rcases lt_trichotomy alarm other with older | equal | newer
  · obtain ⟨between, after, inside, recovers⟩ := otherOldest alarm older alarmed
    exact absurd recovers (unrecovered between after (inside.trans otherBefore))
  · exact equal
  · obtain ⟨between, after, inside, recovers⟩ := oldest other newer otherAlarmed
    exact absurd recovers (otherUnrecovered between after (inside.trans before))

theorem suspectedSince_succ (quiet : ¬ RecoversAt calls steadyFor count) :
    SuspectedSince calls steadyFor alarm (count + 1) ↔
      SuspectedSince calls steadyFor alarm count ∨
        alarm = count ∧ AlarmAt calls count ∧
          ∀ first, ¬ SuspectedSince calls steadyFor first count := by
  constructor
  · rintro ⟨alarmed, before, unrecovered, oldest⟩
    rcases Nat.lt_succ_iff_lt_or_eq.mp before with earlier | rfl
    · exact .inl ⟨alarmed, earlier,
        fun between after inside => unrecovered between after (inside.trans (Nat.lt_succ_self _)),
        oldest⟩
    · refine .inr ⟨rfl, alarmed, fun first suspected => ?_⟩
      obtain ⟨between, after, inside, recovers⟩ := oldest first suspected.2.1 suspected.1
      exact suspected.2.2.1 between after inside recovers
  · rintro (⟨alarmed, before, unrecovered, oldest⟩ | ⟨rfl, alarmed, none⟩)
    · refine ⟨alarmed, before.trans (Nat.lt_succ_self _), fun between after inside => ?_, oldest⟩
      rcases Nat.lt_succ_iff_lt_or_eq.mp inside with earlier | rfl
      · exact unrecovered between after earlier
      · exact quiet
    · refine ⟨alarmed, Nat.lt_succ_self _, fun between after inside => by omega, ?_⟩
      intro earlier older alarmedEarlier
      by_contra unrecovered
      push Not at unrecovered
      obtain ⟨first, -, suspected⟩ := exists_suspectedSince alarmedEarlier older unrecovered
      exact none first suspected

theorem not_suspectedSince_of_recovers (recovers : RecoversAt calls steadyFor count) :
    ¬ SuspectedSince calls steadyFor alarm (count + 1) := by
  rintro ⟨alarmed, before, unrecovered, -⟩
  rcases Nat.lt_succ_iff_lt_or_eq.mp before with earlier | rfl
  · exact unrecovered count earlier (Nat.lt_succ_self _) recovers
  · exact not_sameAt_of_alarmAt alarmed recovers.sameAt

theorem changedBy_succ : ChangedBy calls limit steadyFor (count + 1) ↔
    ChangedBy calls limit steadyFor count ∨ DiffersAt calls count ∧
      ∃ alarm, SuspectedSince calls steadyFor alarm (count + 1) ∧
        limit ≤ timeAt calls count - timeAt calls alarm :=
  Nat.exists_lt_succ_right

theorem SameSince.succ (run : SameSince calls alarm index) (same : SameAt calls (index + 1)) :
    SameSince calls alarm (index + 1) := by
  obtain ⟨alarmed, before, all⟩ := run
  refine ⟨alarmed, by omega, fun between after inside => ?_⟩
  rcases Nat.le_succ_iff.mp inside with earlier | rfl
  · exact all between after earlier
  · exact same

theorem sameSince_single (alarmed : AlarmAt calls index) (same : SameAt calls (index + 1)) :
    SameSince calls index (index + 1) := by
  refine ⟨alarmed, Nat.lt_succ_self _, fun between after inside => ?_⟩
  obtain rfl : between = index + 1 := by omega
  exact same

/-- Whether a run of same reads recovers now is read off where it began. -/
theorem recoversAt_iff (run : SameSince calls alarm index)
    (short : ∀ between, alarm < between → between < index →
      timeAt calls between - timeAt calls (alarm + 1) < steadyFor) :
    RecoversAt calls steadyFor index ↔
      steadyFor ≤ timeAt calls index - timeAt calls (alarm + 1) := by
  constructor
  · rintro ⟨other, run', long, -⟩
    obtain rfl := run.unique run' run'.2.1 run.2.1
    exact long
  · intro long
    exact ⟨alarm, run, long, short⟩

theorem not_recoversAt (calm : ∀ alarm, ¬ SuspectedSince calls steadyFor alarm count) :
    ¬ RecoversAt calls steadyFor count := by
  rintro ⟨alarm, run, -, short⟩
  obtain ⟨first, -, suspected⟩ := exists_suspectedSince run.1 run.2.1
    fun between after inside recovers => by
      obtain ⟨other, run', long, -⟩ := recovers
      obtain rfl := run.unique run' (run'.2.1.trans inside) after
      exact absurd (short between after inside) (not_lt.mpr long)
  exact calm first suspected

end Facts

/-! ## What the tracker's fields stand for -/

/-- The tracker's times and flag after `count` calls. -/
inductive Tracks (calls : List SettleCall) (limit steadyFor : Duration) (count : Nat) :
    Option Duration → Option Duration → Bool → Prop where
  | decided {since matchingSince : Option Duration}
      (changed : ChangedBy calls limit steadyFor count) :
      Tracks calls limit steadyFor count since matchingSince true
  | calm (unchanged : ¬ ChangedBy calls limit steadyFor count)
      (calm : ∀ alarm, ¬ SuspectedSince calls steadyFor alarm count) :
      Tracks calls limit steadyFor count none none false
  | alarmed {first last : Nat} (unchanged : ¬ ChangedBy calls limit steadyFor count)
      (suspected : SuspectedSince calls steadyFor first count)
      (latest : last + 1 = count) (alarmed : AlarmAt calls last) :
      Tracks calls limit steadyFor count (some (timeAt calls first)) none false
  | matching {first last index : Nat} (unchanged : ¬ ChangedBy calls limit steadyFor count)
      (suspected : SuspectedSince calls steadyFor first count)
      (latest : index + 1 = count) (run : SameSince calls last index)
      (short : ∀ between, last < between → between < count →
        timeAt calls between - timeAt calls (last + 1) < steadyFor) :
      Tracks calls limit steadyFor count (some (timeAt calls first))
        (some (timeAt calls (last + 1))) false

/-- What the call at `index` may be answered. -/
inductive Answers (calls : List SettleCall) (limit steadyFor : Duration) (index : Nat) :
    Option DisplayVerdict → Prop where
  | nothing : Answers calls limit steadyFor index none
  | changed (changed : ChangedBy calls limit steadyFor (index + 1)) :
      Answers calls limit steadyFor index (some .changed)
  | steady (unchanged : ¬ ChangedBy calls limit steadyFor (index + 1))
      (calm : ∀ alarm, ¬ SuspectedSince calls steadyFor alarm index)
      (still : ∀ alarm, ¬ SuspectedSince calls steadyFor alarm (index + 1)) :
      Answers calls limit steadyFor index (some .steady)
  | recovered {first last : Nat} (unchanged : ¬ ChangedBy calls limit steadyFor (index + 1))
      (suspected : SuspectedSince calls steadyFor first index) (run : SameSince calls last index)
      (recovers : RecoversAt calls steadyFor index) :
      Answers calls limit steadyFor index
        (some (.recovered (timeAt calls (last + 1) - timeAt calls first)))
  | unsettled {first : Nat} (unchanged : ¬ ChangedBy calls limit steadyFor (index + 1))
      (suspected : SuspectedSince calls steadyFor first (index + 1)) :
      Answers calls limit steadyFor index (some .unsettled)

section Steps
variable {calls : List SettleCall} {limit steadyFor : Duration} {index : Nat}
  {since matchingSince : Option Duration}

theorem timeAt_eq {call : SettleCall} (here : calls[index]? = some call) :
    timeAt calls index = call.now := by
  rw [timeAt, here]
  rfl

theorem Tracks.unchanged (tracks : Tracks calls limit steadyFor index since matchingSince false) :
    ¬ ChangedBy calls limit steadyFor index := by
  cases tracks with
  | calm unchanged | alarmed unchanged | matching unchanged => exact unchanged

/-- Only a read that differs decides a change. -/
theorem Tracks.still (tracks : Tracks calls limit steadyFor index since matchingSince false)
    (agrees : ¬ DiffersAt calls index) : ¬ ChangedBy calls limit steadyFor (index + 1) := by
  rw [changedBy_succ, not_or]
  exact ⟨tracks.unchanged, fun changed => agrees changed.1⟩

/-- An alarm begins a suspicion or belongs to the one open. -/
theorem Tracks.alarm (alarmed : AlarmAt calls index)
    (tracks : Tracks calls limit steadyFor index since matchingSince false) :
    ∃ first, SuspectedSince calls steadyFor first (index + 1) ∧
      since.getD (timeAt calls index) = timeAt calls first := by
  have quiet : ¬ RecoversAt calls steadyFor index :=
    fun recovers => not_sameAt_of_alarmAt alarmed recovers.sameAt
  cases tracks with
  | calm unchanged calm =>
    exact ⟨index, (suspectedSince_succ quiet).mpr (.inr ⟨rfl, alarmed, calm⟩), rfl⟩
  | alarmed unchanged suspected | matching unchanged suspected =>
    exact ⟨_, (suspectedSince_succ quiet).mpr (.inl suspected), rfl⟩

/-- A read that differs decides the change once the suspicion is as old as the limit. -/
theorem Tracks.changedBy_iff (unchanged : ¬ ChangedBy calls limit steadyFor index)
    (differs : DiffersAt calls index) {first : Nat}
    (suspected : SuspectedSince calls steadyFor first (index + 1)) :
    ChangedBy calls limit steadyFor (index + 1) ↔
      limit ≤ timeAt calls index - timeAt calls first := by
  rw [changedBy_succ, or_iff_right unchanged]
  constructor
  · rintro ⟨-, alarm, suspected', long⟩
    rwa [suspected'.unique suspected] at long
  · intro long
    exact ⟨differs, first, suspected, long⟩

/-- While a suspicion is open, the run of same reads this one belongs to is the one the tracker
times. -/
theorem Tracks.run {began : Duration} (same : SameAt calls index)
    (tracks : Tracks calls limit steadyFor index (some began) matchingSince false) :
    ∃ first last, SuspectedSince calls steadyFor first index ∧ began = timeAt calls first ∧
      SameSince calls last index ∧
      matchingSince.getD (timeAt calls index) = timeAt calls (last + 1) ∧
      ∀ between, last < between → between < index →
        timeAt calls between - timeAt calls (last + 1) < steadyFor := by
  generalize held : some began = since at tracks
  cases tracks with
  | calm => cases held
  | @alarmed first last unchanged suspected latest alarmed =>
    subst latest
    exact ⟨first, last, suspected, Option.some.inj held, sameSince_single alarmed same, rfl,
      fun between after inside => by omega⟩
  | @matching first last before unchanged suspected latest run short =>
    subst latest
    exact ⟨first, last, suspected, Option.some.inj held, run.succ same, rfl, short⟩

end Steps

namespace DisplaySettle

/-- The tracker with its timing and what its fields stand for. -/
structure Follows (settle : DisplaySettle) (calls : List SettleCall) (limit steadyFor : Duration)
    (count : Nat) : Prop where
  limit_eq : settle.limit = limit
  steadyFor_eq : settle.steadyFor = steadyFor
  tracks : Tracks calls limit steadyFor count settle.since settle.matchingSince settle.decided

variable {calls : List SettleCall} {limit steadyFor : Duration} {index : Nat} {settle : DisplaySettle}
  {now : Duration} {read : DisplayRead}

section
variable (follows : settle.Follows calls limit steadyFor index)
include follows

theorem Follows.decided
    (decided : settle.decided = true) : ChangedBy calls limit steadyFor (index + 1) := by
  have tracks := follows.tracks
  rw [decided] at tracks
  generalize settle.since = since at tracks
  generalize settle.matchingSince = matchingSince at tracks
  cases tracks with
  | decided changed => exact changedBy_succ.mpr (.inl changed)

theorem Follows.undecided (undecided : settle.decided = false) :
    Tracks calls limit steadyFor index settle.since settle.matchingSince false := by
  have tracks := follows.tracks
  rwa [undecided] at tracks

theorem Follows.suspect (here : calls[index]? = some (.suspect now)) :
    (settle.suspect now).Follows calls limit steadyFor (index + 1) := by
  refine ⟨follows.limit_eq, follows.steadyFor_eq, ?_⟩
  cases flag : settle.decided with
  | true =>
    rw [DisplaySettle.suspect, flag]
    exact .decided (follows.decided flag)
  | false =>
    have tracks := follows.undecided flag
    have alarmed : AlarmAt calls index := ⟨_, here, rfl⟩
    have unchanged := tracks.still fun ⟨_, _, differs, _⟩ => nomatch here.symm.trans differs
    obtain ⟨first, suspected, began⟩ := tracks.alarm alarmed
    rw [timeAt_eq here, SettleCall.now] at began
    rw [DisplaySettle.suspect, flag, began]
    exact .alarmed unchanged suspected rfl alarmed

end

theorem observe_differs (undecided : settle.decided = false) (other : read ≠ .same)
    (calm : settle.since = none → settle.matchingSince = none) :
    settle.observe read now =
      { settle with since := some (settle.since.getD now), matchingSince := none }.expire
        (settle.since.getD now) now := by
  obtain ⟨limit, steadyFor, since, matchingSince, decided⟩ := settle
  cases since with
  | none =>
    obtain rfl : matchingSince = none := calm rfl
    simp [observe, show decided = false from undecided, other]
  | some began => simp [observe, show decided = false from undecided, other]

section
variable (follows : settle.Follows calls limit steadyFor index)
include follows

theorem Follows.calm (undecided : settle.decided = false) (calm : settle.since = none) :
    settle.matchingSince = none ∧ ∀ alarm, ¬ SuspectedSince calls steadyFor alarm index := by
  have tracks := follows.undecided undecided
  rw [calm] at tracks
  generalize settle.matchingSince = matchingSince at tracks
  cases tracks with
  | calm unchanged calm => exact ⟨rfl, calm⟩

theorem Follows.observe_decided (decided : settle.decided = true) :
    Answers calls limit steadyFor index (some (settle.observe read now).1) ∧
      (settle.observe read now).2.Follows calls limit steadyFor (index + 1) := by
  have still := follows.decided decided
  rw [observe, if_pos decided]
  exact ⟨.changed still, follows.limit_eq, follows.steadyFor_eq,
    by rw [decided]; exact .decided still⟩

/-- A read that differs, or finds the displays unreadable, meets or begins a suspicion. -/
theorem Follows.differs (here : calls[index]? = some (.observe read now)) (other : read ≠ .same) :
    Answers calls limit steadyFor index (some (settle.observe read now).1) ∧
      (settle.observe read now).2.Follows calls limit steadyFor (index + 1) := by
  cases flag : settle.decided with
  | true => exact follows.observe_decided flag
  | false =>
    have tracks := follows.undecided flag
    have time : timeAt calls index = now := timeAt_eq here
    have alarmed : AlarmAt calls index := ⟨_, here, by simpa [SettleCall.alarms] using other⟩
    obtain ⟨first, suspected, began⟩ := tracks.alarm alarmed
    have changes := Tracks.changedBy_iff tracks.unchanged ⟨read, now, here, other⟩ suspected
    rw [time] at began changes
    rw [observe_differs flag other fun calm => (follows.calm flag calm).1, began, expire]
    split
    · next long =>
      have changed := changes.mpr (follows.limit_eq ▸ long)
      exact ⟨.changed changed, follows.limit_eq, follows.steadyFor_eq, .decided changed⟩
    · next short =>
      have unchanged := fun changed => short (follows.limit_eq ▸ changes.mp changed)
      refine ⟨.unsettled unchanged suspected, follows.limit_eq, follows.steadyFor_eq, ?_⟩
      rw [flag]
      exact .alarmed unchanged suspected rfl alarmed

/-- A read of the same displays is steady, goes on with a recovery or completes one. -/
theorem Follows.same (here : calls[index]? = some (.observe .same now)) :
    Answers calls limit steadyFor index (some (settle.observe .same now).1) ∧
      (settle.observe .same now).2.Follows calls limit steadyFor (index + 1) := by
  have same : SameAt calls index := ⟨now, here⟩
  have time : timeAt calls index = now := timeAt_eq here
  cases flag : settle.decided with
  | true => exact follows.observe_decided flag
  | false =>
    have tracks := follows.undecided flag
    have unchanged := tracks.still fun ⟨_, _, differs, different⟩ => by
      cases here.symm.trans differs
      exact different rfl
    have notAlarm : ¬ AlarmAt calls index := fun alarmed => not_sameAt_of_alarmAt alarmed same
    rw [observe, if_neg (by simp [flag])]
    cases found : settle.since with
    | none =>
      obtain ⟨none, calm⟩ := follows.calm flag found
      have still : ∀ alarm, ¬ SuspectedSince calls steadyFor alarm (index + 1) := by
        intro alarm suspected
        rcases (suspectedSince_succ (not_recoversAt calm)).mp suspected with before | ⟨-, alarmed, -⟩
        · exact calm alarm before
        · exact notAlarm alarmed
      refine ⟨.steady unchanged calm still, follows.limit_eq, follows.steadyFor_eq, ?_⟩
      simp only [if_true]
      rw [found, none, flag]
      exact .calm unchanged still
    | some began =>
      rw [found] at tracks
      obtain ⟨first, last, suspected, rfl, run, matching, short⟩ := tracks.run same
      have recovers := recoversAt_iff run short
      rw [time] at matching recovers
      simp only [ne_eq, not_true_eq_false, if_false, matching]
      split
      · next long =>
        have recovered := recovers.mpr (follows.steadyFor_eq ▸ long)
        refine ⟨.recovered unchanged suspected run recovered, follows.limit_eq,
          follows.steadyFor_eq, ?_⟩
        rw [flag]
        exact .calm unchanged fun alarm => not_suspectedSince_of_recovers recovered
      · next brief =>
        have quiet := fun recovered => brief (follows.steadyFor_eq ▸ recovers.mp recovered)
        have going := (suspectedSince_succ quiet).mpr (.inl suspected)
        refine ⟨.unsettled unchanged going, follows.limit_eq, follows.steadyFor_eq, ?_⟩
        rw [flag]
        refine .matching unchanged going rfl run fun between after inside => ?_
        rcases Nat.lt_succ_iff_lt_or_eq.mp inside with earlier | rfl
        · exact short between after earlier
        · rw [time]
          exact not_le.mp (follows.steadyFor_eq ▸ brief)

/-- Every call answers as the calls before it say, and leaves a tracker that follows them. -/
theorem Follows.take {call : SettleCall} (here : calls[index]? = some call) :
    Answers calls limit steadyFor index (settle.take call).1 ∧
      (settle.take call).2.Follows calls limit steadyFor (index + 1) := by
  cases call with
  | suspect now => exact ⟨.nothing, follows.suspect here⟩
  | observe read now =>
    by_cases same : read = .same
    · subst same
      exact follows.same here
    · exact follows.differs here same

end

theorem withTiming_follows : (withTiming limit steadyFor).Follows calls limit steadyFor 0 := by
  refine ⟨rfl, rfl, .calm ?_ ?_⟩
  · rintro ⟨index, before, -⟩
    cases before
  · rintro alarm ⟨-, before, -⟩
    cases before

theorem follows_after {count : Nat} (inside : count ≤ calls.length) :
    (afterCalls take (withTiming limit steadyFor) (calls.take count)).Follows calls limit steadyFor
      count :=
  afterCalls_invariant (fun count settle => Follows settle calls limit steadyFor count)
    withTiming_follows (fun _ _ _ here follows => (follows.take here).2) inside

theorem verdict_answers (calls : List SettleCall) (limit steadyFor : Duration) (index : Nat) :
    Answers calls limit steadyFor index ((withTiming limit steadyFor).verdict calls index) := by
  unfold verdict
  cases here : calls[index]? with
  | none =>
    rw [replyAt, here]
    exact .nothing
  | some call =>
    obtain ⟨inside, -⟩ := List.getElem?_eq_some_iff.mp here
    rw [replyAt_eq here]
    exact ((follows_after inside.le).take here).1

end DisplaySettle

theorem ChangedBy.mono {calls : List SettleCall} {limit steadyFor : Duration} {count later : Nat}
    (changed : ChangedBy calls limit steadyFor count) (grows : count ≤ later) :
    ChangedBy calls limit steadyFor later := by
  obtain ⟨index, before, rest⟩ := changed
  exact ⟨index, before.trans_le grows, rest⟩

/-- Display settling.  For every timing and every sequence of calls, whatever a read is answered:
it is Changed exactly when some read up to it that differed or was unreadable came the limit or
more after the suspicion of that moment began, with no recovery between; once Changed, every later
read is; it is Recovered exactly when no change was decided and the run of same reads since the
last alarm first spans the steady time, with how long after the suspicion began that run did; and
it is Steady only when there is no suspicion before the read nor after it. -/
theorem display_settling (limit steadyFor : Duration) (calls : List SettleCall) (index : Nat)
    (verdict : DisplayVerdict)
    (answered : (DisplaySettle.withTiming limit steadyFor).verdict calls index = some verdict) :
    (verdict = .changed ↔ ChangedBy calls limit steadyFor (index + 1)) ∧
    (verdict = .changed → ∀ later ≥ index, ∀ other,
      (DisplaySettle.withTiming limit steadyFor).verdict calls later = some other →
        other = .changed) ∧
    (∀ away, verdict = .recovered away ↔
      ¬ ChangedBy calls limit steadyFor (index + 1) ∧ RecoversAt calls steadyFor index ∧
        ∃ first last, SuspectedSince calls steadyFor first index ∧ SameSince calls last index ∧
          away = timeAt calls (last + 1) - timeAt calls first) ∧
    (verdict = .steady → ∀ alarm, ¬ SuspectedSince calls steadyFor alarm index ∧
      ¬ SuspectedSince calls steadyFor alarm (index + 1)) := by
  have decides : ∀ {later : Nat} {other : DisplayVerdict},
      (DisplaySettle.withTiming limit steadyFor).verdict calls later = some other →
        (other = .changed ↔ ChangedBy calls limit steadyFor (later + 1)) := by
    intro later other found
    have answers := DisplaySettle.verdict_answers calls limit steadyFor later
    rw [found] at answers
    cases answers with
    | changed changed => exact iff_of_true rfl changed
    | steady unchanged | recovered unchanged | unsettled unchanged =>
      exact iff_of_false nofun unchanged
  have answers := DisplaySettle.verdict_answers calls limit steadyFor index
  rw [answered] at answers
  refine ⟨decides answered, ?_, ?_, ?_⟩
  · intro changed later past other found
    exact (decides found).mpr (((decides answered).mp changed).mono (Nat.succ_le_succ past))
  · intro away
    cases answers with
    | changed changed => exact iff_of_false nofun fun ⟨unchanged, _⟩ => unchanged changed
    | steady unchanged calm =>
      exact iff_of_false nofun fun ⟨_, recovers, _⟩ => not_recoversAt calm recovers
    | unsettled unchanged suspected =>
      exact iff_of_false nofun fun ⟨_, recovers, _⟩ =>
        not_suspectedSince_of_recovers recovers suspected
    | @recovered first last unchanged suspected run recovers =>
      constructor
      · rintro same
        cases same
        exact ⟨unchanged, recovers, first, last, suspected, run, rfl⟩
      · rintro ⟨-, -, other, latest, suspected', run', rfl⟩
        rw [suspected.unique suspected', run.unique run' run'.2.1 run.2.1]
  · intro steady alarm
    cases answers with
    | steady unchanged calm still => exact ⟨calm alarm, still alarm⟩
    | changed | recovered | unsettled => cases steady

/-- A flap that comes back, then a change that holds. -/
theorem display_settling_flap :
    (List.range 5).map ((DisplaySettle.withTiming 30 10).verdict [.observe .different 0,
        .observe .same 5, .observe .same 15, .suspect 20, .observe .unreadable 50]) =
      [some .unsettled, some .unsettled, some (.recovered 5), none, some .changed] ∧
    ChangedBy [.observe .different 0, .observe .same 5, .observe .same 15, .suspect 20,
      .observe .unreadable 50] 30 10 5 :=
  ⟨by decide, (display_settling 30 10 _ 4 .changed (by decide)).1.mp rfl⟩

end Monhop.Core
