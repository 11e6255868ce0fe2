import Mathlib

/-! # Logs thinned on their way out

A log of pushed events is sent on with omissions of two kinds: an event may be *replaced* by the
very next push, and it may be *superseded* by any later one.  `Thinned` says that what was sent is
the log in order with no other omission, the last push never omitted; the three rules are the ways
a log grows.
-/

namespace Monhop.Library

open List
variable {Event : Type}

inductive Fate where
  | sent
  | replaced
  | superseded
  deriving DecidableEq

/-- What became of a pushed event is allowed by what was pushed after it. -/
def Excused (replaces supersedes : Event → Event → Prop) (event : Event) (later : List Event) :
    Fate → Prop
  | .sent => True
  | .replaced => ∃ next rest, later = next :: rest ∧ replaces event next
  | .superseded => ∃ other ∈ later, supersedes event other

/-- Every omission of the log is allowed. -/
def Justified (replaces supersedes : Event → Event → Prop) : List (Event × Fate) → Prop
  | [] => True
  | (event, fate) :: rest =>
    Excused replaces supersedes event (rest.map (·.1)) fate ∧ Justified replaces supersedes rest

def sentOf (log : List (Event × Fate)) : List Event :=
  log.filterMap fun entry => if entry.2 = .sent then some entry.1 else none

/-- What was sent is what was pushed, in order, with the two kinds of omission only; the last event
pushed is never omitted. -/
def Thinned (replaces supersedes : Event → Event → Prop) (pushed sent : List Event) : Prop :=
  ∃ log : List (Event × Fate), log.map (·.1) = pushed ∧ sentOf log = sent ∧
    Justified replaces supersedes log ∧ ∀ front last, log = front ++ [last] → last.2 = .sent

variable {replaces supersedes : Event → Event → Prop} {pushed sent : List Event}

theorem sentOf_append (front back : List (Event × Fate)) :
    sentOf (front ++ back) = sentOf front ++ sentOf back :=
  filterMap_append

theorem Excused.append {event : Event} {later : List Event} {fate : Fate}
    (excused : Excused replaces supersedes event later fate) (more : List Event) :
    Excused replaces supersedes event (later ++ more) fate := by
  cases fate with
  | sent => trivial
  | replaced =>
    obtain ⟨next, rest, rfl, replacing⟩ := excused
    exact ⟨next, rest ++ more, rfl, replacing⟩
  | superseded =>
    obtain ⟨other, member, superseding⟩ := excused
    exact ⟨other, mem_append_left _ member, superseding⟩

theorem Justified.concat {log : List (Event × Fate)} (justified : Justified replaces supersedes log)
    (event : Event) : Justified replaces supersedes (log ++ [(event, .sent)]) := by
  induction log with
  | nil => exact ⟨trivial, trivial⟩
  | cons entry rest ih =>
    refine ⟨?_, ih justified.2⟩
    have longer := justified.1.append [event]
    simpa using longer

/-- What became of one event says nothing about the others. -/
theorem Justified.refate {front back : List (Event × Fate)} {event : Event} {old : Fate}
    (justified : Justified replaces supersedes (front ++ (event, old) :: back)) {new : Fate}
    (excused : Excused replaces supersedes event (back.map (·.1)) new) :
    Justified replaces supersedes (front ++ (event, new) :: back) := by
  induction front with
  | nil => exact ⟨excused, justified.2⟩
  | cons entry rest ih =>
    refine ⟨?_, ih justified.2⟩
    have same : (rest ++ (event, new) :: back).map (·.1) =
        (rest ++ (event, old) :: back).map (·.1) := by simp
    have own : Excused replaces supersedes entry.1
        ((rest ++ (event, old) :: back).map (·.1)) entry.2 := justified.1
    rw [← same] at own
    exact own

/-- A sent event has its entry in the log, between those of the events sent before and after. -/
theorem exists_of_sentOf {log : List (Event × Fate)} {front back : List Event} {event : Event}
    (sent : sentOf log = front ++ event :: back) :
    ∃ before after, log = before ++ (event, .sent) :: after ∧ sentOf before = front ∧
      sentOf after = back := by
  obtain ⟨before, rest, rfl, earlier, found⟩ := filterMap_eq_append_iff.mp sent
  obtain ⟨skipped, entry, after, rfl, none_, some_, later⟩ := filterMap_eq_cons_iff.mp found
  have entered : entry = (event, .sent) := by
    split at some_
    · next fate => exact Prod.ext (Option.some.inj some_) fate
    · cases some_
  refine ⟨before ++ skipped, after, by rw [entered, append_assoc], ?_, later⟩
  rw [sentOf_append, show sentOf skipped = [] from filterMap_eq_nil_iff.mpr none_, append_nil]
  exact earlier

theorem thinned_nil : Thinned replaces supersedes [] [] :=
  ⟨[], rfl, rfl, trivial, fun _ _ split => by simp at split⟩

theorem Thinned.push (thinned : Thinned replaces supersedes pushed sent) (event : Event) :
    Thinned replaces supersedes (pushed ++ [event]) (sent ++ [event]) := by
  obtain ⟨log, rfl, rfl, justified, _⟩ := thinned
  refine ⟨log ++ [(event, .sent)], by simp, by simp [sentOf],
    justified.concat event, fun front last split => ?_⟩
  obtain ⟨_, same⟩ := append_inj' split rfl
  cases same
  rfl

/-- The event sent last gives way to the push that replaces it. -/
theorem Thinned.replace {old new : Event}
    (thinned : Thinned replaces supersedes pushed (sent ++ [old])) (replacing : replaces old new) :
    Thinned replaces supersedes (pushed ++ [new]) (sent ++ [new]) := by
  obtain ⟨log, rfl, sentLog, justified, ends⟩ := thinned
  obtain ⟨before, after, rfl, earlier, later⟩ := exists_of_sentOf sentLog
  -- The last push was sent, so nothing was pushed after the event sent last.
  obtain rfl : after = [] := by
    rcases eq_nil_or_concat after with none_ | ⟨rest, last, rfl⟩
    · exact none_
    · have sentLast : last.2 = .sent :=
        ends (before ++ (old, .sent) :: rest) last (by simp)
      simp [sentOf, concat_eq_append, sentLast] at later
  have longer := justified.concat new
  rw [append_assoc, singleton_append] at longer
  have excused : Excused replaces supersedes old [new] .replaced := ⟨new, [], rfl, replacing⟩
  refine ⟨before ++ (old, .replaced) :: [(new, .sent)], by simp, ?_,
    longer.refate excused, fun front last split => ?_⟩
  · rw [sentOf_append, earlier]
    rfl
  have last_ : before ++ (old, .replaced) :: [(new, .sent)] =
      (before ++ [(old, .replaced)]) ++ [(new, .sent)] := by simp
  obtain ⟨_, same⟩ := append_inj' (last_.symm.trans split) rfl
  cases same
  rfl

/-- An event still to be sent leaves the line for the push that supersedes it. -/
theorem Thinned.supersede {old new : Event} {front back : List Event}
    (thinned : Thinned replaces supersedes pushed (front ++ old :: back))
    (superseding : supersedes old new) :
    Thinned replaces supersedes (pushed ++ [new]) (front ++ back ++ [new]) := by
  obtain ⟨log, rfl, sentLog, justified, _⟩ := thinned
  obtain ⟨before, after, rfl, rfl, rfl⟩ := exists_of_sentOf sentLog
  have longer := justified.concat new
  rw [append_assoc, cons_append] at longer
  have excused : Excused replaces supersedes old ((after ++ [(new, Fate.sent)]).map (·.1))
      .superseded := ⟨new, by simp, superseding⟩
  refine ⟨before ++ (old, .superseded) :: (after ++ [(new, .sent)]), by simp, ?_,
    longer.refate excused, fun front last split => ?_⟩
  · simp [sentOf]
  have last_ : before ++ (old, .superseded) :: (after ++ [(new, .sent)]) =
      (before ++ (old, .superseded) :: after) ++ [(new, .sent)] := by simp
  obtain ⟨_, same⟩ := append_inj' (last_.symm.trans split) rfl
  cases same
  rfl

theorem sentOf_sublist {log : List (Event × Fate)} : (sentOf log).Sublist (log.map (·.1)) := by
  induction log with
  | nil => exact .slnil
  | cons entry rest ih =>
    by_cases kept : entry.2 = .sent
    · have head : sentOf (entry :: rest) = entry.1 :: sentOf rest := by simp [sentOf, kept]
      rw [head]
      exact ih.cons_cons _
    · have head : sentOf (entry :: rest) = sentOf rest := by simp [sentOf, kept]
      rw [head]
      exact ih.cons _

/-- Only pushed events are sent, in the order they were pushed. -/
theorem Thinned.sublist (thinned : Thinned replaces supersedes pushed sent) :
    sent.Sublist pushed := by
  obtain ⟨log, rfl, rfl, _⟩ := thinned
  exact sentOf_sublist

end Monhop.Library
