import Mathlib

/-! # Traces of events

A trace lists what happened, oldest first.  `Answered` says that every event of one kind is
followed by one of another; `Always` that a property holds of every beginning of a trace,
that is, at every moment; `AtEach` that every event finds a property of what came before it.
-/

namespace Monhop.Library

open List
variable {Event : Type}
variable {event : Event} {trace back : List Event} {property : List Event → Prop}

/-- Every asking event is followed by an answering one. -/
def Answered (asks answers : Event → Bool) : List Event → Prop
  | [] => True
  | event :: rest =>
    (asks event = true → ∃ reply ∈ rest, answers reply = true) ∧ Answered asks answers rest

variable {asks answers : Event → Bool}

theorem answered_iff :
    Answered asks answers trace ↔ ∀ before event after, trace = before ++ event :: after →
      asks event = true → ∃ reply ∈ after, answers reply = true := by
  induction trace with
  | nil => simp [Answered]
  | cons first rest ih =>
    simp only [Answered, ih]
    constructor
    · intro ⟨head, tail⟩ before event after split asked
      cases before with
      | nil =>
        simp only [nil_append, List.cons.injEq] at split
        obtain ⟨rfl, rfl⟩ := split
        exact head asked
      | cons other before =>
        simp only [cons_append, List.cons.injEq] at split
        exact tail before event after split.2 asked
    · intro all
      refine ⟨all [] first rest rfl, fun before event after split => ?_⟩
      exact all (first :: before) event after (by rw [split]; rfl)

theorem Answered.append {front : List Event} (answered : Answered asks answers front)
    (quiet : ∀ event ∈ back, asks event = false) : Answered asks answers (front ++ back) := by
  induction front with
  | nil =>
    rw [answered_iff]
    intro before event after split asked
    have member : event ∈ back := by simp_all
    rw [quiet event member] at asked
    cases asked
  | cons first front ih =>
    obtain ⟨head, tail⟩ := answered
    refine ⟨fun asked => ?_, ih tail⟩
    obtain ⟨reply, member, answering⟩ := head asked
    exact ⟨reply, mem_append_left _ member, answering⟩

/-- An answer settles everything before it. -/
theorem answered_of_reply {front : List Event} {reply : Event} (answering : answers reply = true)
    (quiet : ∀ event ∈ reply :: back, asks event = false) :
    Answered asks answers (front ++ reply :: back) := by
  induction front with
  | nil =>
    have none : Answered asks answers [] := trivial
    exact none.append quiet
  | cons first front ih =>
    refine ⟨fun _ => ⟨reply, ?_, answering⟩, ih⟩
    simp

/-- The last event of a trace against those before it. -/
theorem pairwise_concat {related : Event → Event → Prop} :
    (trace ++ [event]).Pairwise related ↔
      trace.Pairwise related ∧ ∀ earlier ∈ trace, related earlier event := by
  simp [pairwise_append]

/-- The property holds at every moment of the trace. -/
def Always (property : List Event → Prop) (trace : List Event) : Prop :=
  ∀ before after, trace = before ++ after → property before

theorem always_nil (holds : property []) : Always property [] := by
  intro before after split
  simp_all

theorem always_concat :
    Always property (trace ++ [event]) ↔ Always property trace ∧ property (trace ++ [event]) := by
  constructor
  · intro always
    refine ⟨fun before after split => always before (after ++ [event]) ?_, always _ [] (by simp)⟩
    rw [split, append_assoc]
  intro ⟨always, last⟩ before after split
  rcases eq_nil_or_concat after with rfl | ⟨rest, final, rfl⟩
  · rw [append_nil] at split
    exact split ▸ last
  · rw [concat_eq_append, ← append_assoc] at split
    exact always before rest (append_inj' split rfl).1

/-- A trace that goes on: the property of its first part, and of all that with what follows. -/
theorem always_append {first second : List Event} :
    Always property (first ++ second) ↔
      Always property first ∧ Always (fun more => property (first ++ more)) second := by
  constructor
  · intro always
    refine ⟨fun before after split => always before (after ++ second) ?_,
      fun before after split => always (first ++ before) after ?_⟩
    · rw [split, append_assoc]
    · rw [split, append_assoc]
  · intro ⟨leading, trailing⟩ before after split
    rcases append_eq_append_iff.mp split with ⟨more, rfl, rest⟩ | ⟨more, same, _⟩
    · exact trailing more after rest
    · exact leading before more same

theorem Always.mono {weaker : List Event → Prop} (always : Always property trace)
    (implies : ∀ before, property before → weaker before) : Always weaker trace :=
  fun before after split => implies before (always before after split)

theorem Always.last (always : Always property trace) : property trace :=
  always trace [] (append_nil trace).symm

/-- Every event finds the property of what happened before it. -/
def AtEach (property : List Event → Event → Prop) (trace : List Event) : Prop :=
  ∀ before event after, trace = before ++ event :: after → property before event

variable {property : List Event → Event → Prop}

theorem atEach_nil : AtEach property [] := by
  intro before event after split
  simp at split

/-- An event of a trace that goes on by one is that one or stood there before. -/
theorem concat_eq_split {before after : List Event} {last : Event}
    (split : trace ++ [last] = before ++ event :: after) :
    (after = [] ∧ trace = before ∧ last = event) ∨
      ∃ rest, after = rest ++ [last] ∧ trace = before ++ event :: rest := by
  rcases eq_nil_or_concat after with rfl | ⟨rest, final, rfl⟩
  · obtain ⟨rfl, same⟩ := append_inj' split rfl
    cases same
    exact .inl ⟨rfl, rfl, rfl⟩
  · rw [concat_eq_append, ← cons_append, ← append_assoc] at split
    obtain ⟨rfl, same⟩ := append_inj' split rfl
    cases same
    exact .inr ⟨rest, concat_eq_append, rfl⟩

theorem countP_concat {Key : Type} (calls : List (Key × Bool)) (key : Key) (granted : Bool) :
    (calls ++ [(key, granted)]).countP (·.2) = calls.countP (·.2) + granted.toNat := by
  cases granted <;> simp

/-- What follows finds all of the first part before it. -/
theorem atEach_append :
    AtEach property (trace ++ back) ↔
      AtEach property trace ∧ AtEach (fun before => property (trace ++ before)) back := by
  constructor
  · exact fun each => ⟨fun before event after split => each before event (after ++ back) (by
      simp [split]), fun before event after split => each (trace ++ before) event after (by
      simp [split])⟩
  · intro ⟨leading, trailing⟩ before event after split
    rcases append_eq_append_iff.mp split with ⟨more, rfl, rest⟩ | ⟨_ | ⟨head, more⟩, rfl, rest⟩
    · exact trailing more event after rest
    · simpa using trailing [] event after rest.symm
    · cases rest
      exact leading before event more rfl

theorem atEach_single : AtEach property [event] ↔ property [] event := by
  refine ⟨fun each => each [] event [] rfl, fun holds before other after split => ?_⟩
  simp_all [cons_eq_append_iff]

theorem atEach_concat :
    AtEach property (trace ++ [event]) ↔ AtEach property trace ∧ property trace event := by
  rw [atEach_append, atEach_single, append_nil]

theorem AtEach.append (each : AtEach property trace)
    (quiet : ∀ event ∈ back, ∀ before, property before event) :
    AtEach property (trace ++ back) :=
  atEach_append.mpr ⟨each, fun _ event _ split => quiet event (by simp [split]) _⟩

end Monhop.Library
