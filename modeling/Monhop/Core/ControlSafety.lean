import Monhop.Core.ControlChannel
import Monhop.Library.Trace
import Monhop.Protocol.CodecSafety

/-! # One command at a time

`Mailbox.Kept` is the invariant of the two threads: the submitting thread writes only while
nothing is outstanding, the capture thread reads only while something is, so neither sees the
other's half of a change.

* `command_slot` — what holds of the slot in every interleaving.
* `Mailbox.read_outstanding` — the capture thread finds a published command.
-/

namespace Monhop.Core

open List Function ControlCompletion
open Library (Lts AtEach atEach_nil atEach_concat)
open Protocol (FloatBits u64Max)

namespace MailboxEvent

variable {F : Type}

def accepted? : MailboxEvent F → Option (Nat × CaptureCommand F)
  | accepted revision command => some (revision, command)
  | _ => none

def observed? : MailboxEvent F → Option (Nat × CaptureCommand F)
  | observed revision command => some (revision, command)
  | _ => none

def finished? : MailboxEvent F → Option (Nat × ControlCompletion)
  | finished revision completion => some (revision, completion)
  | _ => none

/-- The slot says that a command went through, or takes another one. -/
def Succeeds : MailboxEvent F → Prop
  | accepted _ _ | reported (.ok _) | decided _ .applied | finished _ .applied => True
  | _ => False

end MailboxEvent

namespace Mailbox

variable {F : Type}
variable (log : List (MailboxEvent F))

def HasFailed : Prop :=
  ∃ revision, .decided revision .failed ∈ log

/-- The revision is the first or that of a command that was applied. -/
def Applied (revision : Nat) : Prop :=
  revision = 0 ∨ .finished revision .applied ∈ log

/-- What the log may go on with. -/
def Follows (event : MailboxEvent F) : Prop :=
  (event.Succeeds → ¬HasFailed log) ∧
    ∀ revision, event = .reported (.ok revision) → Applied log revision

def accepted : List (Nat × CaptureCommand F) :=
  log.filterMap MailboxEvent.accepted?

def observed : List (Nat × CaptureCommand F) :=
  log.filterMap MailboxEvent.observed?

def finished : List (Nat × ControlCompletion) :=
  log.filterMap MailboxEvent.finished?

/-- A published command waits for its completion. -/
def Outstanding (box : Mailbox F) : Prop := box.requested = box.completed + 1

/-- The capture thread works on the outstanding command. -/
def Serves (box : Mailbox F) (revision : Nat) : Prop :=
  revision = box.requested ∧ box.Outstanding

/-- What the capture thread knows where it stands. -/
def ReaderOk (box : Mailbox F) : Prop :=
  match box.reader with
  | .idle | .looking => True
  | .comparing revision => box.completed ≤ revision ∧ revision ≤ box.requested
  | .choosing revision => box.Serves revision
  | .readingDeadline revision activates =>
    box.Serves revision ∧ box.words .kind = if activates then 1 else 2
  | .readingX revision => box.Serves revision ∧ box.words .kind = 3
  | .readingY revision xBits =>
    box.Serves revision ∧ box.words .kind = 3 ∧ xBits = box.words .positionXBits
  | .holding revision command => box.Serves revision ∧ (revision, command) ∈ observed box.log
  | .completing revision _ => box.Serves revision ∧ ∃ command, (revision, command) ∈ observed box.log
  | .publishing revision completion =>
    box.Serves revision ∧ (completion = .failed ↔ HasFailed box.log) ∧
      ∃ command, (revision, command) ∈ observed box.log
  | .panicked => False

/-- The running submit has published nothing. -/
def Untouched (box : Mailbox F) : Prop :=
  box.requested = box.requestedAtCall ∧ box.words = box.wordsAtCall

section
variable [Scalar F] [FloatBits F]

/-- What holds of the shared words and the log, wherever the threads stand. -/
structure Shared (box : Mailbox F) : Prop where
  numbered : (accepted box.log).map Prod.fst = List.range' 1 box.requested
  inOrder : (finished box.log).map Prod.fst = List.range' 1 box.completed
  behind : box.requested = box.completed ∨ box.Outstanding
  /-- The payload of an outstanding command is the one that was submitted last. -/
  payload : box.Outstanding → ∃ command,
    (accepted box.log).getLast? = some (box.requested, command) ∧ command.encode = .ok box.words
  seen : ∀ pair ∈ observed box.log, pair ∈ accepted box.log
  served : ∀ pair ∈ finished box.log, ∃ command, (pair.1, command) ∈ observed box.log
  failures : ∀ pair ∈ finished box.log, pair.2 = .failed → HasFailed box.log
  status : box.completion = 1 ∧ ¬HasFailed box.log ∨ box.completion = 2 ∧ HasFailed box.log
  follows : AtEach Follows box.log

/-- What the submitting thread knows where it stands. -/
def WriterOk (box : Mailbox F) : Prop :=
  match box.writer with
  | .idle | .asking => True
  | .submitting _ | .refusing _ => box.Untouched
  | .comparing _ previous => box.Untouched ∧ previous = box.requested
  | .checking _ previous =>
    box.Untouched ∧ previous = box.requested ∧ box.completed = box.requested
  | .writing command payload revision left =>
    command.encode = .ok payload ∧ revision = box.requested + 1 ∧
      box.completed = box.requested ∧ ¬HasFailed box.log ∧
      ∀ word ∉ left, box.words word = payload word
  | .asked revision => revision ≤ box.completed
  | .panicked => False

structure Kept (box : Mailbox F) : Prop where
  shared : box.Shared
  writer : box.WriterOk
  reader : box.ReaderOk
  /-- Nothing is outstanding after a failure. -/
  ended : HasFailed box.log → box.Outstanding →
    ∃ revision, box.reader = .publishing revision .failed

end

theorem ReaderOk.when {box : Mailbox F} {reader : ReaderAt F} (knows : box.ReaderOk)
    (stands : box.reader = reader) :
    ReaderOk { box with reader } :=
  stands ▸ knows

/-- With nothing outstanding the capture thread only looks at the revisions. -/
theorem ReaderOk.of_free {box later : Mailbox F} (knows : box.ReaderOk) (free : ¬box.Outstanding)
    (reader : later.reader = box.reader) (completed : later.completed = box.completed)
    (requested : box.requested ≤ later.requested) : later.ReaderOk := by
  unfold ReaderOk at knows ⊢
  rw [reader]
  cases stands : box.reader with
  | idle | looking => trivial
  | comparing revision =>
    rw [stands] at knows
    exact ⟨completed ▸ knows.1, knows.2.trans requested⟩
  | choosing revision =>
    rw [stands] at knows
    exact absurd knows.2 free
  | readingDeadline _ _ | readingX _ | readingY _ _ | holding _ _ | completing _ _
  | publishing _ _ =>
    rw [stands] at knows
    exact absurd knows.1.2 free
  | panicked =>
    rw [stands] at knows
    exact knows.elim

theorem not_outstanding {box : Mailbox F} (settled : box.completed = box.requested) : ¬box.Outstanding := by
  unfold Outstanding
  omega

/-! ### Going on with the log -/

variable {event : MailboxEvent F}

theorem hasFailed_concat {log : List (MailboxEvent F)} :
    HasFailed (log ++ [event]) ↔ HasFailed log ∨ ∃ revision, event = .decided revision .failed := by
  simp only [HasFailed, mem_append, mem_singleton, exists_or, @eq_comm _ event]

theorem hasFailed_other {log : List (MailboxEvent F)}
    (other : ∀ revision, event ≠ .decided revision .failed) :
    HasFailed (log ++ [event]) ↔ HasFailed log := by
  rw [hasFailed_concat, or_iff_left]
  rintro ⟨revision, same⟩
  exact other revision same

theorem filterMap_concat {α β : Type} (f : α → Option β) (front : List α) (last : α) :
    (front ++ [last]).filterMap f = front.filterMap f ++ (f last).toList := by
  cases found : f last <;> simp [found]

@[simp]
theorem accepted_concat (event : MailboxEvent F) :
    accepted (log ++ [event]) = accepted log ++ event.accepted?.toList :=
  filterMap_concat ..

@[simp]
theorem observed_concat (event : MailboxEvent F) :
    observed (log ++ [event]) = observed log ++ event.observed?.toList :=
  filterMap_concat ..

@[simp]
theorem finished_concat (event : MailboxEvent F) :
    finished (log ++ [event]) = finished log ++ event.finished?.toList :=
  filterMap_concat ..

/-- An event that is neither a command's nor a completion's. -/
def Aside (event : MailboxEvent F) : Prop :=
  event.accepted? = none ∧ event.observed? = none ∧ event.finished? = none ∧
    ∀ revision completion, event ≠ .decided revision completion

section
variable [Scalar F] [FloatBits F] {box later : Mailbox F}

section
variable (shared : box.Shared)
include shared

/-- The commands and completions of a longer log: only the new event has to be accounted for. -/
theorem Shared.concat (event : MailboxEvent F)
    (seen : ∀ pair, event.observed? = some pair → pair ∈ accepted box.log)
    (served : ∀ pair, event.finished? = some pair →
      (∃ command, (pair.1, command) ∈ observed box.log) ∧ (pair.2 = .failed → HasFailed box.log)) :
    (∀ pair ∈ observed (box.log ++ [event]), pair ∈ accepted (box.log ++ [event])) ∧
      (∀ pair ∈ finished (box.log ++ [event]),
        ∃ command, (pair.1, command) ∈ observed (box.log ++ [event])) ∧
      ∀ pair ∈ finished (box.log ++ [event]), pair.2 = .failed → HasFailed (box.log ++ [event]) := by
  simp only [accepted_concat, observed_concat, finished_concat, hasFailed_concat, mem_append,
    Option.mem_toList]
  refine ⟨?_, ?_, ?_⟩
  · rintro pair (earlier | new)
    · exact .inl (shared.seen pair earlier)
    · exact .inl (seen pair new)
  · rintro pair (earlier | new)
    · exact (shared.served pair earlier).imp fun _ => .inl
    · exact (served pair new).1.imp fun _ => .inl
  · rintro pair (earlier | new) bad
    · exact .inl (shared.failures pair earlier bad)
    · exact .inl ((served pair new).2 bad)

theorem Shared.aside (aside : Aside event)
    (next : Follows box.log event) : Shared { box with log := box.log ++ [event] } := by
  have failed := @hasFailed_other _ _ box.log fun revision => aside.2.2.2 revision .failed
  obtain ⟨noCommand, notSeen, notFinished, _⟩ := aside
  obtain ⟨seen, served, failures⟩ :=
    shared.concat event (by rw [notSeen]; nofun) (by rw [notFinished]; nofun)
  refine ⟨?_, ?_, shared.behind, ?_, seen, served, failures, ?_,
    atEach_concat.mpr ⟨shared.follows, next⟩⟩
  · simpa [noCommand] using shared.numbered
  · simpa [notFinished] using shared.inOrder
  · simpa [noCommand, Outstanding] using shared.payload
  · simpa [failed] using shared.status

/-- The words of the slot are shared by the threads, their places are not. -/
theorem Shared.move (writer : WriterAt F) (reader : ReaderAt F) :
    Shared { box with writer := writer, reader := reader } :=
  { shared with }

theorem Shared.completion_eq :
    fromEncoded box.completion = some .failed ∧ HasFailed box.log ∨
      fromEncoded box.completion = some .applied ∧ ¬HasFailed box.log := by
  rcases shared.status with ⟨same, fine⟩ | ⟨same, failed⟩
  · exact .inr ⟨by rw [same]; rfl, fine⟩
  · exact .inl ⟨by rw [same]; rfl, failed⟩

end

variable {command : CaptureCommand F} {revision : Nat}

/-- Every revision up to the completed one was applied, unless one failed. -/
theorem Shared.applied (shared : box.Shared) (fine : ¬HasFailed box.log)
    (reached : revision ≤ box.completed) : Applied box.log revision := by
  rcases Nat.eq_zero_or_pos revision with rfl | positive
  · exact .inl rfl
  have member : revision ∈ (finished box.log).map Prod.fst := by
    rw [shared.inOrder, mem_range'_1]
    omega
  obtain ⟨⟨_, completion⟩, found, rfl⟩ := mem_map.mp member
  have applied : completion = .applied := by
    cases completion with
    | applied => rfl
    | failed => exact absurd (shared.failures _ found rfl) fine
  subst applied
  obtain ⟨event, logged, same⟩ := mem_filterMap.mp found
  cases event with
  | finished _ _ =>
    cases same
    exact .inr logged
  | accepted _ _ | refused _ | reported _ | observed _ _ | nothingPending | decided _ _ =>
    cases same

theorem WriterOk.when {writer : WriterAt F} (knows : box.WriterOk) (stands : box.writer = writer) :
    WriterOk { box with writer } :=
  stands ▸ knows

/-- What the submitting thread knows does not depend on where the capture thread stands. -/
theorem WriterOk.of_same (knows : box.WriterOk) (writer : later.writer = box.writer)
    (untouched : box.Untouched → later.Untouched) (requested : later.requested = box.requested)
    (completed : later.completed = box.completed) (words : later.words = box.words)
    (failed : HasFailed later.log ↔ HasFailed box.log) : later.WriterOk := by
  unfold WriterOk at knows ⊢
  rw [writer, requested, completed, words, failed]
  cases stands : box.writer <;> rw [stands] at knows
  case idle | asking => trivial
  case submitting | refusing => exact untouched knows
  case comparing => exact ⟨untouched knows.1, knows.2⟩
  case checking => exact ⟨untouched knows.1, knows.2⟩
  case writing | asked | panicked => exact knows

section
variable (kept : box.Kept)
include kept

theorem Kept.note (aside : Aside event)
    (next : Follows box.log event) : (box.record event).Kept := by
  have failed := @hasFailed_other _ _ box.log fun revision => aside.2.2.2 revision .failed
  have same : observed (box.log ++ [event]) = observed box.log := by simp [aside.2.1]
  refine ⟨kept.shared.aside aside next, kept.writer.of_same rfl id rfl rfl rfl failed, ?_, ?_⟩
  · have reader := kept.reader
    unfold ReaderOk at reader ⊢
    simp only [record, same, failed]
    exact reader
  · simp only [record, failed]
    exact kept.ended

/-! ### The submitting thread -/

theorem Kept.writerAt (writer : WriterAt F)
    (knows : WriterOk { box with writer := writer }) : Kept { box with writer := writer } :=
  ⟨kept.shared.move writer box.reader, knows, kept.reader, kept.ended⟩

/-- A payload word is stored only while nothing is outstanding. -/
theorem Kept.store {payload : Payload} {word : ControlWord} {left : List ControlWord}
    (stands : box.writer = .writing command payload revision (word :: left)) :
    Kept { box with
      words := update box.words word (payload word)
      writer := .writing command payload revision left } := by
  obtain ⟨encoded, next, settled, fine, stored⟩ := kept.writer.when stands
  have free := not_outstanding settled
  refine ⟨{ kept.shared with payload := fun outstanding => absurd outstanding free }, ?_,
    kept.reader.of_free free rfl rfl le_rfl, kept.ended⟩
  refine ⟨encoded, next, settled, fine, fun other member => ?_⟩
  change update box.words word (payload word) other = payload other
  by_cases same : other = word
  · rw [same, update_self]
  · rw [update_of_ne same]
    exact stored other (by simp [same, member])

/-- With all words stored, the revision publishes the command. -/
theorem Kept.publish {payload : Payload}
    (stands : box.writer = .writing command payload revision []) :
    Kept ({ box with requested := revision, writer := .idle }.record
      (.accepted revision command)) := by
  have knows := kept.writer
  unfold WriterOk at knows
  rw [stands] at knows
  obtain ⟨encoded, rfl, settled, fine, stored⟩ := knows
  have free := not_outstanding settled
  have written : box.words = payload := funext fun word => stored word not_mem_nil
  have failed : ¬HasFailed (box.log ++ [.accepted (box.requested + 1) command]) :=
    mt (@hasFailed_other _ (.accepted _ command) _ nofun).mp fine
  have shared := kept.shared
  obtain ⟨seen, served, failures⟩ := shared.concat (.accepted _ command) nofun nofun
  refine ⟨⟨?_, ?_, .inr ?_, fun _ => ⟨command, ?_, written ▸ encoded⟩, seen, served, failures, ?_, ?_⟩,
    trivial, kept.reader.of_free free rfl rfl (Nat.le_succ _), fun has => absurd has failed⟩
  · simp [record, MailboxEvent.accepted?, shared.numbered, range'_1_concat, Nat.add_comm]
  · simpa [record, MailboxEvent.finished?] using shared.inOrder
  · change box.requested + 1 = box.completed + 1
    rw [settled]
  · simp [record, MailboxEvent.accepted?]
  · rcases shared.status with ⟨same, _⟩ | ⟨_, bad⟩
    · exact .inl ⟨same, failed⟩
    · exact absurd bad fine
  · exact atEach_concat.mpr ⟨shared.follows, fun _ => fine, nofun⟩

theorem write_kept (stepped : box.write = some later) : later.Kept := by
  have knows := kept.writer
  unfold WriterOk at knows
  unfold write at stepped
  cases stands : box.writer <;> rw [stands] at knows stepped
  case idle | panicked => cases stepped
  case submitting command =>
    cases stepped
    exact kept.writerAt _ ⟨knows, rfl⟩
  case comparing command previous =>
    cases stepped
    split
    next => exact kept.writerAt _ knows.1
    next same => exact kept.writerAt _ ⟨knows.1, knows.2, by rw [← knows.2]; exact not_not.mp same⟩
  case checking command previous =>
    cases stepped
    obtain ⟨untouched, rfl, settled⟩ := knows
    have fine (notFailed : ¬fromEncoded box.completion = some .failed) :
        ¬HasFailed box.log := by
      rcases kept.shared.completion_eq with ⟨bad, _⟩ | ⟨_, fine⟩
      · exact absurd bad notFailed
      · exact fine
    split
    next => exact kept.writerAt _ untouched
    next notFailed =>
      split
      next => exact kept.writerAt _ untouched
      next =>
        cases encoded : command.encode with
        | error error => exact kept.writerAt _ untouched
        | ok payload =>
          refine kept.writerAt _ ⟨encoded, rfl, settled, fine notFailed, fun word unwritten => ?_⟩
          cases word <;> exact absurd (by decide) unwritten
  case writing command payload revision left =>
    cases left with
    | nil =>
      cases stepped
      exact kept.publish stands
    | cons word left =>
      cases stepped
      exact kept.store stands
  case refusing error =>
    cases stepped
    exact (kept.writerAt .idle trivial).note ⟨rfl, rfl, rfl, nofun⟩ ⟨nofun, nofun⟩
  case asking =>
    cases stepped
    exact kept.writerAt _ (le_refl box.completed)
  case asked revision =>
    rcases kept.shared.completion_eq with ⟨encoded, _⟩ | ⟨encoded, fine⟩
    · rw [encoded] at stepped
      cases stepped
      exact (kept.writerAt .idle trivial).note ⟨rfl, rfl, rfl, nofun⟩ ⟨nofun, nofun⟩
    · rw [encoded] at stepped
      cases stepped
      refine (kept.writerAt .idle trivial).note ⟨rfl, rfl, rfl, nofun⟩ ⟨fun _ => fine, fun other same => ?_⟩
      cases same
      exact kept.shared.applied fine knows

/-! ### The capture thread -/

theorem Kept.readerAt (reader : ReaderAt F) (knows : ReaderOk { box with reader := reader })
    (fine : HasFailed box.log → ¬box.Outstanding) : Kept { box with reader := reader } :=
  ⟨kept.shared.move box.writer reader, kept.writer, knows,
    fun failed outstanding => absurd outstanding (fine failed)⟩

/-- Before the capture thread has an outcome, nothing has failed with a command outstanding. -/
theorem Kept.fine {reader : ReaderAt F} (stands : box.reader = reader)
    (early : ∀ revision completion, reader ≠ .publishing revision completion) :
    HasFailed box.log → ¬box.Outstanding := by
  intro failed outstanding
  obtain ⟨revision, publishing⟩ := kept.ended failed outstanding
  exact early revision .failed (stands.symm.trans publishing)

omit kept in
/-- While a command is outstanding the submitting thread does not write. -/
theorem WriterOk.of_outstanding (knows : box.WriterOk) (outstanding : box.Outstanding)
    (writer : later.writer = box.writer) (untouched : box.Untouched → later.Untouched)
    (requested : later.requested = box.requested) (completed : box.completed ≤ later.completed) :
    later.WriterOk := by
  unfold Outstanding at outstanding
  unfold WriterOk at knows ⊢
  rw [writer]
  cases stands : box.writer <;> rw [stands] at knows
  case idle | asking => trivial
  case submitting | refusing => exact untouched knows
  case comparing => exact ⟨untouched knows.1, knows.2.trans requested.symm⟩
  case checking => omega
  case writing => omega
  case asked => exact le_trans knows completed
  case panicked => exact knows

/-- The capture thread has read the outstanding command. -/
theorem Kept.hold (fine : HasFailed box.log → ¬box.Outstanding)
    (serves : box.Serves revision) (last : (revision, command) ∈ accepted box.log) :
    (box.hold revision command).Kept := by
  have shared := kept.shared
  have failed : HasFailed (box.log ++ [.observed revision command]) ↔ HasFailed box.log :=
    hasFailed_other nofun
  obtain ⟨seen, served, failures⟩ := shared.concat (.observed _ _)
    (fun _ same => Option.some.inj same ▸ last) nofun
  refine ⟨⟨?_, ?_, shared.behind, ?_, seen, served, failures, ?_, ?_⟩, ?_, ?_, ?_⟩
  · simpa [Mailbox.hold, record, MailboxEvent.accepted?] using shared.numbered
  · simpa [Mailbox.hold, record, MailboxEvent.finished?] using shared.inOrder
  · simpa [Mailbox.hold, record, MailboxEvent.accepted?, Outstanding] using shared.payload
  · simpa [Mailbox.hold, record, failed] using shared.status
  · exact atEach_concat.mpr ⟨shared.follows, nofun, nofun⟩
  · exact kept.writer.of_same rfl id rfl rfl rfl failed
  · exact ⟨serves, by simp [Mailbox.hold, record, MailboxEvent.observed?]⟩
  · intro bad outstanding
    exact absurd outstanding (fine (failed.mp bad))

theorem Kept.decide {completion : ControlCompletion}
    (stands : box.reader = .completing revision completion) :
    Kept ({ box with
      completion := completion.encoded
      reader := .publishing revision completion }.record (.decided revision completion)) := by
  obtain ⟨serves, observed⟩ := kept.reader.when stands
  have fine : ¬HasFailed box.log := fun bad => kept.fine stands nofun bad serves.2
  have failed : HasFailed (box.log ++ [.decided revision completion]) ↔ completion = .failed := by
    rw [hasFailed_concat, or_iff_right fine]
    constructor
    · rintro ⟨_, same⟩
      cases same
      rfl
    · rintro rfl
      exact ⟨revision, rfl⟩
  have shared := kept.shared
  obtain ⟨seen, served, failures⟩ := shared.concat (.decided revision completion) nofun nofun
  refine ⟨⟨?_, ?_, shared.behind, ?_, seen, served, failures, ?_, ?_⟩, ?_, ?_, ?_⟩
  · simpa [record, MailboxEvent.accepted?] using shared.numbered
  · simpa [record, MailboxEvent.finished?] using shared.inOrder
  · simpa [record, MailboxEvent.accepted?, Outstanding] using shared.payload
  · simp only [record, failed]
    cases completion
    · exact .inl ⟨rfl, nofun⟩
    · exact .inr ⟨rfl, rfl⟩
  · refine atEach_concat.mpr ⟨shared.follows, fun _ => fine, nofun⟩
  · exact kept.writer.of_outstanding serves.2 rfl id rfl le_rfl
  · refine ⟨serves, failed.symm, ?_⟩
    simpa [record, MailboxEvent.observed?] using observed
  · intro bad _
    exact ⟨revision, by rw [failed.mp bad]; rfl⟩

theorem Kept.finish {completion : ControlCompletion}
    (stands : box.reader = .publishing revision completion) :
    Kept ({ box with completed := revision, reader := .idle }.record
      (.finished revision completion)) := by
  have knows := kept.reader
  unfold ReaderOk at knows
  rw [stands] at knows
  obtain ⟨⟨rfl, outstanding⟩, bad, observed⟩ := knows
  have failed : HasFailed (box.log ++ [.finished box.requested completion]) ↔
      HasFailed box.log := hasFailed_other nofun
  have settled : ¬Outstanding ({ box with completed := box.requested, reader := .idle }.record
      (.finished box.requested completion)) := not_outstanding rfl
  have shared := kept.shared
  obtain ⟨seen, served, failures⟩ := shared.concat (.finished _ _) nofun
    fun _ same => Option.some.inj same ▸ ⟨observed, bad.mp⟩
  refine ⟨⟨?_, ?_, .inl rfl, fun still => absurd still settled, seen, served, failures, ?_, ?_⟩, ?_,
    trivial, fun _ still => absurd still settled⟩
  · simpa [record, MailboxEvent.accepted?] using shared.numbered
  · unfold Outstanding at outstanding
    simp [record, MailboxEvent.finished?, shared.inOrder, outstanding, range'_1_concat,
      Nat.add_comm]
  · simpa [record, failed] using shared.status
  · refine atEach_concat.mpr ⟨shared.follows, fun succeeds has => ?_, nofun⟩
    rw [bad.mpr has] at succeeds
    exact succeeds
  · refine kept.writer.of_outstanding outstanding rfl id rfl ?_
    unfold Outstanding at outstanding
    change box.completed ≤ box.requested
    omega

omit kept in
/-- The payload words say which command they are of. -/
theorem encode_eq_ok {words : Payload} (encoded : command.encode = .ok words) :
    (words .kind = 1 ∧ command = .activateRemote (words .deadlineNs)) ∨
      (words .kind = 2 ∧ command = .remoteUntil (words .deadlineNs)) ∨
      (words .kind = 3 ∧ command = .localAt
        ⟨FloatBits.fromBits (words .positionXBits), FloatBits.fromBits (words .positionYBits)⟩) ∨
      (words .kind = 4 ∧ command = .toLocal) := by
  cases command <;> simp only [CaptureCommand.encode] at encoded
  case activateRemote =>
    split at encoded <;> cases encoded
    exact .inl ⟨rfl, rfl⟩
  case remoteUntil =>
    split at encoded <;> cases encoded
    exact .inr (.inl ⟨rfl, rfl⟩)
  case localAt =>
    split at encoded <;> cases encoded
    refine .inr (.inr (.inl ⟨rfl, ?_⟩))
    simp only [Payload.of, FloatBits.fromBits_toBits]
  case toLocal =>
    cases encoded
    exact .inr (.inr (.inr ⟨rfl, rfl⟩))

omit kept in
/-- The last command submitted is the one the payload words give. -/
theorem Shared.last (shared : box.Shared) (serves : box.Serves revision) :
    ∃ command, (revision, command) ∈ accepted box.log ∧ command.encode = .ok box.words := by
  obtain ⟨command, last, encoded⟩ := shared.payload serves.2
  exact ⟨command, serves.1 ▸ mem_of_getLast? last, encoded⟩

theorem read_kept (stepped : box.read = some later) : later.Kept := by
  have knows := kept.reader
  unfold ReaderOk at knows
  unfold read at stepped
  cases stands : box.reader <;> rw [stands] at knows stepped
  case idle | holding | panicked => cases stepped
  case looking =>
    cases stepped
    refine kept.readerAt _ ⟨?_, le_rfl⟩ (kept.fine stands nofun)
    rcases kept.shared.behind with same | outstanding
    · exact same.ge
    · exact outstanding ▸ Nat.le_succ _
  case comparing revision =>
    cases stepped
    have fine := kept.fine stands nofun
    split
    next => exact (kept.readerAt .idle trivial fine).note ⟨rfl, rfl, rfl, nofun⟩ ⟨nofun, nofun⟩
    next differs =>
      refine kept.readerAt _ ?_ fine
      change revision = box.requested ∧ box.requested = box.completed + 1
      rcases kept.shared.behind with same | outstanding
      · omega
      · unfold Outstanding at outstanding
        omega
  case choosing revision =>
    have fine := kept.fine stands nofun
    obtain ⟨command, submitted, encoded⟩ := kept.shared.last knows
    rcases encode_eq_ok encoded with ⟨kind, _⟩ | ⟨kind, _⟩ | ⟨kind, _⟩ | ⟨kind, rfl⟩ <;>
      simp only [kind] at stepped <;> cases stepped
    · exact kept.readerAt _ ⟨knows, kind⟩ fine
    · exact kept.readerAt _ ⟨knows, kind⟩ fine
    · exact kept.readerAt _ ⟨knows, kind⟩ fine
    · exact kept.hold (kept.fine stands nofun) knows submitted
  case readingDeadline revision activates =>
    cases stepped
    obtain ⟨serves, kind⟩ := knows
    obtain ⟨command, submitted, encoded⟩ := kept.shared.last serves
    refine kept.hold (kept.fine stands nofun) serves ?_
    rcases encode_eq_ok encoded with ⟨is, rfl⟩ | ⟨is, rfl⟩ | ⟨is, _⟩ | ⟨is, _⟩ <;>
      cases activates <;> rw [is] at kind <;> first | exact submitted | simp at kind
  case readingX revision =>
    cases stepped
    exact kept.readerAt _ ⟨knows.1, knows.2, rfl⟩ (kept.fine stands nofun)
  case readingY revision xBits =>
    cases stepped
    obtain ⟨serves, kind, rfl⟩ := knows
    obtain ⟨command, submitted, encoded⟩ := kept.shared.last serves
    refine kept.hold (kept.fine stands nofun) serves ?_
    rcases encode_eq_ok encoded with ⟨is, _⟩ | ⟨is, _⟩ | ⟨_, rfl⟩ | ⟨is, _⟩
    · simp [kind] at is
    · simp [kind] at is
    · exact submitted
    · simp [kind] at is
  case completing revision completion =>
    cases stepped
    exact kept.decide stands
  case publishing revision completion =>
    cases stepped
    exact kept.finish stands

theorem next_kept {label : MailboxLabel F}
    (stepped : box.next label = some later) : later.Kept := by
  cases label with
  | write => exact write_kept kept stepped
  | read => exact read_kept kept stepped
  | submit command =>
    simp only [next] at stepped
    split at stepped <;> cases stepped
    exact ⟨{ kept.shared with }, ⟨rfl, rfl⟩, kept.reader, kept.ended⟩
  | completedRevision =>
    simp only [next] at stepped
    split at stepped <;> cases stepped
    exact kept.writerAt _ trivial
  | pending =>
    simp only [next] at stepped
    split at stepped <;> cases stepped
    next stands => exact kept.readerAt _ trivial (kept.fine stands nofun)
    next stands => exact kept.readerAt _ trivial (kept.fine stands nofun)
  | complete completion =>
    simp only [next] at stepped
    split at stepped <;> cases stepped
    next revision command stands =>
      obtain ⟨serves, observed⟩ := kept.reader.when stands
      exact kept.readerAt _ ⟨serves, command, observed⟩ (kept.fine stands nofun)

end

theorem new_kept : (new : Mailbox F).Kept where
  shared :=
    { numbered := rfl
      inOrder := rfl
      behind := .inl rfl
      payload := nofun
      seen := nofun
      served := nofun
      failures := nofun
      status := .inl ⟨rfl, nofun⟩
      follows := atEach_nil }
  writer := trivial
  reader := trivial
  ended := nofun

theorem reachable_kept (reachable : (mailboxLts F).Reachable box) : box.Kept := by
  refine reachable.invariant Kept ?_ fun _ _ _ kept stepped => next_kept kept stepped
  rintro _ rfl
  exact new_kept

/-! ## The slot in every interleaving -/

/-- The capture thread finds the outstanding command when it looks. -/
theorem read_outstanding (kept : box.Kept) (outstanding : box.Outstanding)
    (looks : box.reader = .looking) : ∃ count later command,
      (mailboxLts F).Run box (List.replicate count .read) later ∧
        later.reader = .holding box.requested command ∧
        (accepted box.log).getLast? = some (box.requested, command) := by
  obtain ⟨command, last, encoded⟩ := kept.shared.payload outstanding
  have differs : box.requested ≠ box.completed := by
    rw [outstanding]
    exact Nat.succ_ne_self _
  have reads (reader : ReaderAt F) {later : Mailbox F}
      (found : Mailbox.read { box with reader := reader } = some later) :
      (mailboxLts F).step { box with reader := reader } .read later := found
  have looked : Mailbox.read box = some { box with reader := .comparing box.requested } := by
    simp [read, looks]
  have compared : Mailbox.read { box with reader := .comparing box.requested } =
      some { box with reader := .choosing box.requested } := by
    simp [read, differs]
  have chosen {later : Mailbox F} (count : Nat)
      (rest : (mailboxLts F).Run { box with reader := .choosing box.requested }
        (List.replicate count .read) later) :
      (mailboxLts F).Run box (List.replicate (count + 2) .read) later :=
    .cons looked (.cons (reads _ compared) rest)
  rcases encode_eq_ok encoded with ⟨kind, rfl⟩ | ⟨kind, rfl⟩ | ⟨kind, rfl⟩ | ⟨kind, rfl⟩
  · refine ⟨_, _, _, chosen 2 (.cons (reads _ ?_) (.single (reads (.readingDeadline _ true) rfl))),
      rfl, last⟩
    simp [read, kind]
  · refine ⟨_, _, _, chosen 2 (.cons (reads _ ?_) (.single (reads (.readingDeadline _ false) rfl))),
      rfl, last⟩
    simp [read, kind]
  · refine ⟨_, _, _, chosen 3 (.cons (reads _ ?_) (.cons (reads (.readingX _) rfl)
      (.single (reads (.readingY _ _) rfl)))), rfl, last⟩
    simp [read, kind]
  · refine ⟨_, box.hold box.requested .toLocal, _, chosen 1 (.single (reads _ ?_)), rfl, last⟩
    simp [read, kind, Mailbox.hold]

/-- **One command at a time**, in every interleaving of the two threads. -/
theorem command_slot (reachable : (mailboxLts F).Reachable box) :
    -- the capture thread observes whole commands, each under the revision it was submitted with
    (∀ pair ∈ observed box.log, pair ∈ accepted box.log) ∧
      box.reader ≠ .panicked ∧ box.writer ≠ .panicked ∧
      -- and it finds a submitted command whenever it looks
      ((accepted box.log).length = (finished box.log).length + 1 → box.reader = .looking →
        ∃ count later command, (mailboxLts F).Run box (List.replicate count .read) later ∧
          later.reader = .holding (accepted box.log).length command ∧
          (accepted box.log).getLast? = some ((accepted box.log).length, command)) ∧
      -- commands are numbered as they come and completed once each in that order, when observed
      (accepted box.log).map Prod.fst = List.range' 1 (accepted box.log).length ∧
      (finished box.log).map Prod.fst = List.range' 1 (finished box.log).length ∧
      (∀ pair ∈ finished box.log, ∃ command, (pair.1, command) ∈ observed box.log) ∧
      -- at most one is outstanding, and the payload words stay its own
      ((accepted box.log).length = (finished box.log).length ∨
        (accepted box.log).length = (finished box.log).length + 1 ∧ ∃ command,
          (accepted box.log).getLast? = some ((accepted box.log).length, command) ∧
            command.encode = .ok box.words) ∧
      -- a submit that is refused has left the published words as it found them
      (∀ error, box.writer = .refusing error →
        box.requested = box.requestedAtCall ∧ box.words = box.wordsAtCall) ∧
      -- no success follows a failure, and a success reported is that of an applied command
      AtEach Follows box.log := by
  have kept := reachable_kept reachable
  have shared := kept.shared
  have submitted : (accepted box.log).length = box.requested := by
    rw [← length_map Prod.fst, shared.numbered, length_range']
  have completed : (finished box.log).length = box.completed := by
    rw [← length_map Prod.fst, shared.inOrder, length_range']
  rw [submitted, completed]
  refine ⟨shared.seen, fun panicked => kept.reader.when panicked,
    fun panicked => kept.writer.when panicked, read_outstanding kept, shared.numbered,
    shared.inOrder, shared.served, ?_, fun _ refuses => kept.writer.when refuses, shared.follows⟩
  rcases shared.behind with same | outstanding
  · exact .inl same
  · exact .inr ⟨outstanding, shared.payload outstanding⟩

end

/-! ### A run -/

namespace ControlRun

open Protocol.CodecRun

/-- A command goes through; the next fails while a submit waits, which is then refused. -/
def labels : List (MailboxLabel Int64) :=
  [.submit (.localAt ⟨3, 4⟩), .pending] ++ List.replicate 4 .write ++ [.read, .read] ++
    List.replicate 4 .write ++ [.pending] ++ List.replicate 5 .read ++
    [.complete .applied, .read, .read, .completedRevision, .write, .write,
      .submit (.remoteUntil 7)] ++ List.replicate 8 .write ++ [.pending] ++
    List.replicate 4 .read ++ [.complete .failed, .read, .read, .submit .toLocal] ++
    List.replicate 3 .write

theorem command_slot_run : ∃ box : Mailbox Int64,
    (accepted box.log, observed box.log, finished box.log) =
        ([(1, .localAt ⟨3, 4⟩), (2, .remoteUntil 7)], [(1, .localAt ⟨3, 4⟩), (2, .remoteUntil 7)],
          [(1, .applied), (2, .failed)]) ∧
      ∀ pair ∈ observed box.log, pair ∈ accepted box.log := by
  have ran : (labels.foldlM Mailbox.next Mailbox.new).map
      (fun box => (accepted box.log, observed box.log, finished box.log)) =
        some ([(1, .localAt ⟨3, 4⟩), (2, .remoteUntil 7)],
          [(1, .localAt ⟨3, 4⟩), (2, .remoteUntil 7)], [(1, .applied), (2, .failed)]) := by
    decide +kernel
  obtain ⟨box, found, history⟩ := Option.map_eq_some_iff.mp ran
  exact ⟨box, history, (command_slot ⟨_, labels, rfl, .of_foldlM (fun _ _ _ _ => id) found⟩).1⟩

end ControlRun
end Mailbox
end Monhop.Core
