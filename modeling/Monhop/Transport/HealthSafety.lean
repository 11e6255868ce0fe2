import Monhop.Library.Calls
import Monhop.Transport.Health

/-! # Health proof is always fresh

`PeerHealth` over every sequence of its calls, in normal and in held mode, with any pong tokens.

* `PeerHealth.Recorded` — what the counters say of the challenges, replies and holds so far.
* `health_proof_is_fresh` — the results, over every run.
-/

namespace Monhop.Transport

open Monhop.Core Library Protocol List Option PeerHealth HealthCall

namespace PeerHealth

variable {health : PeerHealth} {call : HealthCall} {error : HealthError}

/-! ## Runs -/

section
variable (start : PeerHealth) (calls : List HealthCall)

def afterFirst (count : Nat) : PeerHealth :=
  afterCalls PeerHealth.call start (calls.take count)

def answer (index : Nat) : Option (Except HealthError HealthReply) :=
  replyAt PeerHealth.call start calls index

def Issued (index token : Nat) : Prop :=
  ∃ reply, start.answer calls index = some (.ok reply) ∧ reply.issued = some token

/-- The call at `index` was a pong for `token` and was not refused. -/
def Ponged (index token : Nat) : Prop :=
  ∃ call reply, calls[index]? = some call ∧ call.pong = some token ∧
    start.answer calls index = some (.ok reply)

def Entered (index : Nat) : Prop :=
  ∃ call reply, calls[index]? = some call ∧ call.holds = true ∧
    start.answer calls index = some (.ok reply)

/-- What the counters say of the first `count` calls. -/
structure Recorded (count : Nat) (health : PeerHealth) : Prop where
  /-- The challenges issued so far are those below the next token. -/
  issued : ∀ token, (∃ index < count, start.Issued calls index token) ↔
    0 < token ∧ token < health.nextToken
  acked : health.lastAcked < health.nextToken
  ponged : ∀ index < count, ∀ token, start.Ponged calls index token → token ≤ health.lastAcked
  /-- A hold counts every challenge before it as answered. -/
  held : ∀ index < count, start.Entered calls index → ∀ earlier < index, ∀ token,
    start.Issued calls earlier token → token ≤ health.lastAcked
  /-- The last challenge is the latest, and the clock is past it. -/
  sent : ∀ index < count, ∀ token call, start.Issued calls index token →
    calls[index]? = some call → ∃ last : Nat, health.lastSent = some last ∧ call.now ≤ last
  clock : ∀ last : Nat, health.lastSent = some last → last ≤ health.lastNow

end

variable {start : PeerHealth} {calls : List HealthCall} {index count : Nat}
  {reply : Except HealthError HealthReply} {after : PeerHealth}

theorem change_at (start : PeerHealth) (here : calls[index]? = some call) :
    ∃ reply, start.answer calls index = some reply ∧
      Change (start.afterFirst calls index) call reply (start.afterFirst calls (index + 1)) := by
  refine ⟨_, replyAt_eq here, ?_⟩
  rw [afterFirst, afterFirst, afterCalls_take_succ here]
  exact call_change _ call

theorem change_of (here : calls[index]? = some call)
    (answered : start.answer calls index = some reply) :
    Change (start.afterFirst calls index) call reply (start.afterFirst calls (index + 1)) := by
  obtain ⟨other, found, change⟩ := start.change_at here
  exact some.inj (found.symm.trans answered) ▸ change

section
variable (recorded : Recorded start calls count health)
include recorded

theorem Recorded.quiet (answered : start.answer calls count = some reply)
    (quiet : ∀ answer, reply = .ok answer → answer.issued = none)
    (next : after.nextToken = health.nextToken) (sent : after.lastSent = health.lastSent)
    (bound : after.lastAcked < after.nextToken) (acked : health.lastAcked ≤ after.lastAcked)
    (clock : health.lastNow ≤ after.lastNow)
    (ponged : ∀ token, start.Ponged calls count token → token ≤ after.lastAcked)
    (held : start.Entered calls count → after.lastAcked + 1 = health.nextToken) :
    Recorded start calls (count + 1) after := by
  have none : ∀ token, ¬ start.Issued calls count token := by
    rintro token ⟨answer, found, issued⟩
    rw [quiet answer (some.inj (answered.symm.trans found))] at issued
    cases issued
  refine ⟨fun token => ?_, bound, ?_, ?_, ?_, fun last found => ?_⟩
  · rw [next, ← recorded.issued token, Nat.exists_lt_succ_right, or_iff_left (none token)]
  · refine Nat.forall_lt_succ_right.mpr ⟨fun index before token found => ?_, ponged⟩
    exact le_trans (recorded.ponged index before token found) acked
  · refine Nat.forall_lt_succ_right.mpr
      ⟨fun index before entered earlier older token issued => ?_,
        fun entered earlier older token issued => ?_⟩
    · exact le_trans (recorded.held index before entered earlier older token issued) acked
    · have below := ((recorded.issued token).mp ⟨earlier, older, issued⟩).2
      have edge := held entered
      omega
  · rw [sent]
    exact Nat.forall_lt_succ_right.mpr
      ⟨recorded.sent, fun token _ issued => absurd issued (none token)⟩
  · rw [sent] at found
    exact le_trans (recorded.clock last found) clock

theorem Recorded.challenged (here : calls[count]? = some call)
    (answered : start.answer calls count = some (.ok (.challenge (some health.nextToken))))
    (clock : health.lastNow ≤ call.now) (noPong : ∀ token, ¬ start.Ponged calls count token)
    (noHold : ¬ start.Entered calls count) :
    Recorded start calls (count + 1)
      { health with
        lastNow := call.now, nextToken := health.nextToken + 1, lastSent := some call.now } := by
  have own : ∀ token, start.Issued calls count token ↔ token = health.nextToken := by
    intro token
    constructor
    · rintro ⟨answer, found, issued⟩
      cases answered.symm.trans found
      exact (some.inj issued).symm
    · rintro rfl
      exact ⟨_, answered, rfl⟩
  have acked := recorded.acked
  refine ⟨fun token => ?_, Nat.lt_succ_of_lt acked, ?_, ?_, ?_, ?_⟩
  · rw [Nat.exists_lt_succ_right, recorded.issued token, own token]
    dsimp only
    omega
  · exact Nat.forall_lt_succ_right.mpr
      ⟨recorded.ponged, fun token found => absurd found (noPong token)⟩
  · exact Nat.forall_lt_succ_right.mpr ⟨recorded.held, fun entered => absurd entered noHold⟩
  · refine Nat.forall_lt_succ_right.mpr
      ⟨fun index before token other issued found => ?_, fun token other issued found => ?_⟩
    · obtain ⟨last, sent, past⟩ := recorded.sent index before token other issued found
      exact ⟨_, rfl, le_trans past (le_trans (recorded.clock last sent) clock)⟩
    · cases here.symm.trans found
      exact ⟨_, rfl, le_rfl⟩
  · rintro last ⟨⟩
    exact le_rfl

theorem Recorded.change
    (here : calls[count]? = some call) (answered : start.answer calls count = some reply)
    (change : Change health call reply after) : Recorded start calls (count + 1) after := by
  have ponged : ∀ token, start.Ponged calls count token → call.pong = some token := by
    rintro token ⟨other, _, found, pong, -⟩
    cases here.symm.trans found
    exact pong
  have entered : start.Entered calls count → call.holds = true := by
    rintro ⟨other, _, found, holds, -⟩
    cases here.symm.trans found
    exact holds
  cases change with
  | failed clock =>
    refine recorded.quiet answered nofun rfl rfl recorded.acked le_rfl ?_ ?_ ?_
    · rcases clock with rfl | ⟨moved, rfl⟩
      · exact le_rfl
      · exact moved
    · rintro token ⟨_, _, _, _, found⟩
      cases answered.symm.trans found
    · rintro ⟨_, _, _, _, found⟩
      cases answered.symm.trans found
  | passed sound clock quiet late other =>
    refine recorded.quiet answered ?_ rfl rfl recorded.acked le_rfl clock
      (fun token found => late token (ponged token found)) fun found => ?_
    · rintro answer ⟨⟩
      exact quiet
    · cases other.symm.trans (entered found)
  | @credited _ token sound clock pong fresh known quiet =>
    refine recorded.quiet answered ?_ rfl rfl known (le_of_lt fresh) clock (fun other found => ?_)
      fun found => ?_
    · rintro answer ⟨⟩
      exact quiet
    · cases pong.symm.trans (ponged other found)
      exact le_rfl
    · cases (pong_of_holds (entered found)).symm.trans pong
  | held sound clock holds =>
    have acked := recorded.acked
    refine recorded.quiet answered ?_ rfl rfl ?_ ?_ clock (fun token found => ?_) fun _ => ?_
    · rintro answer ⟨⟩
      rfl
    · show health.nextToken - 1 < health.nextToken
      omega
    · show health.lastAcked ≤ health.nextToken - 1
      omega
    · cases (pong_of_holds holds).symm.trans (ponged token found)
    · show health.nextToken - 1 + 1 = health.nextToken
      omega
  | resumed sound clock resumes =>
    refine recorded.quiet answered ?_ rfl rfl recorded.acked le_rfl clock
      (fun token found => ?_) fun found => ?_
    · rintro answer ⟨⟩
      rfl
    · cases (of_resumes resumes).1.symm.trans (ponged token found)
    · cases (of_resumes resumes).2.symm.trans (entered found)
  | challenged sound clock cadence noPong other =>
    exact recorded.challenged here answered clock
      (fun token found => by cases noPong.symm.trans (ponged token found))
      fun found => by cases other.symm.trans (entered found)

end

theorem new_recorded {now : Duration} : Recorded (new now) calls 0 (new now) := by
  refine ⟨fun token => ?_, Nat.zero_lt_one, nofun, nofun, nofun, nofun⟩
  constructor
  · rintro ⟨_, before, -⟩
    cases before
  · rintro ⟨positive, below⟩
    have : token < 1 := below
    omega

theorem recorded_afterFirst (now : Duration) (inside : count ≤ calls.length) :
    Recorded (new now) calls count ((new now).afterFirst calls count) := by
  induction count with
  | zero => exact new_recorded
  | succ count ih =>
    have here : calls[count]? = some calls[count] := getElem?_eq_getElem inside
    obtain ⟨reply, answered, change⟩ := (new now).change_at here
    exact (ih (Nat.le_of_succ_le inside)).change here answered change

/-- The last response moves on a resume or on a pong the counters call fresh. -/
theorem Change.lastResponse (change : Change health call reply after)
    (moved : after.lastResponse ≠ health.lastResponse) :
    (∃ answer, reply = .ok answer) ∧ (call.resumes = true ∨ ∃ token, call.pong = some token ∧
      health.lastAcked < token ∧ token < health.nextToken) := by
  cases change with
  | failed | passed | challenged | held => exact absurd rfl moved
  | credited sound clock pong fresh known => exact ⟨⟨_, rfl⟩, .inr ⟨_, pong, fresh, known⟩⟩
  | resumed sound clock resumes => exact ⟨⟨_, rfl⟩, .inl resumes⟩

/-- A recorded failure answers every call, unless a hold clears an expired deadline. -/
theorem Change.latched (change : Change health call reply after)
    (failed : health.failure = some error) :
    (reply = .error error ∧ after.failure = some error) ∨
      (error = .deadlineExpired ∧ call.holds = true ∧ ∃ answer, reply = .ok answer) := by
  cases change with
  | failed clock first =>
    rcases first with none | same
    · cases none.symm.trans failed
    · obtain rfl := some.inj (same.symm.trans failed)
      exact .inl ⟨rfl, rfl⟩
  | passed sound | challenged sound | credited sound | resumed sound => cases sound.symm.trans failed
  | held sound clock holds =>
    rcases sound with none | expired
    · cases none.symm.trans failed
    · exact .inr ⟨some.inj (failed.symm.trans expired), holds, _, rfl⟩

/-- A refused call leaves the failure it names. -/
theorem Change.refused (change : Change health call (.error error) after) :
    after.failure = some error := by
  cases change
  rfl

theorem Change.lastNow (change : Change health call reply after) :
    after.lastNow = health.lastNow ∨ after.lastNow = call.now := by
  cases change with
  | failed clock => exact clock.imp_right And.right
  | passed | challenged | credited | held | resumed => exact .inr rfl

/-- A call that judges the deadline is refused once it has passed. -/
theorem call_late (judges : call.judges = true)
    (late : peerLiveness ≤ call.now - health.lastResponse) :
    ∃ error, (health.call call).1 = .error error := by
  have refused : ∃ error after, health.check call.now = (.error error, after) := by
    rcases health.check_cases call.now with ⟨error, lastNow, found, -⟩ | ⟨-, -, -, inTime⟩
    · exact ⟨error, _, found⟩
    · exact absurd inTime (not_lt.mpr late)
  obtain ⟨error, after, found⟩ := refused
  refine ⟨error, ?_⟩
  cases call with
  | check now | poll now | receivePong token now | remaining now =>
    simp only [HealthCall.now] at found
    simp only [PeerHealth.call, poll, receivePong, remaining, found]
    rfl
  | hold | pollWhileHeld | receivePongWhileHeld | resume => cases judges

/-- A pong for a challenge that is still to come is refused as such, unless the call is refused
before the token is looked at. -/
theorem call_unknown {token : Nat} (pong : call.pong = some token) (sound : health.failure = none)
    (clock : health.lastNow ≤ call.now)
    (inTime : call.judges = true → call.now - health.lastResponse < peerLiveness)
    (unknown : health.nextToken ≤ token) : (health.call call).1 = .error .unexpectedResponse := by
  have refused : (({ health with lastNow := call.now } : PeerHealth).credit token call.now).1 =
      .error .unexpectedResponse := by
    rw [credit, if_pos unknown, fail, sound]
    rfl
  cases call with
  | check | poll | remaining | hold | pollWhileHeld | resume => cases pong
  | receivePong other now =>
    obtain rfl := some.inj pong
    have checked : health.check now = (.ok (), { health with lastNow := now }) := by
      rw [check, sound]
      simp only [HealthCall.now] at clock inTime
      rw [if_neg (not_lt.mpr clock), if_neg (not_le.mpr (inTime rfl))]
    simp only [HealthCall.now] at refused
    simp only [PeerHealth.call, receivePong, checked, Prod.map_fst, refused]
    rfl
  | receivePongWhileHeld other now =>
    obtain rfl := some.inj pong
    have advanced : health.advance now = (.ok (), { health with lastNow := now }) :=
      if_neg (not_lt.mpr clock)
    simp only [HealthCall.now] at refused
    simp only [PeerHealth.call, receivePongWhileHeld, whileHeld, sound, advanced, Prod.map_fst]
    rw [sound] at refused
    rw [refused]
    rfl

/-! ## What every run keeps -/

/-- A failure stays recorded as long as no hold clears an expired deadline. -/
theorem latched_afterFirst {later : Nat} (grows : count ≤ later) (inside : later ≤ calls.length)
    (failed : (start.afterFirst calls count).failure = some error)
    (clears : error = .deadlineExpired → ∀ index, count ≤ index → index < later →
      ¬ start.Entered calls index) :
    (start.afterFirst calls later).failure = some error := by
  induction later, grows using Nat.le_induction with
  | base => exact failed
  | succ later grows ih =>
    have here : calls[later]? = some calls[later] := getElem?_eq_getElem inside
    have before := ih (Nat.le_of_succ_le inside)
      fun expired index above below => clears expired index above (Nat.lt_succ_of_lt below)
    obtain ⟨reply, answered, change⟩ := start.change_at here
    rcases change.latched before with ⟨-, still⟩ | ⟨expired, holds, answer, rfl⟩
    · exact still
    · exact absurd ⟨_, answer, here, holds, answered⟩
        (clears expired later grows (Nat.lt_succ_self _))

theorem lastNow_afterFirst {bound : Nat} (inside : count ≤ calls.length)
    (begun : start.lastNow ≤ bound)
    (past : ∀ index < count, ∀ call, calls[index]? = some call → call.now ≤ bound) :
    (start.afterFirst calls count).lastNow ≤ bound := by
  induction count with
  | zero => exact begun
  | succ count ih =>
    have here : calls[count]? = some calls[count] := getElem?_eq_getElem inside
    obtain ⟨reply, -, change⟩ := start.change_at here
    rcases change.lastNow with same | moved
    · rw [same]
      exact ih (Nat.le_of_succ_le inside)
        fun index below => past index (Nat.lt_succ_of_lt below)
    · rw [moved]
      exact past count (Nat.lt_succ_self _) _ here

/-- A fresh pong answers a challenge issued before, answered by no pong yet, and issued since every
hold entered before. -/
theorem Recorded.fresh {token : Nat} (recorded : Recorded start calls count health)
    (fresh : health.lastAcked < token) (known : token < health.nextToken) :
    (∃ index < count, start.Issued calls index token) ∧
      (∀ index < count, ¬ start.Ponged calls index token) ∧
      ∀ hold < count, start.Entered calls hold →
        ∃ index, hold < index ∧ index < count ∧ start.Issued calls index token := by
  obtain ⟨index, before, issued⟩ := (recorded.issued token).mpr
    ⟨Nat.lt_of_le_of_lt (Nat.zero_le _) fresh, known⟩
  refine ⟨⟨index, before, issued⟩, fun other below ponged => ?_, fun hold below entered => ?_⟩
  · exact absurd (recorded.ponged other below token ponged) (not_le.mpr fresh)
  rcases lt_trichotomy hold index with since | rfl | earlier
  · exact ⟨index, since, before, issued⟩
  · -- a hold issues nothing
    obtain ⟨call, reply, here, holds, answered⟩ := entered
    obtain ⟨other, found, challenge⟩ := issued
    obtain rfl : reply = other := by
      simpa using answered.symm.trans found
    have change := change_of here answered
    generalize start.afterFirst calls (hold + 1) = after at change
    cases change with
    | passed _ _ quiet | credited _ _ _ _ _ quiet => cases quiet.symm.trans challenge
    | challenged _ _ _ _ other => cases other.symm.trans holds
    | held | resumed => cases challenge
  · exact absurd (recorded.held hold below entered index earlier token issued)
      (not_le.mpr fresh)

section Runs
variable {begun : Duration}

theorem length_of_here (here : calls[index]? = some call) : index < calls.length :=
  (List.getElem?_eq_some_iff.mp here).1

theorem issued_spaced {first second token other : Nat} {firstCall secondCall : HealthCall}
    (order : first < second) (hereFirst : calls[first]? = some firstCall)
    (hereSecond : calls[second]? = some secondCall)
    (issuedFirst : (new begun).Issued calls first token)
    (issuedSecond : (new begun).Issued calls second other) :
    token < other ∧ firstCall.now + heartbeatInterval ≤ secondCall.now := by
  have recorded := recorded_afterFirst begun (length_of_here hereSecond).le
  have below := ((recorded.issued token).mp ⟨first, order, issuedFirst⟩).2
  obtain ⟨last, sent, past⟩ := recorded.sent first order token firstCall issuedFirst hereFirst
  obtain ⟨reply, found, challenge⟩ := issuedSecond
  have change := change_of hereSecond found
  generalize (new begun).afterFirst calls (second + 1) = after at change
  cases change with
  | passed _ _ quiet | credited _ _ _ _ _ quiet => cases quiet.symm.trans challenge
  | held | resumed => cases challenge
  | challenged sound clock cadence =>
    cases challenge
    have apart : ∀ interval now : Nat, 0 < interval → interval ≤ now - last →
        firstCall.now + interval ≤ now := by
      intro interval now positive spaced
      omega
    exact ⟨below, apart _ _ (by decide) (cadence last sent)⟩

/-- A refused call is refused again until a hold clears it. -/
theorem refused_later {later : Nat} {laterCall : HealthCall}
    (refused : start.answer calls index = some (.error error)) (grows : index ≤ later)
    (here : calls[later]? = some laterCall)
    (clears : error = .deadlineExpired → laterCall.holds = false ∧
      ∀ hold, index ≤ hold → hold < later → ¬ start.Entered calls hold) :
    start.answer calls later = some (.error error) := by
  rcases eq_or_lt_of_le grows with rfl | past
  · exact refused
  cases first : calls[index]? with
  | none => simp [answer, replyAt, first] at refused
  | some call =>
    have failed := latched_afterFirst (Nat.succ_le_of_lt past) (length_of_here here).le
      (change_of first refused).refused fun expired hold above below =>
        (clears expired).2 hold (Nat.le_of_succ_le above) below
    obtain ⟨reply, answered, change⟩ := start.change_at here
    rcases change.latched failed with ⟨rfl, -⟩ | ⟨expired, holds, -⟩
    · exact answered
    · cases (clears expired).1.symm.trans holds

/-- A token that was never issued is zero or still to come. -/
theorem unissued_token {token : Nat} (inside : count ≤ calls.length) (positive : 0 < token)
    (never : ∀ issue < count, ¬ (new begun).Issued calls issue token) :
    ((new begun).afterFirst calls count).nextToken ≤ token := by
  by_contra known
  obtain ⟨issue, before, issued⟩ := ((recorded_afterFirst begun inside).issued token).mpr
    ⟨positive, not_le.mp known⟩
  exact never issue before issued

theorem clock_le (ordered : (begun :: calls.map HealthCall.now).Pairwise (· ≤ ·))
    (here : calls[index]? = some call) :
    ((new begun).afterFirst calls index).lastNow ≤ call.now := by
  obtain ⟨first, rest⟩ := pairwise_cons.mp ordered
  refine lastNow_afterFirst (length_of_here here).le ?_ fun earlier before other found => ?_
  · exact first call.now (mem_map_of_mem (mem_of_getElem? here))
  · obtain ⟨inside, rfl⟩ := List.getElem?_eq_some_iff.mp here
    obtain ⟨inside', rfl⟩ := List.getElem?_eq_some_iff.mp found
    exact pairwise_iff_getElem.mp (pairwise_map.mp rest) earlier index inside' inside before

end Runs
end PeerHealth

/-- Health proof is always fresh.  For every run of calls at times that never go back, with any
pong tokens:

* the last response moves only on a resume, or on a pong for a challenge that was issued before,
  that no accepted pong named before and that was issued since every hold entered before;
* challenge tokens increase strictly and are a heartbeat interval apart, across holds too;
* a call made outside holds fails once the liveness time has passed since the last response, and
  so does every call after it until a hold is entered;
* a pong for a nonzero token never issued that is looked at, because no failure is recorded and
  outside holds the liveness time has not passed, is answered as unexpected, and so is every call
  after it, holds and resumes among them. -/
theorem health_proof_is_fresh (begun : Duration) (calls : List HealthCall)
    (ordered : (begun :: calls.map HealthCall.now).Pairwise (· ≤ ·)) :
    (∀ index call, calls[index]? = some call →
      ((PeerHealth.new begun).afterFirst calls (index + 1)).lastResponse ≠
        ((PeerHealth.new begun).afterFirst calls index).lastResponse →
      (∃ reply, (PeerHealth.new begun).answer calls index = some (.ok reply)) ∧
      (call.resumes = true ∨ ∃ token, call.pong = some token ∧
        (∃ issue < index, (PeerHealth.new begun).Issued calls issue token) ∧
        (∀ earlier < index, ¬ (PeerHealth.new begun).Ponged calls earlier token) ∧
        ∀ hold < index, (PeerHealth.new begun).Entered calls hold → ∃ issue, hold < issue ∧
          issue < index ∧ (PeerHealth.new begun).Issued calls issue token)) ∧
    (∀ first second firstCall secondCall token other, first < second →
      calls[first]? = some firstCall → calls[second]? = some secondCall →
      (PeerHealth.new begun).Issued calls first token →
      (PeerHealth.new begun).Issued calls second other →
      token < other ∧ firstCall.now + heartbeatInterval ≤ secondCall.now) ∧
    (∀ index call, calls[index]? = some call → call.judges = true →
      peerLiveness ≤ call.now - ((PeerHealth.new begun).afterFirst calls index).lastResponse →
      ∀ later laterCall, index ≤ later → calls[later]? = some laterCall → laterCall.holds = false →
      (∀ hold, index ≤ hold → hold < later → ¬ (PeerHealth.new begun).Entered calls hold) →
      ∃ error, (PeerHealth.new begun).answer calls later = some (.error error)) ∧
    (∀ index call token, calls[index]? = some call → call.pong = some token → 0 < token →
      (∀ issue < index, ¬ (PeerHealth.new begun).Issued calls issue token) →
      ((PeerHealth.new begun).afterFirst calls index).failure = none →
      (call.judges = true →
        call.now - ((PeerHealth.new begun).afterFirst calls index).lastResponse < peerLiveness) →
      ∀ later, index ≤ later → later < calls.length →
        (PeerHealth.new begun).answer calls later = some (.error .unexpectedResponse)) := by
  refine ⟨?_, ?_, ?_, ?_⟩
  · intro index call here moved
    obtain ⟨reply, answered, change⟩ := (PeerHealth.new begun).change_at here
    obtain ⟨⟨answer, rfl⟩, reason⟩ := change.lastResponse moved
    refine ⟨⟨answer, answered⟩, reason.imp_right ?_⟩
    rintro ⟨token, pong, fresh, known⟩
    have recorded := recorded_afterFirst begun (length_of_here here).le
    exact ⟨token, pong, recorded.fresh fresh known⟩
  · intro first second firstCall secondCall token other order hereFirst hereSecond issued issued'
    exact issued_spaced order hereFirst hereSecond issued issued'
  · intro index call here judges late later laterCall grows found other none
    obtain ⟨error, refused⟩ := call_late judges late
    have answered := (replyAt_eq here).trans (congrArg some refused)
    exact ⟨error, refused_later answered grows found fun _ => ⟨other, none⟩⟩
  · intro index call token here pong positive never sound inTime later grows inside
    have unknown := unissued_token (length_of_here here).le positive never
    have refused := call_unknown pong sound (clock_le ordered here) inTime
      unknown
    have answered := (replyAt_eq here).trans (congrArg some refused)
    exact refused_later answered grows (getElem?_eq_getElem inside) nofun

namespace HealthRun

/-- A challenge, its pong, a hold whose own challenge is answered, and a pong out of nowhere. -/
def calls : List HealthCall :=
  [.poll 0, .receivePong 1 5, .hold 40000000, .pollWhileHeld 40000000,
    .receivePongWhileHeld 2 40000001, .resume 40000002, .receivePong 9 40000003, .hold 40000004]

theorem health_proof_is_fresh_held :
    ((0 : Nat) :: calls.map HealthCall.now).Pairwise (· ≤ ·) ∧
      (List.range 8).map ((PeerHealth.new 0).answer calls) =
        [some (.ok (.challenge (some 1))), some (.ok .done), some (.ok .done),
          some (.ok (.challenge (some 2))), some (.ok (.fresh true)), some (.ok .done),
          some (.error .unexpectedResponse), some (.error .unexpectedResponse)] ∧
      1 < 2 ∧ 0 + heartbeatInterval ≤ (40000000 : Nat) := by
  have ordered : ((0 : Nat) :: calls.map HealthCall.now).Pairwise (· ≤ ·) := by decide
  refine ⟨ordered, by decide, ?_⟩
  exact (health_proof_is_fresh 0 calls ordered).2.1 0 3 (.poll 0) (.pollWhileHeld 40000000) 1 2
    (by decide) rfl rfl ⟨_, rfl, rfl⟩ ⟨_, rfl, rfl⟩

/-- Token 0 is never issued, yet its pong passes for a late one.  Past the deadline a pong for a
token never issued is refused as expired, which a hold clears.  And the calls of held mode judge no
deadline: a resume with no hold entered succeeds when the liveness time has passed. -/
theorem unissued_pong_passes :
    (PeerHealth.new 0).answer [.receivePong 0 0] 0 = some (.ok .done) ∧
      (List.range 3).map ((PeerHealth.new 0).answer
          [.receivePong 7 500000000, .hold 500000000, .pollWhileHeld 500000000]) =
        [some (.error .deadlineExpired), some (.ok .done), some (.ok (.challenge (some 1)))] ∧
      peerLiveness ≤ (HealthCall.resume 500000000).now - (PeerHealth.new 0).lastResponse ∧
      (PeerHealth.new 0).answer [.resume 500000000] 0 = some (.ok .done) := by
  decide

end HealthRun
end Monhop.Transport
