import Monhop.Protocol.Frame

/-! # Fresh request and response progress

Challenges go out on a fixed cadence whether or not earlier ones were answered; any reply
to a challenge newer than the last acknowledged one is fresh proof.  A failure other than
an expired deadline is latched for good.
-/

namespace Monhop.Transport

open Monhop.Core Protocol

def u32Max : Nat := 2 ^ 32 - 1

/-- The limiter's milliseconds, saturating at 64 bits. -/
def millisU64 (duration : Duration) : Nat := min (duration / 1000000) u64Max

def heartbeatInterval : Duration := .fromMillis 30

/-- A peer silent for this long is gone. -/
def peerLiveness : Duration := .fromMillis 500

/-- Native suppression renewed by a controller that then stalls expires within this bound. -/
def suppressionLeaseCap : Duration := .fromMillis 120

/-- A source whose peer has been silent this long brings input home. -/
def retreatAfter : Duration := peerLiveness - suppressionLeaseCap

/-- How long a held session waits for the link before it ends as a health failure. -/
def holdLimit : Duration := .fromSecs 5

/-- A held source whose barrier was acknowledged but that hears no fresh reply sends
another barrier after this long. -/
def barrierResendAfter : Duration := peerLiveness

inductive HealthError where
  | clockRegression
  | deadlineExpired
  | unexpectedResponse
  | tokenExhausted
  deriving DecidableEq

structure PeerHealth where
  lastNow : Duration
  lastResponse : Duration
  lastSent : Option Duration
  nextToken : Nat
  lastAcked : Nat
  confirmed : Bool
  failure : Option HealthError

namespace PeerHealth

def new (now : Duration) : PeerHealth :=
  { lastNow := now, lastResponse := now, lastSent := none, nextToken := 1, lastAcked := 0
    confirmed := false, failure := none }

variable (health : PeerHealth)

/-- Latches the first failure and returns the latched one. -/
def fail {Value : Type} (error : HealthError) :
    Except HealthError Value × PeerHealth :=
  let latched := health.failure.getD error
  (.error latched, { health with failure := some latched })

def check (now : Duration) : Except HealthError Unit × PeerHealth :=
  match health.failure with
  | some error => (.error error, health)
  | none =>
    if now < health.lastNow then health.fail .clockRegression
    else
      let health := { health with lastNow := now }
      if now - health.lastResponse ≥ peerLiveness then health.fail .deadlineExpired
      else (.ok (), health)

def advance (now : Duration) : Except HealthError Unit × PeerHealth :=
  if now < health.lastNow then health.fail .clockRegression
  else (.ok (), { health with lastNow := now })

/-- Issues the next challenge once the cadence allows one. -/
def challenge (now : Duration) : Except HealthError (Option Nat) × PeerHealth :=
  if health.lastSent.any fun last => decide (now - last < heartbeatInterval) then (.ok none, health)
  else
    match checkedSucc health.nextToken with
    | none => health.fail .tokenExhausted
    | some nextToken =>
      (.ok (some health.nextToken), { health with nextToken, lastSent := some now })

def poll (now : Duration) : Except HealthError (Option Nat) × PeerHealth :=
  match health.check now with
  | (.error error, health) => (.error error, health)
  | (.ok (), health) => health.challenge now

/-- Credits a reply; the result says whether it was a fresh one. -/
def credit (token : Nat) (now : Duration) : Except HealthError Bool × PeerHealth :=
  if token ≥ health.nextToken then health.fail .unexpectedResponse
  -- a reply to a challenge already superseded is late, not wrong
  else if token ≤ health.lastAcked then (.ok false, health)
  else (.ok true, { health with lastAcked := token, lastResponse := now, confirmed := true })

def receivePong (token : Nat) (now : Duration) : Except HealthError Unit × PeerHealth :=
  match health.check now with
  | (.error error, health) => (.error error, health)
  | (.ok (), health) =>
    let (result, health) := health.credit token now
    (result.map fun _ => (), health)

/-- Native suppression cannot outlive the last fresh peer response. -/
def remaining (now : Duration) : Except HealthError Duration × PeerHealth :=
  match health.check now with
  | (.error error, health) => (.error error, health)
  | (.ok (), health) =>
    (.ok (min (peerLiveness - (now - health.lastResponse)) suppressionLeaseCap), health)

/-- Enters a hold: an expired deadline stops latching, and only a reply to a challenge sent
from now on counts. -/
def hold (now : Duration) : Except HealthError Unit × PeerHealth :=
  match health.failure with
  | none | some .deadlineExpired =>
    match health.advance now with
    | (.error error, health) => (.error error, health)
    | (.ok (), health) =>
      (.ok (), { health with
        failure := none, lastAcked := health.nextToken - 1, confirmed := false })
  | some error => (.error error, health)

/-- Runs `step` once the clock moved on, unless a failure is latched. -/
def whileHeld {Value : Type} (now : Duration)
    (step : PeerHealth → Except HealthError Value × PeerHealth) :
    Except HealthError Value × PeerHealth :=
  match health.failure with
  | some error => (.error error, health)
  | none =>
    match health.advance now with
    | (.error error, health) => (.error error, health)
    | (.ok (), health) => step health

/-- Issues challenges on cadence during a hold without judging the deadline. -/
def pollWhileHeld (now : Duration) : Except HealthError (Option Nat) × PeerHealth :=
  health.whileHeld now fun health => health.challenge now

/-- True only when the reply answers a challenge sent after the hold began. -/
def receivePongWhileHeld (token : Nat) (now : Duration) : Except HealthError Bool × PeerHealth :=
  health.whileHeld now fun health => health.credit token now

/-- Ends a hold on a reliably delivered frame: the deadline restarts here. -/
def resume (now : Duration) : Except HealthError Unit × PeerHealth :=
  health.whileHeld now fun health =>
    (.ok (), { health with lastResponse := now, confirmed := true })

end PeerHealth

/-! ## What one call can do -/

inductive HealthCall where
  | check (now : Duration)
  | poll (now : Duration)
  | receivePong (token : Nat) (now : Duration)
  | remaining (now : Duration)
  | hold (now : Duration)
  | pollWhileHeld (now : Duration)
  | receivePongWhileHeld (token : Nat) (now : Duration)
  | resume (now : Duration)

namespace HealthCall

def now : HealthCall → Nat
  | .check now | .poll now | .receivePong _ now | .remaining now | .hold now | .pollWhileHeld now
  | .receivePongWhileHeld _ now | .resume now => now

/-- The token of a pong, in either mode. -/
def pong : HealthCall → Option Nat
  | .receivePong token _ | .receivePongWhileHeld token _ => some token
  | .check _ | .poll _ | .remaining _ | .hold _ | .pollWhileHeld _ | .resume _ => none

/-- The call judges the deadline: it is made outside holds. -/
def judges : HealthCall → Bool
  | .check _ | .poll _ | .receivePong _ _ | .remaining _ => true
  | .hold _ | .pollWhileHeld _ | .receivePongWhileHeld _ _ | .resume _ => false

def holds : HealthCall → Bool
  | .hold _ => true
  | .check _ | .poll _ | .receivePong _ _ | .remaining _ | .pollWhileHeld _
  | .receivePongWhileHeld _ _ | .resume _ => false

def resumes : HealthCall → Bool
  | .resume _ => true
  | .check _ | .poll _ | .receivePong _ _ | .remaining _ | .hold _ | .pollWhileHeld _
  | .receivePongWhileHeld _ _ => false

variable {call : HealthCall}

theorem pong_of_holds (holds : call.holds = true) : call.pong = none := by
  cases call with
  | hold => rfl
  | check | poll | receivePong | remaining | pollWhileHeld | receivePongWhileHeld | resume =>
    cases holds

theorem of_resumes (resumes : call.resumes = true) : call.pong = none ∧ call.holds = false := by
  cases call with
  | resume => exact ⟨rfl, rfl⟩
  | check | poll | receivePong | remaining | hold | pollWhileHeld | receivePongWhileHeld =>
    cases resumes

end HealthCall

inductive HealthReply where
  | done
  | challenge (token : Option Nat)
  | remaining (duration : Duration)
  | fresh (fresh : Bool)
  deriving DecidableEq

def HealthReply.issued : HealthReply → Option Nat
  | .challenge token => token
  | .done | .remaining _ | .fresh _ => none

namespace PeerHealth

def call (health : PeerHealth) : HealthCall → Except HealthError HealthReply × PeerHealth
  | .check now => (health.check now).map (·.map fun _ => .done) id
  | .poll now => (health.poll now).map (·.map .challenge) id
  | .receivePong token now => (health.receivePong token now).map (·.map fun _ => .done) id
  | .remaining now => (health.remaining now).map (·.map .remaining) id
  | .hold now => (health.hold now).map (·.map fun _ => .done) id
  | .pollWhileHeld now => (health.pollWhileHeld now).map (·.map .challenge) id
  | .receivePongWhileHeld token now =>
    (health.receivePongWhileHeld token now).map (·.map .fresh) id
  | .resume now => (health.resume now).map (·.map fun _ => .done) id

/-- What one call can do. -/
inductive Change (health : PeerHealth) (call : HealthCall) :
    Except HealthError HealthReply → PeerHealth → Prop where
  /-- A failure is recorded, the first one for good. -/
  | failed {error : HealthError} {lastNow : Nat}
      (clock : lastNow = health.lastNow ∨ health.lastNow ≤ call.now ∧ lastNow = call.now)
      (first : health.failure = none ∨ health.failure = some error) :
      Change health call (.error error) { health with lastNow, failure := some error }
  /-- Nothing but the clock moves. -/
  | passed {reply : HealthReply} (sound : health.failure = none) (clock : health.lastNow ≤ call.now)
      (quiet : reply.issued = none) (late : ∀ token, call.pong = some token → token ≤ health.lastAcked)
      (other : call.holds = false) :
      Change health call (.ok reply) { health with lastNow := call.now }
  | challenged (sound : health.failure = none) (clock : health.lastNow ≤ call.now)
      (cadence : ∀ last : Nat, health.lastSent = some last → heartbeatInterval ≤ call.now - last)
      (noPong : call.pong = none) (other : call.holds = false) :
      Change health call (.ok (.challenge (some health.nextToken)))
        { health with
          lastNow := call.now, nextToken := health.nextToken + 1, lastSent := some call.now }
  | credited {reply : HealthReply} {token : Nat} (sound : health.failure = none)
      (clock : health.lastNow ≤ call.now) (pong : call.pong = some token)
      (fresh : health.lastAcked < token) (known : token < health.nextToken)
      (quiet : reply.issued = none) :
      Change health call (.ok reply)
        { health with
          lastNow := call.now, lastAcked := token, lastResponse := call.now, confirmed := true }
  | held (sound : health.failure = none ∨ health.failure = some .deadlineExpired)
      (clock : health.lastNow ≤ call.now) (holds : call.holds = true) :
      Change health call (.ok .done)
        { health with
          lastNow := call.now, failure := none, lastAcked := health.nextToken - 1, confirmed := false }
  | resumed (sound : health.failure = none)
      (clock : health.lastNow ≤ call.now) (resumes : call.resumes = true) :
      Change health call (.ok .done)
        { health with lastNow := call.now, lastResponse := call.now, confirmed := true }

/-! ## The parts of a call -/

variable {health : PeerHealth} {now : Duration}

section
variable (health)

/-- A check fails for good or moves the clock, before the deadline. -/
theorem check_cases (now : Duration) :
    (∃ error, ∃ lastNow : Duration,
      health.check now = (.error error, { health with lastNow, failure := some error }) ∧
      (lastNow = health.lastNow ∨ health.lastNow ≤ now ∧ lastNow = now) ∧
      (health.failure = none ∨ health.failure = some error)) ∨
    (health.check now = (.ok (), { health with lastNow := now }) ∧ health.failure = none ∧
      health.lastNow ≤ now ∧ now - health.lastResponse < peerLiveness) := by
  obtain ⟨lastNow, lastResponse, lastSent, nextToken, lastAcked, confirmed, failure⟩ := health
  cases failure with
  | some error => exact .inl ⟨error, lastNow, rfl, .inl rfl, .inr rfl⟩
  | none =>
    by_cases regressed : now < lastNow
    · exact .inl ⟨.clockRegression, lastNow, by simp [check, fail, regressed], .inl rfl, .inl rfl⟩
    have clock := Nat.not_lt.mp regressed
    by_cases expired : now - lastResponse ≥ peerLiveness
    · exact .inl ⟨.deadlineExpired, now, by simp [check, fail, regressed, expired],
        .inr ⟨clock, rfl⟩, .inl rfl⟩
    · exact .inr ⟨by simp [check, regressed, expired], rfl, clock, Nat.not_le.mp expired⟩

theorem advance_cases (now : Duration) :
    (∃ error, health.advance now = (.error error, { health with failure := some error }) ∧
      (health.failure = none ∨ health.failure = some error)) ∨
    (health.advance now = (.ok (), { health with lastNow := now }) ∧ health.lastNow ≤ now) := by
  obtain ⟨lastNow, lastResponse, lastSent, nextToken, lastAcked, confirmed, failure⟩ := health
  by_cases regressed : now < lastNow
  · refine .inl ⟨failure.getD .clockRegression, by simp [advance, fail, regressed], ?_⟩
    cases failure with
    | none => exact .inl rfl
    | some error => exact .inr rfl
  · exact .inr ⟨by simp [advance, regressed], Nat.not_lt.mp regressed⟩

theorem challenge_cases (sound : health.failure = none) :
    health.challenge now = (.ok none, health) ∨
    health.challenge now = (.error .tokenExhausted, { health with failure := some .tokenExhausted }) ∨
    (health.challenge now = (.ok (some health.nextToken),
        { health with nextToken := health.nextToken + 1, lastSent := some now }) ∧
      ∀ last : Nat, health.lastSent = some last → heartbeatInterval ≤ now - last) := by
  unfold challenge fail
  split
  · exact .inl rfl
  next due =>
  split
  · exact .inr (.inl (by rw [sound]; rfl))
  next nextToken following =>
  obtain ⟨-, rfl⟩ := checkedSucc_eq_some.mp following
  refine .inr (.inr ⟨rfl, fun last sent => ?_⟩)
  rw [sent] at due
  simpa using due

theorem credit_cases {token : Nat} (sound : health.failure = none) :
    (health.credit token now =
        (.error .unexpectedResponse, { health with failure := some .unexpectedResponse }) ∧
      health.nextToken ≤ token) ∨
    (health.credit token now = (.ok false, health) ∧ token ≤ health.lastAcked) ∨
    (health.credit token now =
        (.ok true, { health with lastAcked := token, lastResponse := now, confirmed := true }) ∧
      health.lastAcked < token ∧ token < health.nextToken) := by
  unfold credit fail
  split
  · next unknown => exact .inl ⟨by rw [sound]; rfl, unknown⟩
  · next known =>
    split
    · next late => exact .inr (.inl ⟨rfl, late⟩)
    · next fresh => exact .inr (.inr ⟨rfl, Nat.not_le.mp fresh, Nat.not_le.mp known⟩)

/-- A call of held mode fails for good or goes on with the clock moved. -/
theorem whileHeld_cases {Value : Type} (now : Duration)
    (step : PeerHealth → Except HealthError Value × PeerHealth) :
    (∃ error, health.whileHeld now step = (.error error, { health with failure := some error }) ∧
      (health.failure = none ∨ health.failure = some error)) ∨
    (health.whileHeld now step = step { health with lastNow := now } ∧ health.failure = none ∧
      health.lastNow ≤ now) := by
  cases failed : health.failure with
  | some error =>
    refine .inl ⟨error, ?_, .inr rfl⟩
    rw [whileHeld, failed]
    exact Prod.ext rfl (by cases health; cases failed; rfl)
  | none =>
    rcases health.advance_cases now with ⟨error, found, first⟩ | ⟨found, clock⟩
    · refine .inl ⟨error, ?_, .inl rfl⟩
      rw [whileHeld, failed]
      simp only [found]
    · refine .inr ⟨?_, rfl, clock⟩
      rw [whileHeld, failed]
      simp only [found]
      rw [failed]

end

/-! ## Calls -/

variable {call : HealthCall} {error : HealthError}

theorem challenge_change (sound : health.failure = none) (clock : health.lastNow ≤ call.now)
    (noPong : call.pong = none) (other : call.holds = false) :
    Change health call
      (({ health with lastNow := call.now } : PeerHealth).challenge call.now |>.1.map .challenge)
      (({ health with lastNow := call.now } : PeerHealth).challenge call.now).2 := by
  rcases challenge_cases { health with lastNow := call.now } sound with
    found | found | ⟨found, cadence⟩
  · rw [found]
    refine .passed sound clock rfl (fun token pong => ?_) other
    cases noPong.symm.trans pong
  · rw [found]
    exact .failed (.inr ⟨clock, rfl⟩) (.inl sound)
  · rw [found]
    exact .challenged sound clock cadence noPong other

theorem credit_change {token : Nat} (answer : Bool → HealthReply)
    (quiet : ∀ fresh, (answer fresh).issued = none) (sound : health.failure = none)
    (clock : health.lastNow ≤ call.now) (pong : call.pong = some token) (other : call.holds = false) :
    Change health call
      (({ health with lastNow := call.now } : PeerHealth).credit token call.now |>.1.map answer)
      (({ health with lastNow := call.now } : PeerHealth).credit token call.now).2 := by
  rcases credit_cases { health with lastNow := call.now } sound with
    ⟨found, -⟩ | ⟨found, late⟩ | ⟨found, fresh, known⟩
  · rw [found]
    exact .failed (.inr ⟨clock, rfl⟩) (.inl sound)
  · rw [found]
    refine .passed sound clock (quiet _) (fun other same => ?_) other
    obtain rfl := Option.some.inj (pong.symm.trans same)
    exact late
  · rw [found]
    exact .credited sound clock pong fresh known (quiet _)

/-- A failure recorded already is what every refused call leaves. -/
theorem latched_change (failed : health.failure = some error) :
    Change health call (.error error) health := by
  obtain ⟨lastNow, lastResponse, lastSent, nextToken, lastAcked, confirmed, failure⟩ := health
  cases failed
  exact .failed (.inl rfl) (.inr rfl)

/-- A hold clears an expired deadline, and nothing else. -/
theorem hold_change :
    Change health (.hold now) ((health.hold now).1.map fun _ => .done) (health.hold now).2 := by
  unfold hold
  split
  case h_3 error failed => exact latched_change failed
  all_goals
    rcases health.advance_cases now with ⟨error, found, first⟩ | ⟨found, clock⟩ <;> simp only [found]
    · exact .failed (.inl rfl) first
    · exact .held (by simp [*]) clock rfl

theorem call_change (health : PeerHealth) (call : HealthCall) :
    Change health call (health.call call).1 (health.call call).2 := by
  cases call with
  | check now =>
    rcases health.check_cases now with ⟨error, lastNow, found, clock, first⟩ | ⟨found, sound, clock, -⟩
      <;> simp only [PeerHealth.call, found]
    · exact .failed clock first
    · exact .passed sound clock rfl nofun rfl
  | poll now =>
    rcases health.check_cases now with ⟨error, lastNow, found, clock, first⟩ | ⟨found, sound, clock, -⟩
      <;> simp only [PeerHealth.call, poll, found]
    · exact .failed clock first
    · exact challenge_change sound clock rfl rfl
  | receivePong token now =>
    rcases health.check_cases now with ⟨error, lastNow, found, clock, first⟩ | ⟨found, sound, clock, -⟩
    · simp only [PeerHealth.call, receivePong, found]
      exact .failed clock first
    have changed := @credit_change health (.receivePong token now) token (fun _ => .done)
      (fun _ => rfl) sound clock rfl rfl
    simp only [PeerHealth.call, receivePong, found]
    cases credited : ({ health with lastNow := now } : PeerHealth).credit token now with
    | mk result after =>
      simp only [HealthCall.now, credited] at changed ⊢
      cases result <;> exact changed
  | remaining now =>
    rcases health.check_cases now with ⟨error, lastNow, found, clock, first⟩ | ⟨found, sound, clock, -⟩
      <;> simp only [PeerHealth.call, remaining, found]
    · exact .failed clock first
    · exact .passed sound clock rfl nofun rfl
  | hold now => exact hold_change
  | pollWhileHeld now =>
    rcases health.whileHeld_cases now fun health => health.challenge now with
      ⟨error, found, first⟩ | ⟨found, sound, clock⟩ <;> simp only [PeerHealth.call, pollWhileHeld, found]
    · exact .failed (.inl rfl) first
    · exact challenge_change sound clock rfl rfl
  | receivePongWhileHeld token now =>
    rcases health.whileHeld_cases now fun health => health.credit token now with
      ⟨error, found, first⟩ | ⟨found, sound, clock⟩ <;>
      simp only [PeerHealth.call, receivePongWhileHeld, found]
    · exact .failed (.inl rfl) first
    · exact credit_change .fresh (fun _ => rfl) sound clock rfl rfl
  | resume now =>
    rcases health.whileHeld_cases now fun health =>
        ((.ok (), { health with lastResponse := now, confirmed := true }) :
          Except HealthError Unit × PeerHealth) with
      ⟨error, found, first⟩ | ⟨found, sound, clock⟩ <;> simp only [PeerHealth.call, resume, found]
    · exact .failed (.inl rfl) first
    · exact .resumed sound clock rfl

/-! ## Tokens

Only challenges, fresh replies and holds move the tokens. -/

variable {sent : Option Nat} {after : PeerHealth}

/-- The same challenge is next, and the same one was acknowledged last. -/
def SameTokens (health after : PeerHealth) : Prop :=
  after.nextToken = health.nextToken ∧ after.lastAcked = health.lastAcked

theorem check_tokens (health : PeerHealth) (now : Duration) :
    health.SameTokens (health.check now).2 := by
  rcases health.check_cases now with ⟨error, lastNow, found, -⟩ | ⟨found, -⟩ <;>
    rw [found] <;> exact ⟨rfl, rfl⟩

theorem resume_tokens (health : PeerHealth) (now : Duration) :
    health.SameTokens (health.resume now).2 := by
  unfold resume
  rcases health.whileHeld_cases now _ with ⟨error, found, -⟩ | ⟨found, -⟩ <;>
    rw [found] <;> exact ⟨rfl, rfl⟩

/-- A hold counts every challenge sent so far as answered. -/
theorem hold_tokens (held : health.hold now = (.ok (), after)) :
    after.nextToken = health.nextToken ∧ after.lastAcked = health.nextToken - 1 := by
  have change : Change health (.hold now) (.ok .done) after := by
    simpa [PeerHealth.call, held, Except.map] using health.call_change (.hold now)
  cases change with
  | held => exact ⟨rfl, rfl⟩
  | passed _ _ _ _ other => cases other
  | credited _ _ pong => cases pong
  | resumed _ _ resumes => cases resumes

/-- A reply during a hold is fresh or changes nothing. -/
theorem receivePongWhileHeld_tokens {token : Nat} {fresh : Bool}
    (received : health.receivePongWhileHeld token now = (.ok fresh, after)) :
    fresh = true ∧ (health.lastAcked < token ∧ token < health.nextToken) ∧
        after.nextToken = health.nextToken ∧ after.lastAcked = token ∨
      fresh = false ∧ health.SameTokens after := by
  unfold receivePongWhileHeld at received
  rcases health.whileHeld_cases now fun health => health.credit token now with
    ⟨error, found, -⟩ | ⟨found, sound, -⟩ <;> rw [found] at received
  · cases received
  rcases credit_cases { health with lastNow := now } sound with
    ⟨found, -⟩ | ⟨found, -⟩ | ⟨found, newer⟩ <;>
    rw [found] at received <;> cases received
  · exact .inr ⟨rfl, rfl, rfl⟩
  · exact .inl ⟨rfl, newer, rfl, rfl⟩

theorem receivePong_tokens {token : Nat} (received : health.receivePong token now = (.ok (), after)) :
    (health.lastAcked < token ∧ token < health.nextToken) ∧
        after.nextToken = health.nextToken ∧ after.lastAcked = token ∨
      health.SameTokens after := by
  have change : Change health (.receivePong token now) (.ok .done) after := by
    simpa [PeerHealth.call, received, Except.map] using health.call_change (.receivePong token now)
  cases change with
  | passed => exact .inr ⟨rfl, rfl⟩
  | credited _ _ pong fresh known =>
    cases pong
    exact .inl ⟨⟨fresh, known⟩, rfl, rfl⟩
  | held _ _ holds => cases holds
  | resumed _ _ resumes => cases resumes

/-- A poll sends the next challenge or changes no token. -/
def Polls (health : PeerHealth) (sent : Option Nat) (after : PeerHealth) : Prop :=
  sent = some health.nextToken ∧ after.nextToken = health.nextToken + 1 ∧
      after.lastAcked = health.lastAcked ∨
    sent = none ∧ health.SameTokens after

theorem Change.polled (change : Change health call (.ok (.challenge sent)) after)
    (noPong : call.pong = none) : health.Polls sent after := by
  cases change with
  | passed _ _ quiet => exact .inr ⟨quiet, rfl, rfl⟩
  | challenged => exact .inl ⟨rfl, rfl, rfl⟩
  | credited _ _ pong => cases noPong.symm.trans pong

theorem pollWhileHeld_tokens (polled : health.pollWhileHeld now = (.ok sent, after)) :
    health.Polls sent after := by
  have change := health.call_change (.pollWhileHeld now)
  rw [PeerHealth.call, polled] at change
  exact change.polled rfl

theorem poll_tokens (polled : health.poll now = (.ok sent, after)) : health.Polls sent after := by
  have change := health.call_change (.poll now)
  rw [PeerHealth.call, polled] at change
  exact change.polled rfl

theorem poll_expired_tokens (polled : health.poll now = (.error .deadlineExpired, after)) :
    health.SameTokens after := by
  have change : Change health (.poll now) (.error .deadlineExpired) after := by
    simpa [PeerHealth.call, polled, Except.map] using health.call_change (.poll now)
  cases change
  exact ⟨rfl, rfl⟩

end PeerHealth
end Monhop.Transport
