import Monhop.Protocol.Admission
import Monhop.Library.Transition
import Monhop.Library.Trace

/-! # The rate limiter on machine words

`WordLimiter` computes as the code does, on 32-bit and 64-bit words whose plain operations wrap.

* `WordLimiter.allowAt_numbers` — no operation wraps: the words compute what the numbers do.
* `LimiterRun.Sound` — the credit left pays for what a window admitted beyond its refill.
* `token_bucket` — what every run of a limiter admits.
-/

namespace Monhop.Protocol

open Library UInt64

/-! ## Words -/

variable (first second : UInt64)

def saturatingSub : UInt64 :=
  if first < second then 0 else first - second

def saturatingAdd : UInt64 :=
  if first.toNat + second.toNat ≤ u64Max then first + second else UInt64.ofNat u64Max

def saturatingMul : UInt64 :=
  if first.toNat * second.toNat ≤ u64Max then first * second else UInt64.ofNat u64Max

theorem saturatingSub_toNat : (saturatingSub first second).toNat = first.toNat - second.toNat := by
  unfold saturatingSub
  split
  · next below =>
    rw [lt_iff_toNat_lt] at below
    have none : first.toNat - second.toNat = 0 := by omega
    rw [none]
    rfl
  · next above =>
    rw [UInt64.lt_iff_toNat_lt] at above
    exact UInt64.toNat_sub_of_le _ _ (UInt64.le_iff_toNat_le.mpr (by omega))

theorem toNat_saturating {exact : Nat} {word : UInt64}
    (fitting : exact ≤ u64Max → word.toNat = exact) :
    (if exact ≤ u64Max then word else UInt64.ofNat u64Max).toNat = min exact u64Max := by
  split
  · next fits => rw [fitting fits, Nat.min_eq_left fits]
  · next past =>
    rw [Nat.min_eq_right (by omega)]
    rfl

theorem saturatingAdd_toNat :
    (saturatingAdd first second).toNat = min (first.toNat + second.toNat) u64Max :=
  toNat_saturating fun fits => by
    rw [UInt64.toNat_add, Nat.mod_eq_of_lt (by rw [u64Max] at fits; omega)]

theorem saturatingMul_toNat :
    (saturatingMul first second).toNat = min (first.toNat * second.toNat) u64Max :=
  toNat_saturating fun fits => by
    rw [UInt64.toNat_mul, Nat.mod_eq_of_lt (by rw [u64Max] at fits; omega)]

structure WordLimiter where
  ratePerSecond : UInt32
  creditsMilli : UInt64
  lastTimestampMs : Option UInt64
  deriving DecidableEq

variable {ratePerSecond : UInt32} {timestampMs : UInt64}

namespace WordLimiter

/-- A second's worth of credit. -/
def capacity (limiter : WordLimiter) : UInt64 := limiter.ratePerSecond.toUInt64 * 1000

def new (ratePerSecond : UInt32) : Except RateLimitConfigError WordLimiter :=
  if ratePerSecond = 0 then .error .zeroRate
  else if ratePerSecond > UInt32.ofNat maxEventsPerSecond then .error .rateTooHigh
  else
    .ok
      { ratePerSecond
        creditsMilli := ratePerSecond.toUInt64 * 1000
        lastTimestampMs := none }

/-- The credit after the refill of a later timestamp. -/
def refilled (limiter : WordLimiter) (last timestampMs : UInt64) : UInt64 :=
  let refill := saturatingMul (saturatingSub timestampMs last) limiter.ratePerSecond.toUInt64
  min (saturatingAdd limiter.creditsMilli refill) limiter.capacity

def spend (limiter : WordLimiter) (creditsMilli timestampMs : UInt64) :
    Except RateLimitError Unit × WordLimiter :=
  if creditsMilli < 1000 then
    (.error .exceeded, { limiter with creditsMilli, lastTimestampMs := some timestampMs })
  else
    (.ok (), { limiter with
      creditsMilli := creditsMilli - 1000, lastTimestampMs := some timestampMs })

def allowAt (limiter : WordLimiter) (timestampMs : UInt64) :
    Except RateLimitError Unit × WordLimiter :=
  match limiter.lastTimestampMs with
  | some last =>
    if timestampMs < last then (.error .clockMovedBackwards, limiter)
    else limiter.spend (limiter.refilled last timestampMs) timestampMs
  | none => limiter.spend limiter.creditsMilli timestampMs

/-- The limiter with its words read as numbers. -/
def numbers (limiter : WordLimiter) : RateLimiter where
  ratePerSecond := limiter.ratePerSecond.toNat
  creditsMilli := limiter.creditsMilli.toNat
  lastTimestampMs := limiter.lastTimestampMs.map (·.toNat)

/-- An accepted rate, and no more than a second's worth of credit. -/
structure Filled (limiter : WordLimiter) : Prop where
  rate : limiter.ratePerSecond.toNat ≤ maxEventsPerSecond
  credits : limiter.creditsMilli.toNat ≤ limiter.ratePerSecond.toNat * 1000

variable {limiter : WordLimiter}

theorem capacity_toNat (rate : limiter.ratePerSecond.toNat ≤ maxEventsPerSecond) :
    limiter.capacity.toNat = limiter.ratePerSecond.toNat * 1000 := by
  rw [capacity, UInt64.toNat_mul, UInt32.toNat_toUInt64]
  rw [maxEventsPerSecond] at rate
  exact Nat.mod_eq_of_lt (by show _ * 1000 < _; omega)

theorem toNat_min : (min first second).toNat = min first.toNat second.toNat := by
  change (if first ≤ second then first else second).toNat = _
  by_cases below : first ≤ second
  · rw [if_pos below, Nat.min_eq_left (le_iff_toNat_le.mp below)]
  · have above : ¬ first.toNat ≤ second.toNat :=
      fun under => below (le_iff_toNat_le.mpr under)
    rw [if_neg below, Nat.min_eq_right (by omega)]

theorem refilled_toNat (filled : limiter.Filled) (last timestampMs : UInt64) :
    (limiter.refilled last timestampMs).toNat =
      limiter.numbers.refilled last.toNat timestampMs.toNat := by
  rw [refilled, toNat_min, saturatingAdd_toNat, saturatingMul_toNat, saturatingSub_toNat,
    capacity_toNat filled.rate, UInt32.toNat_toUInt64]
  rfl

theorem new_filled (made : new ratePerSecond = .ok limiter) :
    limiter.Filled ∧ limiter.ratePerSecond = ratePerSecond ∧
      RateLimiter.new ratePerSecond.toNat = .ok limiter.numbers := by
  unfold new at made
  split at made
  · cases made
  next nonzero =>
  split at made
  · cases made
  next within =>
  cases made
  have rate : ratePerSecond.toNat ≤ maxEventsPerSecond := by
    rw [gt_iff_lt, UInt32.lt_iff_toNat_lt] at within
    exact Nat.not_lt.mp within
  have positive : ratePerSecond.toNat ≠ 0 :=
    fun zero => nonzero (UInt32.toNat_inj.mp zero)
  let made : WordLimiter := ⟨ratePerSecond, ratePerSecond.toUInt64 * 1000, none⟩
  have full : made.capacity.toNat = ratePerSecond.toNat * 1000 := capacity_toNat rate
  refine ⟨⟨rate, Nat.le_of_eq full⟩, rfl, ?_⟩
  rw [RateLimiter.new, if_neg positive, if_neg (Nat.not_lt.mpr rate), RateLimiter.full, ← full]
  rfl

theorem spend_numbers {creditsMilli : UInt64} :
    limiter.numbers.spend creditsMilli.toNat timestampMs.toNat =
      ((limiter.spend creditsMilli timestampMs).1,
        (limiter.spend creditsMilli timestampMs).2.numbers) := by
  unfold spend RateLimiter.spend
  by_cases short : creditsMilli < 1000
  · have below : creditsMilli.toNat < 1000 := lt_iff_toNat_lt.mp short
    rw [if_pos short, if_pos below]
    rfl
  have above : ¬ creditsMilli.toNat < 1000 :=
    fun below => short (lt_iff_toNat_lt.mpr below)
  have paid : (creditsMilli - 1000).toNat = creditsMilli.toNat - 1000 :=
    UInt64.toNat_sub_of_le _ _ (UInt64.le_iff_toNat_le.mpr (Nat.not_lt.mp above))
  rw [if_neg short, if_neg above, ← paid]
  rfl

/-- No operation wraps: read as numbers, the words compute what the numbers do. -/
theorem allowAt_numbers (filled : limiter.Filled) (timestampMs : UInt64) :
    limiter.numbers.allowAt timestampMs.toNat =
      ((limiter.allowAt timestampMs).1, (limiter.allowAt timestampMs).2.numbers) := by
  unfold allowAt RateLimiter.allowAt
  cases found : limiter.lastTimestampMs with
  | none =>
    rw [show limiter.numbers.lastTimestampMs = none by rw [numbers, found]; rfl]
    exact spend_numbers
  | some last =>
    rw [show limiter.numbers.lastTimestampMs = some last.toNat by rw [numbers, found]; rfl]
    by_cases backwards : timestampMs < last
    · simp only [backwards, lt_iff_toNat_lt.mp backwards, if_true]
    have forwards : ¬ timestampMs.toNat < last.toNat :=
      fun below => backwards (lt_iff_toNat_lt.mpr below)
    simp only [backwards, forwards, if_false]
    rw [← refilled_toNat filled]
    exact spend_numbers

/-- A refill adds no more than the time since the last call is worth, and fills no more than a
second's worth. -/
theorem refilled_le (filled : limiter.Filled) {last : UInt64} :
    (limiter.refilled last timestampMs).toNat ≤ limiter.ratePerSecond.toNat * 1000 ∧
    (limiter.refilled last timestampMs).toNat ≤ limiter.creditsMilli.toNat +
      (timestampMs.toNat - last.toNat) * limiter.ratePerSecond.toNat := by
  rw [refilled_toNat filled]
  constructor
  · exact Nat.min_le_right _ _
  · refine Nat.le_trans (Nat.min_le_left _ _) (Nat.le_trans (Nat.min_le_left _ _) ?_)
    exact Nat.add_le_add_left (Nat.min_le_left _ _) _

/-- A call before the last one processed is refused and changes nothing; any other spends from the
refilled credit. -/
theorem allowAt_cases (filled : limiter.Filled) (timestampMs : UInt64) :
    limiter.allowAt timestampMs = (.error .clockMovedBackwards, limiter) ∨
    ∃ credit, limiter.allowAt timestampMs = limiter.spend credit timestampMs ∧
      credit.toNat ≤ limiter.ratePerSecond.toNat * 1000 ∧
      (limiter.lastTimestampMs = none ∨ ∃ last, limiter.lastTimestampMs = some last ∧
        last ≤ timestampMs ∧ credit.toNat ≤ limiter.creditsMilli.toNat +
          (timestampMs.toNat - last.toNat) * limiter.ratePerSecond.toNat) := by
  unfold allowAt
  cases found : limiter.lastTimestampMs with
  | none => exact .inr ⟨_, rfl, filled.credits, .inl rfl⟩
  | some last =>
    by_cases backwards : timestampMs < last
    · exact .inl (if_pos backwards)
    · obtain ⟨full, refilled⟩ := refilled_le filled
      exact .inr ⟨_, if_neg backwards, full, .inr ⟨last, rfl, UInt64.not_lt.mp backwards, refilled⟩⟩

end WordLimiter

open WordLimiter

/-! ## Runs -/

/-- A limiter and its calls so far: when, and whether the event was admitted. -/
structure LimiterRun where
  limiter : WordLimiter
  history : List (UInt64 × Bool)

namespace LimiterRun

def after (run : LimiterRun) (timestampMs : UInt64) : LimiterRun :=
  match run.limiter.allowAt timestampMs with
  | (.ok (), limiter) => { limiter, history := run.history ++ [(timestampMs, true)] }
  | (.error _, limiter) => { limiter, history := run.history ++ [(timestampMs, false)] }

def admitted (calls : List (UInt64 × Bool)) : Nat := calls.countP (·.2)

end LimiterRun

/-- Any calls on a new limiter of this rate. -/
def limiterRuns (ratePerSecond : UInt32) : Lts LimiterRun UInt64 where
  init run := WordLimiter.new ratePerSecond = .ok run.limiter ∧ run.history = []
  step first timestampMs second := second = first.after timestampMs

variable {run : LimiterRun}

namespace LimiterRun

/-- What a window admitted, from an admitted call on, with the credit left over is paid by a full
bucket and the refill since that call. -/
def Paid (rate : Nat) (limiter : WordLimiter) (history : List (UInt64 × Bool)) : Prop :=
  ∀ before start window, history = before ++ (start, true) :: window →
    ∃ last, limiter.lastTimestampMs = some last ∧ start ≤ last ∧
      1000 * (admitted window + 1) + limiter.creditsMilli.toNat ≤
        rate * 1000 + (last.toNat - start.toNat) * rate

/-- The bound on the window between two admitted calls. -/
def Bounded (rate : Nat) (before : List (UInt64 × Bool)) (call : UInt64 × Bool) : Prop :=
  call.2 = true → ∀ earlier start window, before = earlier ++ (start, true) :: window →
    start ≤ call.1 ∧ admitted window + 2 ≤ rate + rate * (call.1.toNat - start.toNat) / 1000

structure Sound (ratePerSecond : UInt32) (run : LimiterRun) : Prop where
  rate : run.limiter.ratePerSecond = ratePerSecond
  filled : run.limiter.Filled
  paid : Paid ratePerSecond.toNat run.limiter run.history
  bounded : AtEach (Bounded ratePerSecond.toNat) run.history

variable {rate : Nat} {limiter : WordLimiter} {history : List (UInt64 × Bool)}

/-- A call that is not refused as backwards: with the credit it found, it pays for its own event. -/
theorem Paid.spend (paid : Paid rate limiter history) {timestampMs credit : UInt64}
    (full : credit.toNat ≤ rate * 1000)
    (refilled : limiter.lastTimestampMs = none ∨ ∃ last, limiter.lastTimestampMs = some last ∧
      last ≤ timestampMs ∧ credit.toNat ≤ limiter.creditsMilli.toNat +
        (timestampMs.toNat - last.toNat) * rate)
    (granted : Bool) (after : WordLimiter) (moved : after.lastTimestampMs = some timestampMs)
    (left : after.creditsMilli.toNat + 1000 * granted.toNat = credit.toNat) :
    Paid rate after (history ++ [(timestampMs, granted)]) ∧
      Bounded rate history (timestampMs, granted) := by
  -- Before the first call nothing was admitted.
  have covered {before window : List (UInt64 × Bool)} {start : UInt64}
      (split : history = before ++ (start, true) :: window) : start ≤ timestampMs ∧
        1000 * (admitted window + 1) + credit.toNat ≤
          rate * 1000 + (timestampMs.toNat - start.toNat) * rate := by
    obtain ⟨seen, same, started, covered⟩ := paid before start window split
    rcases refilled with fresh | ⟨last, found, later, refilled⟩
    · exact nomatch fresh.symm.trans same
    obtain rfl : last = seen := Option.some.inj (found.symm.trans same)
    rw [le_iff_toNat_le] at started later
    refine ⟨le_iff_toNat_le.mpr (by omega), ?_⟩
    have whole : (timestampMs.toNat - start.toNat) * rate =
        (last.toNat - start.toNat) * rate + (timestampMs.toNat - last.toNat) * rate := by
      rw [← Nat.add_mul]
      congr 1
      omega
    omega
  constructor
  · intro before start window split
    refine ⟨timestampMs, moved, ?_⟩
    rcases concat_eq_split split with ⟨rfl, rfl, same⟩ | ⟨rest, rfl, earlier⟩
    · cases same
      refine ⟨UInt64.le_refl _, ?_⟩
      simp only [admitted, List.countP_nil, Bool.toNat_true] at left ⊢
      omega
    · obtain ⟨started, covered⟩ := covered earlier
      refine ⟨started, ?_⟩
      rw [admitted, countP_concat, ← admitted]
      omega
  · intro admittedNow earlier start window split
    obtain rfl : granted = true := admittedNow
    obtain ⟨started, covered⟩ := covered split
    refine ⟨started, ?_⟩
    rw [Nat.mul_comm rate]
    rw [Bool.toNat_true] at left
    dsimp only
    omega

theorem Sound.after (sound : run.Sound ratePerSecond)
    (timestampMs : UInt64) : (run.after timestampMs).Sound ratePerSecond := by
  obtain ⟨rfl, filled, paid, bounded⟩ := sound
  rcases allowAt_cases filled timestampMs with
    answer | ⟨credit, answer, full, refilled⟩
  · -- A backwards call leaves the limiter alone and its entry admits nothing.
    simp only [LimiterRun.after, answer]
    refine ⟨rfl, filled, ?_, atEach_concat.mpr ⟨bounded, fun granted => nomatch granted⟩⟩
    intro before start window split
    rcases concat_eq_split split with ⟨rfl, rfl, same⟩ | ⟨rest, rfl, earlier⟩
    · cases same
    · rw [admitted, countP_concat, ← admitted]
      exact paid before start rest earlier
  · unfold spend at answer
    split at answer
    · simp only [LimiterRun.after, answer]
      obtain ⟨paid, bound⟩ := paid.spend full refilled false
        { run.limiter with creditsMilli := credit, lastTimestampMs := some timestampMs } rfl rfl
      exact ⟨rfl, ⟨filled.rate, full⟩, paid, atEach_concat.mpr ⟨bounded, bound⟩⟩
    next enough =>
    have above : 1000 ≤ credit.toNat := le_iff_toNat_le.mp (UInt64.not_lt.mp enough)
    have spent : (credit - 1000).toNat = credit.toNat - 1000 :=
      UInt64.toNat_sub_of_le _ _ (UInt64.not_lt.mp enough)
    simp only [LimiterRun.after, answer]
    obtain ⟨paid, bound⟩ := paid.spend full refilled true
      { run.limiter with creditsMilli := credit - 1000, lastTimestampMs := some timestampMs }
      rfl (by simp only [spent, Bool.toNat_true]; omega)
    exact ⟨rfl, ⟨filled.rate, by simp only [spent]; omega⟩, paid,
      atEach_concat.mpr ⟨bounded, bound⟩⟩

theorem reachable_sound
    (reachable : (limiterRuns ratePerSecond).Reachable run) : run.Sound ratePerSecond := by
  refine reachable.invariant (Sound ratePerSecond) ?_ ?_
  · rintro ⟨limiter, history⟩ ⟨made, rfl⟩
    obtain ⟨filled, rate, _⟩ := new_filled made
    exact ⟨rate, filled, fun before _ _ split => by simp at split, atEach_nil⟩
  · rintro first timestampMs _ sound rfl
    exact sound.after timestampMs

end LimiterRun

/-- The token bucket bound.  In every run of a limiter of an accepted rate the words compute what
unbounded numbers do, so nothing wraps; the credit is never more than a second's worth; from one
admitted call to a later one, both counted, no more events are admitted than the rate and its share
of the time between; and a call before the last one processed is refused and changes nothing. -/
theorem token_bucket {ratePerSecond : UInt32} {run : LimiterRun}
    (reachable : (limiterRuns ratePerSecond).Reachable run) :
    (∀ timestampMs : UInt64, run.limiter.numbers.allowAt timestampMs.toNat =
      ((run.limiter.allowAt timestampMs).1, (run.limiter.allowAt timestampMs).2.numbers)) ∧
    run.limiter.creditsMilli.toNat ≤ ratePerSecond.toNat * 1000 ∧
    (∀ before start window finish after, run.history =
        before ++ (start, true) :: window ++ (finish, true) :: after → start ≤ finish ∧
      LimiterRun.admitted window + 2 ≤
        ratePerSecond.toNat + ratePerSecond.toNat * (finish.toNat - start.toNat) / 1000) ∧
    ∀ last timestampMs, run.limiter.lastTimestampMs = some last → timestampMs < last →
      run.limiter.allowAt timestampMs = (.error .clockMovedBackwards, run.limiter) := by
  obtain ⟨rate, filled, _, bounded⟩ := LimiterRun.reachable_sound reachable
  refine ⟨allowAt_numbers filled, rate ▸ filled.credits, ?_, ?_⟩
  · intro before start window finish after split
    exact bounded _ (finish, true) after split rfl before start window rfl
  · intro last timestampMs found backwards
    unfold allowAt
    simp only [found, backwards, if_true]

namespace LimiterRun

/-- Two events a second apart, at one event a second. -/
def twice : LimiterRun :=
  (LimiterRun.after { limiter := ⟨1, 1000, none⟩, history := [] } 5).after 1005

theorem twice_reachable : (limiterRuns 1).Reachable twice :=
  ⟨{ limiter := ⟨1, 1000, none⟩, history := [] }, [5, 1005], ⟨by decide, rfl⟩,
    .cons rfl (.cons rfl (.nil _))⟩

theorem token_bucket_twice :
    (limiterRuns 1).Reachable twice ∧ twice.history = [(5, true), (1005, true)] ∧
      0 + 2 ≤ 1 + 1 * (1005 - 5) / 1000 :=
  ⟨twice_reachable, by decide, ((token_bucket twice_reachable).2.2.1 [] 5 [] 1005 [] (by decide)).2⟩

end LimiterRun
end Monhop.Protocol
