import Monhop.Library.Trace
import Monhop.Library.Transition
import Monhop.Transport.Health

/-! # The token bucket of a member's handshakes

A take first counts the tokens earned since the reference time, which moves on by whole refills, so
that the fraction of the next token is kept.  Times are in nanoseconds.

* `Takes` — what a take does; its `paid` has no clock in it and adds up over any takes.
* `BucketRun.Paid` — what the takes from a granted one on come to.
* `bucket_grants` — what every sequence of takes is granted.
-/

namespace Monhop.Transport

open Library List

/-- The longest `Duration`, and so the last instant, counted from the first. -/
def durationMax : Nat := (2 ^ 64 - 1) * 1000000000 + 999999999

structure TokenBucket where
  burst : Nat
  refill : Nat
  tokens : Nat
  refilled : Nat
  burstWord : burst ≤ u32Max
  burstPos : 0 < burst
  refillPos : 0 < refill
  tokensLe : tokens ≤ burst

instance : DecidableEq TokenBucket := fun first second =>
  decidable_of_iff (first.burst = second.burst ∧ first.refill = second.refill ∧
    first.tokens = second.tokens ∧ first.refilled = second.refilled) (by
      cases first; cases second; simp)

namespace TokenBucket

def new (burst refill now : Nat) (burstWord : burst ≤ u32Max) (burstPos : 0 < burst)
    (refillPos : 0 < refill) : TokenBucket :=
  { burst, refill, tokens := burst, refilled := now, burstWord, burstPos, refillPos,
    tokensLe := Nat.le_refl _ }

variable (bucket : TokenBucket) (now : Nat)

/-- Times are subtracted with saturation, and the quotient is cut to a word. -/
def earned : Nat := min ((now - bucket.refilled) / bucket.refill) u32Max

/-- The bucket with the tokens earned by now, unless the new reference time overflows. -/
def earn : Option TokenBucket :=
  if bucket.tokens < bucket.burst ∧ 0 < bucket.earned now then
    let tokens := min (min (bucket.tokens + bucket.earned now) u32Max) bucket.burst
    let refilled := bucket.refilled + bucket.refill * bucket.earned now
    if tokens = bucket.burst then
      some { bucket with tokens, refilled := now, tokensLe := Nat.min_le_right .. }
    else if bucket.refill * bucket.earned now ≤ durationMax ∧ refilled ≤ durationMax then
      some { bucket with tokens, refilled, tokensLe := Nat.min_le_right .. }
    else none
  else some bucket

/-- A full bucket earns nothing, so its reference time is that of the first take. -/
def take : Option (Bool × TokenBucket) :=
  (bucket.earn now).map fun bucket =>
    if bucket.tokens = 0 then (false, bucket)
    else
      (true, { bucket with
        tokens := bucket.tokens - 1
        refilled := if bucket.tokens = bucket.burst then now else bucket.refilled
        tokensLe := Nat.le_trans (Nat.sub_le ..) bucket.tokensLe })

structure Takes (granted : Bool) (later : TokenBucket) : Prop where
  burst : later.burst = bucket.burst
  refill : later.refill = bucket.refill
  below : later.tokens < bucket.burst
  paid : bucket.tokens < bucket.burst → bucket.refill * (later.tokens + granted.toNat) +
    bucket.refilled ≤ bucket.refill * bucket.tokens + later.refilled
  reference : granted = true ∧ later.refilled ≤ now ∨ bucket.tokens < bucket.burst ∧
    later.refilled = bucket.refilled ∧ later.tokens + granted.toNat = bucket.tokens
  fresh : granted = true → bucket.refill * (later.tokens + 1) + now ≤
    bucket.refill * bucket.burst + later.refilled
  waited : bucket.tokens = bucket.burst ∨ bucket.refilled + bucket.refill ≤ now → granted = true

variable {bucket now}

/-- Nothing is earned, or what whole refills are worth, and the bucket is then full or earns its
next token later. -/
theorem earn_spec (named : now ≤ durationMax) :
    ∃ later, bucket.earn now = some later ∧ later.burst = bucket.burst ∧
      later.refill = bucket.refill ∧
      (later = bucket ∨ 0 < later.tokens ∧ later.refilled ≤ now ∧
        bucket.refill * later.tokens + bucket.refilled ≤
          bucket.refill * bucket.tokens + later.refilled) ∧
      (later.tokens = bucket.burst ∨ now < later.refilled + bucket.refill) := by
  obtain ⟨burst, refill, tokens, refilled, word, -, runs, within⟩ := bucket
  have whole := Nat.mul_div_le (now - refilled) refill
  have rest := Nat.lt_mul_div_succ (now - refilled) runs
  obtain ⟨count, quotient⟩ : ∃ count, count = (now - refilled) / refill := ⟨_, rfl⟩
  rw [← quotient, Nat.mul_succ] at rest
  rw [← quotient] at whole
  simp only [earn, earned, ← quotient]
  have scaled := Nat.mul_add refill tokens count
  split
  · next short =>
    have counted := Nat.le_mul_of_pos_right refill (show 0 < count by omega)
    by_cases full : burst ≤ tokens + count
    · have covered := Nat.mul_le_mul_left refill full
      have filled : min (min (tokens + min count u32Max) u32Max) burst = burst := by grind
      simp only [filled, if_true]
      exact ⟨_, rfl, rfl, rfl, .inr ⟨by dsimp only; omega, Nat.le_refl _, by dsimp only; omega⟩,
        .inl rfl⟩
    · have cut : min count u32Max = count := by omega
      have gained : min (min (tokens + count) u32Max) burst = tokens + count := by grind
      simp only [cut, gained]
      rw [if_neg (by omega), if_pos ⟨by omega, by omega⟩]
      exact ⟨_, rfl, rfl, rfl, .inr ⟨by dsimp only; omega, by dsimp only; omega,
        by dsimp only; omega⟩, .inr (by dsimp only; omega)⟩
  · next still =>
    refine ⟨_, rfl, rfl, rfl, .inl rfl, ?_⟩
    have some : 0 < u32Max := by decide
    by_cases none : count = 0
    · subst none
      exact .inr (by dsimp only; omega)
    · exact .inl (by dsimp only; omega)

theorem take_spec (named : now ≤ durationMax) :
    ∃ granted later, bucket.take now = some (granted, later) ∧
      bucket.Takes now granted later := by
  obtain ⟨later, earned, burst, refill, gains, soon⟩ := @earn_spec bucket now named
  have holds := bucket.burstPos
  have within := later.tokensLe
  unfold take
  rw [earned, Option.map_some]
  split
  · next empty =>
    -- an empty bucket has earned nothing
    rcases gains with rfl | ⟨some, -⟩
    · exact ⟨_, _, rfl, rfl, rfl, by omega, fun _ => Nat.le_refl _, .inr ⟨by omega, rfl, rfl⟩,
        nofun, fun wait => by omega⟩
    · omega
  next held =>
  have back := Nat.sub_add_cancel (Nat.pos_of_ne_zero held)
  by_cases full : later.tokens = later.burst
  · refine ⟨_, _, rfl, burst, refill, by dsimp only; omega, fun short => ?_,
      .inl ⟨rfl, Nat.le_of_eq (if_pos full)⟩, fun _ => ?_, fun _ => rfl⟩ <;>
      dsimp only <;> rw [if_pos full]
    · rw [Bool.toNat_true, back]
      rcases gains with rfl | ⟨-, past, worth⟩ <;> omega
    · exact Nat.le_of_eq (by rw [back, full, burst])
  · have room := Nat.mul_le_mul_left bucket.refill (show later.tokens + 1 ≤ bucket.burst by omega)
    rw [Nat.mul_succ] at room
    refine ⟨_, _, rfl, burst, refill, by dsimp only; omega, fun short => ?_, ?_, fun _ => ?_,
      fun _ => rfl⟩ <;> dsimp only <;> rw [if_neg full]
    · rw [Bool.toNat_true, back]
      rcases gains with rfl | ⟨-, -, worth⟩
      · exact Nat.le_refl _
      · exact worth
    · rcases gains with rfl | ⟨-, past, -⟩
      · exact .inr ⟨by omega, rfl, back⟩
      · exact .inl ⟨rfl, past⟩
    · rw [back]
      omega

end TokenBucket

/-- A bucket and its takes so far: when, and whether it was granted. -/
structure BucketRun where
  bucket : TokenBucket
  takes : List (Nat × Bool)
  deriving DecidableEq

namespace BucketRun

/-- A take at an instant the clock can name. -/
def take (run : BucketRun) (now : Nat) : Option BucketRun :=
  if now ≤ durationMax then
    (run.bucket.take now).map fun (granted, bucket) =>
      { bucket, takes := run.takes ++ [(now, granted)] }
  else none

end BucketRun

/-- Any takes from a new bucket. -/
def bucketRuns (burst refill : Nat) : Lts BucketRun Nat :=
  .ofNext (fun run => ∃ now word burstPos refillPos,
    run = ⟨.new burst refill now word burstPos refillPos, []⟩) BucketRun.take

namespace BucketRun

variable {burst refill now start latest : Nat} {run later : BucketRun}
  {window : List (Nat × Bool)}

/-- What was granted from a granted take on, with the tokens left, is paid by the burst and by what
the reference time moved on; by the burst alone until one of those takes sets that time. -/
structure Paid (bucket : TokenBucket) (start : Nat) (window : List (Nat × Bool)) : Prop where
  covered : bucket.refill * (window.countP (·.2) + 1 + bucket.tokens) + start ≤
    bucket.refill * bucket.burst + bucket.refilled
  within : ∀ latest, start ≤ latest → (∀ take ∈ window, take.2 = true → take.1 ≤ latest) →
    window.countP (·.2) + 1 + bucket.tokens ≤ bucket.burst ∨ bucket.refilled ≤ latest

structure Sound (burst refill : Nat) (run : BucketRun) : Prop where
  burst_eq : run.bucket.burst = burst
  refill_eq : run.bucket.refill = refill
  stands : run.takes = [] ∧ run.bucket.tokens = burst ∨
    run.bucket.tokens < burst ∧ ∃ take ∈ run.takes, run.bucket.refilled ≤ take.1
  paid : ∀ before start window, run.takes = before ++ (start, true) :: window →
    Paid run.bucket start window

variable {bucket after : TokenBucket} {granted : Bool}

theorem Paid.count_le (paid : Paid bucket start window) (first : start ≤ latest)
    (last : ∀ take ∈ window, take.2 = true → take.1 ≤ latest) :
    window.countP (·.2) + 1 ≤ bucket.burst + (latest - start) / bucket.refill := by
  rcases paid.within latest first last with few | reached
  · exact Nat.le_trans (by omega) (Nat.le_add_right _ _)
  · have covered := paid.covered
    have fits : bucket.refill * (window.countP (·.2) + 1 - bucket.burst) ≤ latest - start := by
      rw [Nat.mul_add] at covered
      rw [Nat.mul_sub]
      omega
    rw [Nat.mul_comm] at fits
    have := (Nat.le_div_iff_mul_le bucket.refillPos).mpr fits
    omega

theorem Paid.first (takes : bucket.Takes now true after) : Paid after now [] := by
  refine ⟨?_, fun latest passed _ => ?_⟩
  · rw [countP_nil, takes.burst, takes.refill, Nat.zero_add, Nat.add_comm 1]
    exact takes.fresh rfl
  · rcases takes.reference with ⟨-, moved⟩ | ⟨_, -, spent⟩
    · exact .inr (Nat.le_trans moved passed)
    · rw [Bool.toNat_true] at spent
      exact .inl (by rw [countP_nil, takes.burst]; omega)

theorem Paid.take (paid : Paid bucket start window) (short : bucket.tokens < bucket.burst)
    (takes : bucket.Takes now granted after) : Paid after start (window ++ [(now, granted)]) := by
  constructor
  · have covered := paid.covered
    have spent := takes.paid short
    rw [countP_concat, takes.burst, takes.refill]
    simp only [Nat.mul_add] at covered spent ⊢
    omega
  · intro latest first last
    rw [forall_mem_append, forall_mem_singleton] at last
    rw [countP_concat, takes.burst]
    rcases takes.reference with ⟨given, moved⟩ | ⟨-, same, spent⟩
    · exact .inr (Nat.le_trans moved (last.2 given))
    · rw [same]
      exact (paid.within latest first last.1).imp_left fun few => by omega

theorem Sound.take (sound : Sound burst refill run) (taken : run.take now = some later) :
    Sound burst refill later := by
  obtain ⟨rfl, rfl, stands, paid⟩ := sound
  rw [BucketRun.take, Option.ite_none_right_eq_some] at taken
  obtain ⟨granted, after, answer, takes⟩ := TokenBucket.take_spec taken.1
  rw [answer] at taken
  cases taken.2
  refine ⟨takes.burst, takes.refill, .inr ⟨takes.below, ?_⟩, fun before start window split => ?_⟩
  · rcases takes.reference with ⟨-, moved⟩ | ⟨short, same, -⟩
    · exact ⟨_, mem_concat_self, moved⟩
    · rcases stands with ⟨-, full⟩ | ⟨-, take, found, set⟩
      · omega
      · exact ⟨take, mem_append_left _ found, same ▸ set⟩
  · rcases concat_eq_split split with ⟨rfl, -, same⟩ | ⟨rest, rfl, earlier⟩
    · cases same
      exact .first takes
    · rcases stands with ⟨none, -⟩ | ⟨short, -⟩
      · exact absurd (none.symm.trans earlier) (by simp)
      · exact (paid before start rest earlier).take short takes

theorem reachable_sound (reachable : (bucketRuns burst refill).Reachable run) :
    Sound burst refill run := by
  refine reachable.invariant (Sound burst refill) ?_ fun _ _ _ sound step => sound.take step
  rintro _ ⟨now, word, burstPos, refillPos, rfl⟩
  exact ⟨rfl, rfl, .inl ⟨rfl, rfl⟩, fun _ _ _ split => absurd split (by simp)⟩

end BucketRun

/-- Whatever the times of the takes, the tokens stay within the burst; a further take overflows
nothing and is granted a refill after every earlier one; and the takes granted from one to the last
are at most the burst and the whole refills from it to the latest of them. -/
theorem bucket_grants {burst refill : Nat} {run : BucketRun}
    (reachable : (bucketRuns burst refill).Reachable run) :
    run.bucket.tokens ≤ burst ∧
    (∀ now ≤ durationMax, ∃ granted bucket, run.bucket.take now = some (granted, bucket) ∧
      ((∀ take ∈ run.takes, take.1 + refill ≤ now) → granted = true)) ∧
    ∀ before start window latest, run.takes = before ++ (start, true) :: window →
      start ≤ latest → (∀ take ∈ window, take.2 = true → take.1 ≤ latest) →
        window.countP (·.2) + 1 ≤ burst + (latest - start) / refill := by
  obtain ⟨rfl, rfl, stands, paid⟩ := BucketRun.reachable_sound reachable
  refine ⟨run.bucket.tokensLe, fun now named => ?_,
    fun before start window latest split => (paid before start window split).count_le⟩
  obtain ⟨granted, bucket, answer, takes⟩ := TokenBucket.take_spec named
  refine ⟨granted, bucket, answer, fun waited => takes.waited ?_⟩
  rcases stands with ⟨-, full⟩ | ⟨-, take, found, set⟩
  · exact .inl full
  · have := waited take found
    exact .inr (by omega)

namespace BucketRun

/-- Two takes at once and a third when the first token is back. -/
def three : BucketRun :=
  ⟨⟨2, 10, 0, 10, by decide, Nat.two_pos, by decide, by decide⟩, [(0, true), (0, true), (10, true)]⟩

theorem three_reachable : (bucketRuns 2 10).Reachable three :=
  ⟨_, [0, 0, 10], ⟨0, by decide, by decide, by decide, rfl⟩, .of_foldlM (fun _ _ _ _ => id) (by decide)⟩

theorem bucket_grants_three : (bucketRuns 2 10).Reachable three ∧ 2 + 1 ≤ 2 + (10 - 0) / 10 :=
  ⟨three_reachable, (bucket_grants three_reachable).2.2 [] 0 [(0, true), (10, true)] 10
    (by decide) (by decide) (by decide)⟩

/-- A take far ahead fills the bucket, and one at an earlier time is then granted as well: four in
a window of half a refill. -/
theorem backward_takes : ∃ run, (bucketRuns 2 10).Reachable run ∧
    run.takes = [(0, true), (0, true), (1000, true), (5, true)] ∧
    ¬ run.takes.countP (·.2) ≤ 2 + (5 - 0) / 10 :=
  ⟨⟨⟨2, 10, 0, 1000, by decide, by decide, by decide, by decide⟩, _⟩,
    ⟨_, [0, 0, 1000, 5], ⟨0, by decide, by decide, by decide, rfl⟩,
      .of_foldlM (fun _ _ _ _ => id) (by decide)⟩,
    rfl, by decide⟩

end BucketRun
end Monhop.Transport
