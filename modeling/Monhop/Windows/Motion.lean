import Monhop.Core.Types
import Monhop.Library.Transition

/-! # Windows motion is sent exactly once

Hook moves are sent at once as predictions; the raw sample that covers them later sends only what
it gives beyond them.  Coordinates are exact here, and the gain of a sample and the scale learned
from it are any positive numbers.  `Axis.Moves` says how the two accumulators of an axis move with
what is sent, given and left standing.  The `Ledger` decides from the events alone which moves a
sample covers; `motion_sent_once` says that in every run the accounts agree with it.
-/

namespace Monhop.Windows

open Monhop.Core Library

def absorbShare : ℚ := 1 / 2

def settleAfter : Duration := .fromMillis 100

def negligible : ℚ := 1 / 1000000000

def maxMergedReports : Nat := 16

/-! ## One axis -/

@[ext] structure Axis where
  predicted : ℚ := 0
  owed : ℚ := 0

namespace Axis

variable (axis : Axis)

def send (predicted : ℚ) : ℚ × Axis :=
  let paid :=
    if 0 < axis.owed * predicted then axis.owed
    else if axis.owed * predicted < 0 then
      (if axis.owed < 0 then -1 else 1) * min |axis.owed| (|predicted| * absorbShare)
    else 0
  (predicted + paid, { predicted := axis.predicted + predicted, owed := axis.owed - paid })

def takeOwed : ℚ × Axis :=
  if |axis.owed| < negligible then (0, axis) else (axis.owed, { axis with owed := 0 })

def reconcile (truth : ℚ) : ℚ × Axis :=
  let heading := if axis.predicted = 0 then truth else axis.predicted
  let axis : Axis := { predicted := 0, owed := axis.owed + (truth - axis.predicted) }
  if 0 < axis.owed * heading then axis.takeOwed else (0, axis)

/-- Moves are no longer awaited by a sample: they stand, or are charged back. -/
def uncover (charged : Bool) : Axis :=
  { predicted := 0, owed := if charged then axis.owed - axis.predicted else axis.owed }

/-- The accumulators move by what is sent, given and left standing. -/
def Moves (axis later : Axis) (sent given standing : ℚ) : Prop :=
  later.predicted - later.owed + standing = axis.predicted - axis.owed + (sent - given)

theorem send_moves (predicted : ℚ) :
    axis.Moves (axis.send predicted).2 (axis.send predicted).1 0 0 := by
  simp only [Moves, send]
  ring

theorem uncover_moves (charged : Bool) :
    axis.Moves (axis.uncover charged) 0 0 (if charged then 0 else axis.predicted) := by
  cases charged <;> simp [Moves, uncover, neg_add_eq_sub]

theorem takeOwed_spec : axis.Moves axis.takeOwed.2 axis.takeOwed.1 0 0 ∧
    axis.takeOwed.2.predicted = axis.predicted ∧ |axis.takeOwed.2.owed| < negligible := by
  unfold Moves takeOwed
  split
  · next small => exact ⟨by simp, rfl, small⟩
  · exact ⟨by simp, rfl, by simp [negligible]⟩

theorem reconcile_spec (truth : ℚ) :
    axis.Moves (axis.reconcile truth).2 (axis.reconcile truth).1 truth 0 ∧
      (axis.reconcile truth).2.predicted = 0 := by
  unfold reconcile
  generalize (if axis.predicted = 0 then truth else axis.predicted) = heading
  dsimp only
  split
  · obtain ⟨moves, same, -⟩ := takeOwed_spec ⟨0, axis.owed + (truth - axis.predicted)⟩
    refine ⟨?_, same⟩
    unfold Moves at *
    linarith
  · exact ⟨by simp only [Moves]; ring, rfl⟩

/-- What is owed against a move is paid from at most half of it. -/
theorem send_eq (predicted : ℚ) :
    ∃ paid, (axis.send predicted).1 = predicted + paid ∧
      (0 ≤ paid * predicted ∨ |paid| ≤ |predicted| * absorbShare) := by
  refine ⟨_, rfl, ?_⟩
  split
  · next along => exact .inl along.le
  split
  · have share : 0 ≤ |predicted| * absorbShare :=
      mul_nonneg (abs_nonneg _) (by norm_num [absorbShare])
    refine .inr ?_
    rw [abs_mul, abs_of_nonneg (le_min (abs_nonneg _) share)]
    split <;> simp
  · simp

/-- A move is sent its own way, and at least half of it. -/
theorem send_heads (predicted : ℚ) :
    0 ≤ (axis.send predicted).1 * predicted ∧
      |predicted| * absorbShare ≤ |(axis.send predicted).1| := by
  obtain ⟨paid, sent, share⟩ := axis.send_eq predicted
  rw [sent]
  unfold absorbShare at *
  rcases share with along | share
  · have longer : |predicted| ≤ |predicted + paid| := sq_le_sq.mp (by nlinarith [sq_nonneg paid])
    exact ⟨by nlinarith [mul_self_nonneg predicted], by linarith [abs_nonneg predicted]⟩
  · have most := abs_sub_abs_le_abs_sub predicted (-paid)
    rw [abs_neg, sub_neg_eq_add] at most
    have against := neg_abs_le (paid * predicted)
    rw [abs_mul] at against
    exact ⟨by nlinarith [abs_nonneg predicted, abs_mul_abs_self predicted], by linarith⟩

/-- Only what is owed along the heading is sent. -/
theorem reconcile_heads (truth : ℚ) : 0 ≤ (axis.reconcile truth).1 * axis.predicted := by
  by_cases still : axis.predicted = 0
  · simp [still]
  simp only [reconcile, still, if_false]
  split
  · next along =>
    unfold takeOwed
    split
    · simp
    · exact along.le
  · simp

end Axis

/-! ## Both axes -/

abbrev Positive := { value : ℚ // 0 < value }

inductive Side where
  | x
  | y

inductive RawMotion where
  | whole (counts : Side → Int) (gain : ℚ)
  | correction (dips : Side → ℚ)
  | covered

structure RemoteMotion where
  pixelsPerDip : Positive := ⟨1, one_pos⟩
  scale : Positive := ⟨1, one_pos⟩
  withheld : Side → ℚ := 0
  axes : Side → Axis := fun _ => {}
  reports : Nat := 0
  hookSent : Bool := false
  sourcedInRun : Bool := false
  lastMove : Option Duration := none

/-- The gain of a sample that merges so many reports, and the scale learned from the old one, the
moves withheld and what they truly came to. -/
structure Model where
  gain : (Side → Int) → Nat → Positive
  learn : Positive → (Side → ℚ) → (Side → ℚ) → Positive

/-- The hand has not moved for long enough. -/
def rested (lastMove : Option Duration) (now : Duration) : Bool :=
  lastMove.any fun last => settleAfter ≤ now - last

/-- Nothing is sent for no motion. -/
def motionOf (dips : Side → ℚ) : Option (Side → ℚ) :=
  if dips .x = 0 ∧ dips .y = 0 then none else some dips

namespace RemoteMotion

variable (motion : RemoteMotion)

def setPixelsPerDip (pixelsPerDip : ℚ) : RemoteMotion :=
  if positive : 0 < pixelsPerDip then { motion with pixelsPerDip := ⟨pixelsPerDip, positive⟩ }
  else motion

def new (pixelsPerDip : ℚ) : RemoteMotion := setPixelsPerDip {} pixelsPerDip

/-- The DIPs Windows would have moved for so many pixels, as the scale predicts them. -/
def predict (pixels : ℚ) : ℚ := pixels / motion.pixelsPerDip * motion.scale

def hookMove (withheld : Option (Side → ℚ)) (now : Duration) : Option (Side → ℚ) × RemoteMotion :=
  let motion :=
    { motion with reports := min (motion.reports + 1) (2 ^ 32 - 1), lastMove := some now }
  match withheld with
  | none => (none, motion)
  | some pixels =>
    let sends := fun side => (motion.axes side).send (motion.predict (pixels side))
    (motionOf fun side => (sends side).1,
      { motion with
        hookSent := true, axes := fun side => (sends side).2
        withheld := fun side => motion.withheld side + pixels side / motion.pixelsPerDip })

/-- What a sample truly moves. -/
def truth (model : Model) (counts : Side → Int) (side : Side) : ℚ :=
  counts side * model.gain counts (max 1 (min motion.reports maxMergedReports))

def raw (model : Model) (counts : Side → Int) : RawMotion × RemoteMotion :=
  let gain := model.gain counts (max 1 (min motion.reports maxMergedReports))
  let truth := motion.truth model counts
  let motion := { motion with sourcedInRun := true, reports := 0 }
  if motion.hookSent then
    let settles := fun side => (motion.axes side).reconcile (truth side)
    ((motionOf fun side => (settles side).1).elim .covered .correction,
      { motion with
        hookSent := false, axes := fun side => (settles side).2, withheld := 0
        scale := model.learn motion.scale motion.withheld truth })
  else (.whole counts gain, motion)

def chargeBackUncovered : RemoteMotion :=
  if motion.hookSent then
    { motion with
      hookSent := false, withheld := 0, reports := 0
      axes := fun side => (motion.axes side).uncover true }
  else motion

def standUncovered : RemoteMotion :=
  if motion.hookSent then
    { motion with
      hookSent := false, withheld := 0, axes := fun side => (motion.axes side).uncover false }
  else motion

def unsourced : RemoteMotion := if motion.sourcedInRun then motion else motion.standUncovered

def isRested (now : Duration) : Bool := rested motion.lastMove now

def settle (now : Duration) : Option (Side → ℚ) × RemoteMotion :=
  if motion.isRested now then
    let rested := { motion with lastMove := none, sourcedInRun := false }
    let motion :=
      if motion.sourcedInRun then rested.chargeBackUncovered else rested.standUncovered
    (motionOf fun side => (motion.axes side).takeOwed.1,
      { motion with axes := fun side => (motion.axes side).takeOwed.2 })
  else (none, motion)

end RemoteMotion

open RemoteMotion

def RawMotion.sent : RawMotion → Side → ℚ
  | .whole counts gain => fun side => counts side * gain
  | .correction dips => dips
  | .covered => 0

/-! ## Accounts -/

inductive MotionEvent where
  | hookMove (withheld : Option (Side → ℚ)) (now : Duration)
  | raw (model : Model) (counts : Side → Int)
  | unsourced
  | settle (now : Duration)

/-- The motion, and what the events say of each axis. -/
structure Ledger where
  motion : RemoteMotion
  sent : Side → ℚ := 0
  /-- What the raw samples gave. -/
  given : Side → ℚ := 0
  /-- The predictions no sample covered. -/
  standing : Side → ℚ := 0
  /-- The predictions a sample may still cover. -/
  awaiting : Side → ℚ := 0
  /-- A sourced sample came since the hand last rested. -/
  sampled : Bool := false
  lastMove : Option Duration := none

namespace Ledger

def post (ledger : Ledger) (motion : RemoteMotion) (sent given standing : Side → ℚ) : Ledger :=
  { ledger with
    motion, sent := ledger.sent + sent, given := ledger.given + given
    standing := ledger.standing + standing }

def next (ledger : Ledger) : MotionEvent → Ledger
  | .hookMove withheld now =>
    let (sent, motion) := ledger.motion.hookMove withheld now
    let predicted := fun side =>
      withheld.elim 0 fun pixels => ledger.motion.predict (pixels side)
    { ledger.post motion (sent.getD 0) 0 0 with
      awaiting := ledger.awaiting + predicted, lastMove := some now }
  -- a sourced sample covers every move since the one before
  | .raw model counts =>
    let (out, motion) := ledger.motion.raw model counts
    { ledger.post motion out.sent (ledger.motion.truth model counts) 0 with
      awaiting := 0, sampled := true }
  | .unsourced =>
    if ledger.sampled then ledger.post ledger.motion.unsourced 0 0 0
    else { ledger.post ledger.motion.unsourced 0 0 ledger.awaiting with awaiting := 0 }
  -- at rest, moves stand unless samples covered this motion and one came before its hook
  | .settle now =>
    let (sent, motion) := ledger.motion.settle now
    if rested ledger.lastMove now then
      { ledger.post motion (sent.getD 0) 0 (if ledger.sampled then 0 else ledger.awaiting) with
        awaiting := 0, sampled := false, lastMove := none }
    else ledger.post motion (sent.getD 0) 0 0

end Ledger

/-- The runs over any hook moves, raw samples and settle calls. -/
def motionRuns : Lts Ledger MotionEvent where
  init ledger := ∃ pixelsPerDip, ledger = { motion := .new pixelsPerDip }
  step ledger event next := next = ledger.next event

theorem getD_motionOf (dips : Side → ℚ) : (motionOf dips).getD 0 = dips := by
  unfold motionOf
  split
  · next still =>
    funext side
    cases side
    · exact still.1.symm
    · exact still.2.symm
  · rfl

theorem sent_elim (dips : Side → ℚ) :
    ((motionOf dips).elim .covered .correction : RawMotion).sent = dips := by
  refine Eq.trans ?_ (getD_motionOf dips)
  cases motionOf dips <;> rfl

/-! ## Every run -/

/-- What the accounts say, and that the flags agree with the events. -/
structure Ledger.Sound (ledger : Ledger) : Prop where
  balance : ∀ side, ledger.sent side - ledger.given side =
    ledger.awaiting side - (ledger.motion.axes side).owed + ledger.standing side
  predicted : ∀ side, (ledger.motion.axes side).predicted = ledger.awaiting side
  idle : ledger.motion.hookSent = false → ∀ side, (ledger.motion.axes side).predicted = 0
  sampled : ledger.motion.sourcedInRun = ledger.sampled
  lastMove : ledger.motion.lastMove = ledger.lastMove

section
variable {motion : RemoteMotion}

/-- Charged back or left standing, no prediction stays outstanding. -/
theorem rest_axes (idle : motion.hookSent = false → ∀ side, (motion.axes side).predicted = 0)
    (charged : Bool) (side : Side) :
    (if charged then motion.chargeBackUncovered else motion.standUncovered).axes side =
      (motion.axes side).uncover charged := by
  unfold chargeBackUncovered standUncovered
  cases charged <;> cases sent : motion.hookSent <;> simp_all [Axis.uncover, Axis.ext_iff]

theorem rest_flags (charged : Bool) :
    let rests := if charged then motion.chargeBackUncovered else motion.standUncovered
    rests.sourcedInRun = motion.sourcedInRun ∧ rests.lastMove = motion.lastMove := by
  unfold chargeBackUncovered standUncovered
  cases charged <;> cases motion.hookSent <;> exact ⟨rfl, rfl⟩

/-- A settle at rest. -/
theorem settle_spec (idle : motion.hookSent = false → ∀ side, (motion.axes side).predicted = 0)
    {now : Duration} (still : motion.isRested now = true) :
    let later := (motion.settle now).2
    (∀ side, (motion.axes side).Moves (later.axes side) ((motion.settle now).1.getD 0 side) 0
        (if motion.sourcedInRun then 0 else (motion.axes side).predicted) ∧
      (later.axes side).predicted = 0 ∧ |(later.axes side).owed| < negligible) ∧
    later.sourcedInRun = false ∧ later.lastMove = none := by
  let resting := { motion with lastMove := none, sourcedInRun := false }
  have rests := @rest_axes resting idle motion.sourcedInRun
  simp only [settle, still, if_true, getD_motionOf]
  refine ⟨fun side => ?_, @rest_flags resting motion.sourcedInRun⟩
  have uncovers := (motion.axes side).uncover_moves motion.sourcedInRun
  obtain ⟨moves, same, small⟩ := ((motion.axes side).uncover motion.sourcedInRun).takeOwed_spec
  rw [rests]
  refine ⟨?_, same, small⟩
  unfold Axis.Moves at *
  linarith

end

namespace Ledger

variable {ledger : Ledger} (sound : ledger.Sound)
include sound

theorem Sound.post {motion : RemoteMotion} {sent given standing awaiting : Side → ℚ}
    {sampled : Bool} {lastMove : Option Duration}
    (moves : ∀ side, (ledger.motion.axes side).Moves (motion.axes side) (sent side) (given side)
      (standing side))
    (predicted : ∀ side, (motion.axes side).predicted = awaiting side)
    (idle : motion.hookSent = false → ∀ side, (motion.axes side).predicted = 0)
    (flags : motion.sourcedInRun = sampled ∧ motion.lastMove = lastMove) :
    Sound { ledger.post motion sent given standing with awaiting, sampled, lastMove } := by
  refine ⟨fun side => ?_, predicted, idle, flags.1, flags.2⟩
  have balance := sound.balance side
  have moved := moves side
  simp only [Axis.Moves, Ledger.post, Pi.add_apply, sound.predicted, predicted] at *
  linarith

theorem Sound.next (event : MotionEvent) : (ledger.next event).Sound := by
  have stay {axis : Axis} {dips : ℚ} : axis.Moves axis dips dips 0 := by simp [Axis.Moves]
  cases event with
  | hookMove withheld now =>
    cases withheld with
    | none =>
      refine sound.post (fun _ => stay) (fun side => ?_) sound.idle ⟨sound.sampled, rfl⟩
      exact (sound.predicted side).trans (add_zero _).symm
    | some pixels =>
      simp only [Ledger.next, hookMove, getD_motionOf]
      refine sound.post (fun _ => Axis.send_moves _ _) (fun side => ?_) nofun ⟨sound.sampled, rfl⟩
      exact congrArg (· + _) (sound.predicted side)
  | raw model counts =>
    simp only [Ledger.next, RemoteMotion.raw]
    split
    · have settles := fun side =>
        (ledger.motion.axes side).reconcile_spec (ledger.motion.truth model counts side)
      refine sound.post (fun side => ?_) (fun side => (settles side).2)
        (fun _ side => (settles side).2) ⟨rfl, sound.lastMove⟩
      rw [sent_elim]
      exact (settles side).1
    · next none =>
      have idle := sound.idle (Bool.eq_false_iff.mpr none)
      exact sound.post (fun _ => stay) idle (fun _ => idle) ⟨rfl, sound.lastMove⟩
  | unsourced =>
    simp only [Ledger.next, unsourced, sound.sampled]
    split
    · exact sound.post (fun _ => stay) sound.predicted sound.idle ⟨sound.sampled, sound.lastMove⟩
    · have axes := rest_axes sound.idle false
      have flags := @rest_flags ledger.motion false
      have none : ∀ side, (ledger.motion.standUncovered.axes side).predicted = 0 :=
        fun side => axes side ▸ rfl
      refine sound.post (fun side => ?_) none (fun _ => none)
        ⟨flags.1.trans sound.sampled, flags.2.trans sound.lastMove⟩
      rw [← sound.predicted]
      exact axes side ▸ Axis.uncover_moves _ false
  | settle now =>
    have same : ledger.motion.isRested now = rested ledger.lastMove now :=
      congrArg (rested · now) sound.lastMove
    simp only [Ledger.next]
    split
    · next still =>
      obtain ⟨settles, flags⟩ := settle_spec sound.idle (same.trans still)
      refine sound.post (fun side => ?_) (fun side => (settles side).2.1)
        (fun _ side => (settles side).2.1) flags
      rw [← sound.sampled]
      have moves := (settles side).1
      rw [sound.predicted] at moves
      split at moves <;> simp_all
    · next moving =>
      simp only [settle, same, moving]
      exact sound.post (fun _ => stay) sound.predicted sound.idle ⟨sound.sampled, sound.lastMove⟩

end Ledger

theorem reachable_sound {ledger : Ledger} (reachable : motionRuns.Reachable ledger) :
    ledger.Sound := by
  refine reachable.invariant Ledger.Sound ?_ ?_
  · rintro _ ⟨pixelsPerDip, rfl⟩
    unfold RemoteMotion.new setPixelsPerDip
    split <;> constructor <;> simp_all
  · rintro ledger event _ sound rfl
    exact sound.next event

/-- In every run, on each axis: what was sent less what the raw samples gave is what the moves no
sample covered yet predicted, less what is owed, plus the predictions left standing; a settle at
rest leaves nothing outstanding and next to nothing owed; a hook move is sent its own way and at
least half of it; and a correction is not sent against the moves it covers. -/
theorem motion_sent_once {ledger : Ledger} (reachable : motionRuns.Reachable ledger) (side : Side) :
    let motion := ledger.motion
    ledger.sent side - ledger.given side =
      ledger.awaiting side - (motion.axes side).owed + ledger.standing side ∧
    (motion.axes side).predicted = ledger.awaiting side ∧
    (∀ now, rested ledger.lastMove now = true → let axis := (motion.settle now).2.axes side
      axis.predicted = 0 ∧ |axis.owed| < negligible) ∧
    (∀ pixels now, let sent := (motion.hookMove (some pixels) now).1.getD 0 side
      0 ≤ sent * pixels side ∧ |motion.predict (pixels side)| / 2 ≤ |sent|) ∧
    ∀ model counts dips, (motion.raw model counts).1 = .correction dips →
      0 ≤ dips side * ledger.awaiting side := by
  have sound := reachable_sound reachable
  refine ⟨sound.balance side, sound.predicted side, fun now still => ?_, fun pixels now => ?_,
    fun model counts dips corrects => ?_⟩
  · rw [← sound.lastMove] at still
    exact ((settle_spec sound.idle still).1 side).2
  · simp only [hookMove, getD_motionOf]
    obtain ⟨towards, half⟩ :=
      (ledger.motion.axes side).send_heads (ledger.motion.predict (pixels side))
    have positive := div_pos ledger.motion.scale.2 ledger.motion.pixelsPerDip.2
    refine ⟨nonneg_of_mul_nonneg_left ?_ positive, ?_⟩
    · refine towards.trans_eq ?_
      simp only [predict]
      ring
    · rwa [div_eq_mul_one_div]
  · rw [← sound.predicted]
    simp only [RemoteMotion.raw, motionOf] at corrects
    split at corrects
    · split at corrects <;> cases corrects
      exact Axis.reconcile_heads _ _
    · cases corrects

namespace MotionRun

/-- A gain of one, and a scale that stays. -/
def model : Model := ⟨fun _ _ => ⟨1, one_pos⟩, fun _ _ _ => ⟨1, one_pos⟩⟩

/-- A move of two pixels each way, a sample that gives half of it, and a move of four that pays
the overshoot back. -/
def overshot : Ledger :=
  ((Ledger.next { motion := .new 1 } (.hookMove (some 2) 0)).next (.raw model 1)).next
    (.hookMove (some 4) 1)

theorem motion_sent_once_overshot : motionRuns.Reachable overshot ∧
    (overshot.sent .x, overshot.given .x, overshot.awaiting .x) = (5, 1, 4) ∧
    overshot.sent .x - overshot.given .x =
      overshot.awaiting .x - (overshot.motion.axes .x).owed + overshot.standing .x ∧
    |((overshot.motion.settle (settleAfter + 1)).2.axes .x).owed| < negligible ∧
    |overshot.motion.predict 2| / 2 ≤ |(overshot.motion.hookMove (some 2) 2).1.getD 0 .x| ∧
    (overshot.motion.raw model 6).1.sent .x = 2 ∧
    ∀ dips, (overshot.motion.raw model 6).1 = .correction dips →
      0 ≤ dips .x * overshot.awaiting .x := by
  have reachable : motionRuns.Reachable overshot :=
    ⟨_, _, ⟨1, rfl⟩, .cons rfl (.cons rfl (.single rfl))⟩
  obtain ⟨balance, -, settles, hooks, corrects⟩ := motion_sent_once reachable .x
  exact ⟨reachable, by decide +kernel, balance, (settles _ (by decide +kernel)).2, (hooks 2 2).2,
    by decide +kernel, corrects model 6⟩

end MotionRun
end Monhop.Windows
