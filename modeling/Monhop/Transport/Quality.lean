import Monhop.Core.Types

/-! # Link quality and motion pacing

A link's tier is judged from when each heartbeat challenge was answered and from the path's
own counters; absolute motion is spaced by the tier.  Each motion frame carries the tracked
position, so a frame that waits for its slot is replaced by the next.
-/

namespace Monhop.Transport

open Monhop.Core

def lateReply : Duration := .fromMillis 30
def stalledReply : Duration := .fromMillis 60
def qualityWindow : Duration := .fromSecs 3
def degradedMarks : Nat := 10
def badMarks : Nat := 9
def lossMinPackets : Nat := 50
def upgradeAfter : Duration := .fromSecs 2
def degradedMotionInterval : Duration := .fromMillis 4
def badMotionInterval : Duration := .fromMillis 8
def maxMarks : Nat := 256
def maxChallenges : Nat := 64

/-- A link's tier, best first. -/
inductive LinkQuality where
  | healthy
  | degraded
  | bad
  deriving DecidableEq

namespace LinkQuality

/-- The least time between two motion frames. -/
def motionInterval : LinkQuality → Duration
  | healthy => 0
  | degraded => degradedMotionInterval
  | bad => badMotionInterval

def better : LinkQuality → LinkQuality
  | bad => degraded
  | degraded | healthy => healthy

def rank : LinkQuality → Nat
  | healthy => 0
  | degraded => 1
  | bad => 2

end LinkQuality

/-- The path's counters at one moment. -/
structure PathSample where
  rtt : Duration
  lostPackets : Nat
  sentPackets : Nat

inductive Severity where
  | clean
  | late
  | stalled
  deriving DecidableEq

namespace Severity

def rank : Severity → Nat
  | clean => 0
  | late => 1
  | stalled => 2

def worse (first second : Severity) : Severity := if first.rank < second.rank then second else first

end Severity

def lateness (delay : Duration) : Severity :=
  if delay ≥ stalledReply then .stalled else if delay ≥ lateReply then .late else .clean

inductive Evidence (F : Type) where
  | reply (delay : Duration)
  /-- A challenge still unanswered; its reply, if it ever comes, adds nothing. -/
  | unanswered
  | path (rtt : Duration) (loss : Option F)
  | hold

structure QualitySummary (F : Type) where
  replies : Nat
  unanswered : Nat
  /-- Marks at least late, stalled ones included. -/
  late : Nat
  stalled : Nat
  slowestReply : Duration
  held : Bool
  pathRtt : Option Duration
  loss : Option F

structure TierChange (F : Type) where
  source : LinkQuality
  target : LinkQuality
  summary : QualitySummary F

structure LinkMonitor (F : Type) where
  tier : LinkQuality
  betterSince : Option Duration
  /-- When the current run of trouble first and last showed. -/
  trouble : Option (Duration × Duration)
  /-- Sent and neither answered nor overdue, oldest first. -/
  challenges : List (Nat × Duration)
  marks : List (Duration × Evidence F)
  /-- The counters loss was last judged from. -/
  pathBase : Option PathSample

/-- A bounded queue gives up its oldest entry. -/
def pushBounded {Entry : Type} (bound : Nat) (entries : List Entry) (entry : Entry) : List Entry :=
  (if entries.length = bound then entries.tail else entries) ++ [entry]

namespace QualitySummary

variable {F : Type}

def empty : QualitySummary F :=
  { replies := 0, unanswered := 0, late := 0, stalled := 0, slowestReply := 0, held := false
    pathRtt := none, loss := none }

def tier (summary : QualitySummary F) : LinkQuality :=
  if summary.held || decide (summary.stalled ≥ badMarks) then .bad
  else if summary.late ≥ degradedMarks then .degraded
  else .healthy

end QualitySummary

section Monitor
variable {F : Type} [Scalar F]

def stalledLoss : F := Scalar.ofInt 5 / Scalar.ofInt 100

def lateLoss : F := Scalar.ofInt 1 / Scalar.ofInt 100

def lossSeverity (loss : Option F) : Severity :=
  match loss with
  | none => .clean
  | some loss =>
    if Scalar.le stalledLoss loss then .stalled
    else if Scalar.le lateLoss loss then .late
    else .clean

namespace Evidence

def severity : Evidence F → Severity
  | reply delay => lateness delay
  | unanswered | hold => .stalled
  | path rtt loss => (lateness rtt).worse (lossSeverity loss)

def addTo (evidence : Evidence F) (summary : QualitySummary F) : QualitySummary F :=
  let severity := evidence.severity
  let counted :=
    { summary with
      late := summary.late + (if severity.rank ≥ Severity.late.rank then 1 else 0)
      stalled := summary.stalled + (if severity = Severity.stalled then 1 else 0) }
  match evidence with
  | reply delay =>
    { counted with replies := counted.replies + 1, slowestReply := max counted.slowestReply delay }
  | unanswered => { counted with unanswered := counted.unanswered + 1 }
  | path rtt loss => { counted with pathRtt := some rtt, loss := loss.or counted.loss }
  | hold => { counted with held := true }

end Evidence

namespace LinkMonitor

variable (monitor : LinkMonitor F)

section

omit [Scalar F]

def default : LinkMonitor F :=
  { tier := .healthy, betterSince := none, trouble := none, challenges := [], marks := []
    pathBase := none }

def quality : LinkQuality := monitor.tier

def challengeSent (token : Nat) (now : Duration) : LinkMonitor F :=
  { monitor with challenges := pushBounded maxChallenges monitor.challenges (token, now) }

end

def summary : QualitySummary F :=
  monitor.marks.foldl (fun summary mark => mark.2.addTo summary) .empty

def mark (now : Duration) (evidence : Evidence F) : LinkMonitor F :=
  let marked := { monitor with marks := pushBounded maxMarks monitor.marks (now, evidence) }
  if evidence.severity.rank ≥ Severity.late.rank then
    { marked with trouble := some ((monitor.trouble.map Prod.fst).getD now, now) }
  else marked

/-- Downgrades at once, and climbs one tier after a clean stretch. -/
def settle (now : Duration) : Option (TierChange F) × LinkMonitor F :=
  let monitor :=
    { monitor with marks := monitor.marks.dropWhile fun mark => decide (now - mark.1 ≥ qualityWindow) }
  let summary := monitor.summary
  let evidence := summary.tier
  let monitor := if evidence = .healthy then { monitor with trouble := none } else monitor
  let source := monitor.tier
  if evidence.rank > source.rank then
    (some { source, target := evidence, summary },
      { monitor with tier := evidence, betterSince := none })
  else if evidence.rank < source.rank then
    let since := monitor.betterSince.getD now
    if now - since < upgradeAfter then (none, { monitor with betterSince := some since })
    else
      (some { source, target := source.better, summary },
        { monitor with tier := source.better, betterSince := none })
  else (none, { monitor with betterSince := none })

/-- A reply to a challenge this monitor saw go out. -/
def reply (token : Nat) (now : Duration) : Option (TierChange F) × LinkMonitor F :=
  match monitor.challenges.findIdx? fun challenge => challenge.1 == token with
  | none => (none, monitor)
  | some index =>
    let sent := ((monitor.challenges[index]?).map Prod.snd).getD 0
    ({ monitor with challenges := monitor.challenges.eraseIdx index }.mark now
      (.reply (now - sent))).settle now

/-- The loss since the counters it was last judged from. -/
def pathLoss (sample : PathSample) : Option F :=
  match monitor.pathBase with
  | none => none
  | some base =>
    let sent := sample.sentPackets - base.sentPackets
    if sent ≥ lossMinPackets then
      some (Scalar.ofInt (sample.lostPackets - base.lostPackets : Nat) / Scalar.ofInt sent)
    else none

def path (sample : PathSample) (now : Duration) : Option (TierChange F) × LinkMonitor F :=
  let loss := monitor.pathLoss sample
  let based := if loss.isSome || monitor.pathBase.isNone then { monitor with pathBase := some sample }
    else monitor
  (based.mark now (.path sample.rtt loss)).settle now

def held (now : Duration) : Option (TierChange F) × LinkMonitor F :=
  (monitor.mark now .hold).settle now

/-- Marks the challenges that went overdue, oldest first. -/
def markOverdue (monitor : LinkMonitor F) (now : Duration) : List (Nat × Duration) → LinkMonitor F
  | [] => { monitor with challenges := [] }
  | challenge :: rest =>
    if now - challenge.2 < stalledReply then { monitor with challenges := challenge :: rest }
    else (monitor.mark now .unanswered).markOverdue now rest

def tick (now : Duration) : Option (TierChange F) × LinkMonitor F :=
  (monitor.markOverdue now monitor.challenges).settle now

end LinkMonitor
end Monitor

/-! ## Pacing -/

structure MotionPacer (F : Type) where
  waiting : Option (Point F)
  lastSent : Option Duration

namespace MotionPacer

variable {F : Type}

def default : MotionPacer F := { waiting := none, lastSent := none }

variable (pacer : MotionPacer F)

def hasWaiting : Bool := pacer.waiting.isSome

/-- The waiting position now, so an ordered frame never overtakes the motion before it. -/
def flush (now : Duration) : Option (Point F) × MotionPacer F :=
  match pacer.waiting with
  | none => (none, pacer)
  | some position => (some position, { waiting := none, lastSent := some now })

/-- Whether the slot of the next position is open. -/
def isOpen (interval now : Duration) : Bool :=
  pacer.lastSent.all fun last => decide (now - last ≥ interval)

/-- The waiting position once `interval` has passed since the last one went out. -/
def due (interval now : Duration) : Option (Point F) × MotionPacer F :=
  if pacer.isOpen interval now then pacer.flush now else (none, pacer)

/-- The position to send now; otherwise it waits in place of any older one. -/
def offer (position : Point F) (interval now : Duration) : Option (Point F) × MotionPacer F :=
  { pacer with waiting := some position }.due interval now

def discard : MotionPacer F := { pacer with waiting := none }

end MotionPacer
end Monhop.Transport
