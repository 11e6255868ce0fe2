import Monhop.Core.Topology

/-! # Seams are crossed one at a time

With exact coordinates a motion leaves a display through one link at most.  A slanted motion past
a corner is beyond both edges, but it is past the dead zone of the first one before it is past that
of the second.

* `Edge.outward` — how far a point lies towards an edge, the same argument for all four.
* `crossingPoint_eq_some` — where a motion passes an edge's dead zone.
* `crosses_one_edge`, `crosses_one_span` — no second edge, and no second link of one edge.
* `seams_unambiguous` — the result, for every topology that is accepted.
-/

namespace Monhop.Core

open List Bool LogicalRect NormalizedSpan

/-- The rationals, with a distance to the largest value below. -/
structure Exact (step : ℚ) where
  value : ℚ
  deriving DecidableEq

namespace Exact

variable {step : ℚ}

/-- No power or exponential of a coordinate is taken. -/
instance : Scalar (Exact step) where
  zero := ⟨0⟩
  add first second := ⟨first.value + second.value⟩
  sub first second := ⟨first.value - second.value⟩
  mul first second := ⟨first.value * second.value⟩
  div first second := ⟨first.value / second.value⟩
  neg value := ⟨-value.value⟩
  ofInt value := ⟨value⟩
  lt first second := decide (first.value < second.value)
  le first second := decide (first.value ≤ second.value)
  same first second := decide (first.value = second.value)
  isFinite _ := true
  isPositiveZero value := decide (value.value = 0)
  abs value := if value.value < 0 then ⟨-value.value⟩ else value
  max first second := if first.value ≤ second.value then second else first
  min first second := if first.value ≤ second.value then first else second
  nextDown value := ⟨value.value - step⟩
  powf base _ := base
  exp exponent := exponent

variable {first second : Exact step}

@[simp] theorem value_zero : (0 : Exact step).value = 0 := rfl
@[simp] theorem value_add : (first + second).value = first.value + second.value := rfl
@[simp] theorem value_sub : (first - second).value = first.value - second.value := rfl
@[simp] theorem value_mul : (first * second).value = first.value * second.value := rfl
@[simp] theorem value_div : (first / second).value = first.value / second.value := rfl
@[simp] theorem value_ofInt (value : Int) : (Scalar.ofInt value : Exact step).value = value := rfl
@[simp] theorem value_nextDown : (Scalar.nextDown first).value = first.value - step := rfl
@[simp] theorem isFinite_eq : Scalar.isFinite first = true := rfl
@[simp] theorem lt_iff : Scalar.lt first second = true ↔ first.value < second.value :=
  decide_eq_true_iff
@[simp] theorem le_iff : Scalar.le first second = true ↔ first.value ≤ second.value :=
  decide_eq_true_iff
@[simp] theorem same_iff : Scalar.same first second = true ↔ first.value = second.value :=
  decide_eq_true_iff

theorem clamp_between {value low high : Exact step} (ordered : low.value ≤ high.value) :
    low.value ≤ (Scalar.clamp value low high).value ∧
      (Scalar.clamp value low high).value ≤ high.value := by
  unfold Scalar.clamp
  split
  · exact ⟨le_rfl, ordered⟩
  next above =>
  rw [lt_iff, not_lt] at above
  split
  · exact ⟨ordered, le_rfl⟩
  · next below =>
    rw [lt_iff, not_lt] at below
    exact ⟨above, below⟩

end Exact

variable {step : ℚ} {bounds : LogicalRect (Exact step)} {link other : EdgeLink (Exact step)}
  {previous current point : Point (Exact step)}

namespace LogicalRect

@[simp] theorem value_maxX : bounds.maxX.value = bounds.origin.x.value + bounds.size.width.value := rfl
@[simp] theorem value_maxY : bounds.maxY.value = bounds.origin.y.value + bounds.size.height.value := rfl

end LogicalRect

namespace Edge

/-- How far a point lies towards the edge. -/
def outward (point : Point (Exact step)) : Edge → ℚ
  | .left => -point.x.value
  | .right => point.x.value
  | .top => -point.y.value
  | .bottom => point.y.value

/-- Where the edge lies. -/
def reach (bounds : LogicalRect (Exact step)) : Edge → ℚ
  | .left => -bounds.origin.x.value
  | .right => bounds.maxX.value
  | .top => -bounds.origin.y.value
  | .bottom => bounds.maxY.value

def isSide : Edge → Bool
  | .left | .right => true
  | .top | .bottom => false

end Edge

/-- What a motion that crosses an edge does: it passes the dead zone at some progress, and the
crossing point is where it then is, moved to the edge. -/
structure Crosses (bounds : LogicalRect (Exact step)) (edge : Edge) (deadZone : ℚ)
    (previous current point : Point (Exact step)) (progress : ℚ) : Prop where
  leaves : edge.outward previous < edge.outward current
  beyond : edge.reach bounds + deadZone < edge.outward current
  passes : edge.outward previous + progress * (edge.outward current - edge.outward previous) =
    edge.reach bounds + deadZone
  onEdge : edge.outward point = edge.reach bounds
  along : ∀ side : Edge, side.isSide ≠ edge.isSide →
    side.outward point =
      side.outward previous + progress * (side.outward current - side.outward previous)

/-- The share of the way at which a motion is at a place. -/
theorem passes_at {start stop : ℚ} (moves : start ≠ stop) (place : ℚ) :
    start + (place - start) / (stop - start) * (stop - start) = place := by
  rw [div_mul_cancel₀ _ (sub_ne_zero.mpr moves.symm), add_sub_cancel]

/-- A side edge is crossed where the motion has a height, -/
theorem along_of_y {progress : ℚ}
    (moved : point.y.value = previous.y.value + (current.y.value - previous.y.value) * progress) :
    ∀ side : Edge, side.isSide ≠ true → side.outward point =
      side.outward previous + progress * (side.outward current - side.outward previous) := by
  intro side across
  cases side with
  | left | right => exact absurd rfl across
  | top | bottom =>
    simp only [Edge.outward, moved]
    ring1

/-- and another where it has a place across. -/
theorem along_of_x {progress : ℚ}
    (moved : point.x.value = previous.x.value + (current.x.value - previous.x.value) * progress) :
    ∀ side : Edge, side.isSide ≠ false → side.outward point =
      side.outward previous + progress * (side.outward current - side.outward previous) := by
  intro side across
  cases side with
  | top | bottom => exact absurd rfl across
  | left | right =>
    simp only [Edge.outward, moved]
    ring1

theorem crossingPoint_eq_some (crossed : crossingPoint bounds link previous current = some point) :
    ∃ progress,
      Crosses bounds link.fromEdge link.hysteresis.value previous current point progress := by
  unfold crossingPoint at crossed
  split at crossed <;> rename_i edge <;> dsimp only at crossed <;> split at crossed <;>
    cases crossed <;> rename_i passes <;>
    simp only [and_eq_true, Exact.le_iff, Exact.lt_iff, Exact.value_sub, Exact.value_add,
      value_maxX, value_maxY] at passes <;>
    obtain ⟨⟨_, beyond⟩, leaves⟩ := passes <;> rw [edge]
  · have passed := passes_at leaves.ne' (bounds.origin.x.value - link.hysteresis.value)
    refine ⟨_, neg_lt_neg leaves, ?_, ?_, rfl, along_of_y rfl⟩ <;>
      simp only [Edge.outward, Edge.reach, Exact.value_div, Exact.value_sub]
    · linarith
    · linear_combination -passed
  · exact ⟨_, leaves, beyond, passes_at leaves.ne _, rfl, along_of_y rfl⟩
  · have passed := passes_at leaves.ne' (bounds.origin.y.value - link.hysteresis.value)
    refine ⟨_, neg_lt_neg leaves, ?_, ?_, rfl, along_of_x rfl⟩ <;>
      simp only [Edge.outward, Edge.reach, Exact.value_div, Exact.value_sub]
    · linarith
    · linear_combination -passed
  · exact ⟨_, leaves, beyond, passes_at leaves.ne _, rfl, along_of_x rfl⟩

/-! ## Spans -/

/-- Only `new` makes a span. -/
def NormalizedSpan.Formed (span : NormalizedSpan (Exact step)) : Prop :=
  NormalizedSpan.new span.start span.stop = some span

variable {source : Display (Exact step)} {span : NormalizedSpan (Exact step)}

theorem NormalizedSpan.Formed.between (formed : span.Formed) :
    0 ≤ span.start.value ∧ span.start.value < span.stop.value ∧ span.stop.value ≤ 1 := by
  unfold Formed NormalizedSpan.new at formed
  dsimp only at formed
  split at formed
  · cases formed
  next sound =>
  simp only [not_eq_true, or_eq_false_iff, not_eq_false', and_eq_true,
    Exact.le_iff, Exact.value_zero, Exact.value_ofInt, Int.cast_one] at sound
  obtain ⟨⟨⟨_, low⟩, high⟩, ordered⟩ := sound
  rw [← not_eq_true, Exact.le_iff, not_le] at ordered
  exact ⟨low.1, ordered, high.2⟩

theorem NormalizedSpan.contains_iff {position : Exact step} :
    span.contains position = true ↔ span.start.value ≤ position.value ∧
      (position.value < span.stop.value ∨ span.stop.value = 1 ∧ position.value = 1) := by
  simp [NormalizedSpan.contains]

theorem NormalizedSpan.start_lt_stop {first second : NormalizedSpan (Exact step)}
    {position : Exact step} (formed : first.Formed) (inside : first.contains position = true)
    (shared : second.contains position = true) : first.start.value < second.stop.value := by
  obtain ⟨low, high⟩ := contains_iff.mp inside
  obtain ⟨_, ordered, _⟩ := formed.between
  rcases (contains_iff.mp shared).2 with below | ⟨whole, top⟩
  · exact low.trans_lt below
  · rcases high with below | ⟨whole', _⟩ <;> linarith

/-- The stretch of an edge that a span covers. -/
def Along (origin extent : Exact step) (span : NormalizedSpan (Exact step)) (place : Exact step) :
    Prop :=
  origin.value + extent.value * span.start.value ≤ place.value ∧
    place.value ≤ origin.value + extent.value * span.stop.value

/-- The point lies on the edge, in the span's stretch of it. -/
def OnSpan (bounds : LogicalRect (Exact step)) (edge : Edge) (span : NormalizedSpan (Exact step))
    (point : Point (Exact step)) : Prop :=
  match edge with
  | .left => point.x = bounds.origin.x ∧ Along bounds.origin.y bounds.size.height span point.y
  | .right => point.x = bounds.maxX ∧ Along bounds.origin.y bounds.size.height span point.y
  | .top => point.y = bounds.origin.y ∧ Along bounds.origin.x bounds.size.width span point.x
  | .bottom => point.y = bounds.maxY ∧ Along bounds.origin.x bounds.size.width span point.x

/-- A place whose share of the extent is in the span. -/
theorem along_of_contains {origin extent place : Exact step} (positive : 0 < extent.value)
    (inside : span.contains ((place - origin) / extent) = true) :
    Along origin extent span place := by
  rw [contains_iff] at inside
  simp only [Exact.value_div, Exact.value_sub] at inside
  obtain ⟨low, high⟩ := inside
  have high : (place.value - origin.value) / extent.value ≤ span.stop.value := by
    rcases high with below | ⟨whole, top⟩
    · exact below.le
    · rw [whole, top]
  rw [le_div_iff₀ positive] at low
  rw [div_le_iff₀ positive] at high
  constructor <;> linarith

/-- The motion crosses an edge in a stretch of it. -/
theorem crossingPoint_onEdge (crossed : crossingPoint bounds link previous current = some point) :
    (link.fromEdge = .left ∧ point.x = bounds.origin.x) ∨
      (link.fromEdge = .right ∧ point.x = bounds.maxX) ∨
      (link.fromEdge = .top ∧ point.y = bounds.origin.y) ∨
      (link.fromEdge = .bottom ∧ point.y = bounds.maxY) := by
  unfold crossingPoint at crossed
  split at crossed <;> rename_i edge <;> dsimp only at crossed <;> split at crossed <;>
    cases crossed
  · exact .inl ⟨edge, rfl⟩
  · exact .inr (.inl ⟨edge, rfl⟩)
  · exact .inr (.inr (.inl ⟨edge, rfl⟩))
  · exact .inr (.inr (.inr ⟨edge, rfl⟩))

theorem onSpan_of_contains (wide : 0 < bounds.size.width.value) (high : 0 < bounds.size.height.value)
    (crossed : crossingPoint bounds link previous current = some point)
    (inside : link.fromSpan.contains (normalizedPosition bounds link.fromEdge point) = true) :
    OnSpan bounds link.fromEdge link.fromSpan point := by
  rcases crossingPoint_onEdge crossed with ⟨edge, on⟩ | ⟨edge, on⟩ | ⟨edge, on⟩ | ⟨edge, on⟩ <;>
    rw [edge] at inside ⊢
  · exact ⟨on, along_of_contains high inside⟩
  · exact ⟨on, along_of_contains high inside⟩
  · exact ⟨on, along_of_contains wide inside⟩
  · exact ⟨on, along_of_contains wide inside⟩

/-- A point of one edge is not past the edges across. -/
theorem OnSpan.outward_le {edge : Edge} (wide : 0 < bounds.size.width.value)
    (high : 0 < bounds.size.height.value) (formed : span.Formed)
    (on : OnSpan bounds edge span point) (side : Edge) (across : side.isSide ≠ edge.isSide) :
    side.outward point ≤ side.reach bounds := by
  obtain ⟨low, _, top⟩ := formed.between
  have tall := mul_nonneg high.le low
  have broad := mul_nonneg wide.le low
  have tallTop := mul_le_mul_of_nonneg_left top high.le
  have broadTop := mul_le_mul_of_nonneg_left top wide.le
  cases edge <;> obtain ⟨_, above, below⟩ := on <;> cases side <;>
    simp only [Edge.isSide, ne_eq, not_true_eq_false] at across <;>
    simp only [Edge.outward, Edge.reach, value_maxX, value_maxY] <;>
    linarith

/-! ## One link -/

section
variable {edge side : Edge} {deadZone sideZone progress sideProgress : ℚ}
  {sidePoint : Point (Exact step)}

/-- Past one dead zone, and not past the edge across: the other dead zone comes later. -/
theorem Crosses.earlier (first : Crosses bounds edge deadZone previous current point progress)
    (second : Crosses bounds side sideZone previous current sidePoint sideProgress)
    (across : side.isSide ≠ edge.isSide) (within : side.outward point ≤ side.reach bounds)
    (positive : 0 < sideZone) : progress < sideProgress := by
  have moved := first.along side across
  have passes := second.passes
  have forward := sub_pos.mpr second.leaves
  refine lt_of_mul_lt_mul_right ?_ forward.le
  linarith

theorem Crosses.edge_eq_of_isSide
    (wide : 0 < bounds.size.width.value) (high : 0 < bounds.size.height.value)
    (first : Crosses bounds edge deadZone previous current point progress)
    (second : Crosses bounds side sideZone previous current sidePoint sideProgress)
    (positive : 0 < deadZone) (sidePositive : 0 < sideZone)
    (same : side.isSide = edge.isSide) : edge = side := by
  have beyond := first.beyond
  have sideBeyond := second.beyond
  cases edge <;> cases side <;> first | rfl | exact absurd same (by decide) | exfalso
  all_goals
    simp only [Edge.outward, Edge.reach, value_maxX, value_maxY]
      at beyond sideBeyond
    linarith

end

/-- The link is crossed inside its span. -/
structure Matches (bounds : LogicalRect (Exact step)) (previous current point : Point (Exact step))
    (link : EdgeLink (Exact step)) : Prop where
  crossed : crossingPoint bounds link previous current = some point
  inside : link.fromSpan.contains (normalizedPosition bounds link.fromEdge point) = true
  formed : link.fromSpan.Formed
  positive : 0 < link.hysteresis.value

variable {otherPoint : Point (Exact step)}

theorem crosses_one_edge (wide : 0 < bounds.size.width.value) (high : 0 < bounds.size.height.value)
    (first : Matches bounds previous current point link)
    (second : Matches bounds previous current otherPoint other) :
    link.fromEdge = other.fromEdge := by
  obtain ⟨progress, crosses⟩ := crossingPoint_eq_some first.crossed
  obtain ⟨otherProgress, otherCrosses⟩ := crossingPoint_eq_some second.crossed
  by_cases same : other.fromEdge.isSide = link.fromEdge.isSide
  · exact crosses.edge_eq_of_isSide wide high otherCrosses first.positive second.positive same
  -- each dead zone would be passed before the other
  have within := (onSpan_of_contains wide high first.crossed first.inside).outward_le wide high
    first.formed other.fromEdge same
  have otherWithin := (onSpan_of_contains wide high second.crossed second.inside).outward_le wide
    high second.formed link.fromEdge (Ne.symm same)
  have earlier := crosses.earlier otherCrosses same within second.positive
  have later := otherCrosses.earlier crosses (Ne.symm same) otherWithin first.positive
  exact absurd later earlier.asymm

/-- Links of one edge that are crossed together share a place. -/
theorem crosses_one_span (first : Matches bounds previous current point link)
    (second : Matches bounds previous current otherPoint other)
    (sameEdge : link.fromEdge = other.fromEdge) (sameZone : link.hysteresis = other.hysteresis) :
    link.fromSpan.overlaps other.fromSpan = true := by
  have samePoint : point = otherPoint := by
    have crossed := first.crossed
    unfold crossingPoint at crossed
    rw [sameEdge, sameZone] at crossed
    exact Option.some.inj (crossed.symm.trans second.crossed)
  subst samePoint
  have otherInside := second.inside
  rw [← sameEdge] at otherInside
  simp only [NormalizedSpan.overlaps, and_eq_true, Exact.lt_iff]
  exact ⟨start_lt_stop first.formed first.inside otherInside,
    start_lt_stop second.formed otherInside first.inside⟩

/-! ## Entering -/

/-- A dead zone that leaves room, and a step that does, keep the entry inside. -/
theorem entry_inside {edge : Edge} {position inset : Exact step} (positive : 0 < step)
    (wide : step ≤ bounds.size.width.value) (high : step ≤ bounds.size.height.value)
    (inward : 0 < inset.value) (room : inset.value < (edge.normalExtent bounds).value) :
    bounds.containsHalfOpen (destinationEntryPoint bounds edge position inset) = true := by
  have clampedX := @Exact.clamp_between step
    (bounds.origin.x + bounds.size.width * position) bounds.origin.x (Scalar.nextDown bounds.maxX)
    (by simp only [Exact.value_nextDown, value_maxX]; linarith)
  have clampedY := @Exact.clamp_between step
    (bounds.origin.y + bounds.size.height * position) bounds.origin.y (Scalar.nextDown bounds.maxY)
    (by simp only [Exact.value_nextDown, value_maxY]; linarith)
  simp only [Exact.value_nextDown, value_maxX, value_maxY] at clampedX clampedY
  simp only [containsHalfOpen, and_eq_true, Exact.le_iff, Exact.lt_iff, value_maxX, value_maxY]
  cases edge <;> simp only [Edge.normalExtent] at room <;>
    simp only [destinationEntryPoint, clampTangential, Exact.value_add, Exact.value_sub,
      value_maxX, value_maxY] <;>
    refine ⟨⟨⟨⟨rfl, ?_⟩, ?_⟩, ?_⟩, ?_⟩ <;> linarith

/-! ## Every topology that is accepted -/

/-- The links do not leave one edge through overlapping spans. -/
def EdgeLink.Apart (link other : EdgeLink (Exact step)) : Prop :=
  link.fromDisplay = other.fromDisplay → link.fromEdge = other.fromEdge →
    link.fromSpan.overlaps other.fromSpan = false

variable {links : List (EdgeLink (Exact step))}

theorem noOverlaps_iff : noOverlaps links = true ↔ links.Pairwise EdgeLink.Apart := by
  induction links with
  | nil => simp [noOverlaps]
  | cons link rest ih =>
    rw [noOverlaps, pairwise_cons, and_eq_true, ih, all_eq_true]
    refine and_congr_left fun _ => forall₂_congr fun other _ => ?_
    simp only [EdgeLink.Apart, not_eq_true', and_eq_false_imp, and_eq_true, beq_iff_eq, and_imp]

/-- What `new` has checked. -/
structure Accepted (displays : List (Display (Exact step))) (topology : Topology (Exact step)) :
    Prop where
  sorted : topology.displays = Library.sortBy (fun display => display.id.raw) displays
  distinct : (displays.map (·.id)).Nodup
  sized : ∀ display ∈ displays,
    0 < display.logicalSize.width.value ∧ 0 < display.logicalSize.height.value
  shaped : ∀ link ∈ topology.links, validLink displays link = true
  apart : topology.links.Pairwise EdgeLink.Apart

theorem new_accepted {machines : List Machine} {displays : List (Display (Exact step))}
    {topology : Topology (Exact step)}
    (made : Topology.new machines displays links = some topology) :
    Accepted displays topology ∧ topology.links = links := by
  unfold Topology.new at made
  split at made
  · cases made
  next sound =>
  cases made
  simp only [not_eq_true, or_eq_false_iff, not_eq_false', decide_eq_true_eq] at sound
  obtain ⟨⟨⟨⟨_, valid⟩, distinct⟩, shaped⟩, apart⟩ := sound
  refine ⟨⟨rfl, distinct, fun display member => ?_, all_eq_true.mp shaped,
    noOverlaps_iff.mp apart⟩, rfl⟩
  have checked := all_eq_true.mp valid display member
  simp only [validDisplay, and_eq_true, not_eq_true', ← not_eq_true, Exact.le_iff,
    Exact.value_zero, not_le] at checked
  exact ⟨checked.1.1.1.1.1.1.1.1.1.2, checked.1.1.1.1.1.1.1.1.2⟩

variable {displays : List (Display (Exact step))} {topology : Topology (Exact step)}

section
variable (accepted : Accepted displays topology)
include accepted

theorem Accepted.display_eq {id : DisplayId}
    {display : Display (Exact step)} (found : topology.display id = .ok display) :
    display ∈ displays ∧ display.id = id := by
  unfold Topology.display at found
  split at found
  · next known =>
    cases found
    have member := mem_of_find?_eq_some known
    rw [accepted.sorted, Library.mem_sortBy] at member
    have named := find?_some known
    exact ⟨member, beq_iff_eq.mp named⟩
  · cases found

theorem Accepted.unique {first second : Display (Exact step)}
    (member : first ∈ displays) (other : second ∈ displays) (same : first.id = second.id) :
    first = second :=
  inj_on_of_nodup_map accepted.distinct member other same

theorem Accepted.positive (member : link ∈ topology.links) : 0 < link.hysteresis.value := by
  have valid := accepted.shaped link member
  unfold validLink validLinkShape at valid
  simp only [and_eq_true, not_eq_true', ← not_eq_true, Exact.le_iff,
    Exact.value_zero, not_le] at valid
  exact valid.1.2

/-- A dead zone leaves room on the display it enters. -/
theorem Accepted.room {destination : Display (Exact step)}
    (member : link ∈ topology.links) (found : topology.display link.toDisplay = .ok destination) :
    link.hysteresis.value < (link.toEdge.normalExtent destination.bounds).value := by
  have valid := accepted.shaped link member
  unfold validLink at valid
  rw [and_eq_true] at valid
  obtain ⟨_, fits⟩ := valid
  split at fits
  · next source target known knownTarget =>
    have same : target = destination := by
      obtain ⟨present, named⟩ := accepted.display_eq found
      have sameId := find?_some knownTarget
      exact accepted.unique (mem_of_find?_eq_some knownTarget) present
        ((beq_iff_eq.mp sameId).trans named.symm)
    subst same
    simp only [and_eq_true, not_eq_true', ← not_eq_true, Exact.le_iff, not_le] at fits
    exact fits.2
  · cases fits

end

/-- The links of a display that a motion crosses. -/
def Topology.crossedLinks (topology : Topology (Exact step)) (source : Display (Exact step))
    (previous current : Point (Exact step)) : List (EdgeLink (Exact step)) :=
  topology.links.filter fun link =>
    link.fromDisplay == source.id && (topology.crossLink source link previous current).isSome

/-- The links of one edge have one dead zone. -/
def SharedHysteresis (links : List (EdgeLink (Exact step))) : Prop :=
  ∀ link ∈ links, ∀ other ∈ links, link.fromDisplay = other.fromDisplay →
    link.fromEdge = other.fromEdge → link.hysteresis = other.hysteresis

/-- Each link was built from spans. -/
def FormedSpans (links : List (EdgeLink (Exact step))) : Prop :=
  ∀ link ∈ links, link.fromSpan.Formed ∧ link.toSpan.Formed

theorem crossLink_isSome (crossed : (topology.crossLink source link previous current).isSome = true) :
    ∃ point, crossingPoint source.bounds link previous current = some point ∧
      link.fromSpan.contains (normalizedPosition source.bounds link.fromEdge point) = true := by
  unfold Topology.crossLink at crossed
  split at crossed
  · cases crossed
  next point found =>
  dsimp only at crossed
  split at crossed
  · cases crossed
  · next inside => exact ⟨point, found, by simpa using inside⟩

/-- Of related items no two of which are related there is at most one. -/
theorem length_le_one {Item : Type} {related : Item → Item → Prop} {items : List Item}
    (pairwise : items.Pairwise related)
    (never : ∀ first ∈ items, ∀ second ∈ items, ¬related first second) : items.length ≤ 1 := by
  match items, pairwise with
  | [], _ => exact Nat.zero_le 1
  | [_], _ => exact le_rfl
  | first :: second :: rest, pairwise =>
    rw [pairwise_cons] at pairwise
    exact absurd (pairwise.1 second (by simp)) (never first (by simp) second (by simp))

theorem Accepted.crosses_one (accepted : Accepted displays topology)
    (formed : FormedSpans topology.links) (shared : SharedHysteresis topology.links)
    (present : source ∈ displays) : (topology.crossedLinks source previous current).length ≤ 1 := by
  obtain ⟨wide, high⟩ := accepted.sized source present
  refine length_le_one (accepted.apart.filter _) fun link crossed other otherCrossed apart => ?_
  have matched {link : EdgeLink (Exact step)}
      (crossed : link ∈ topology.crossedLinks source previous current) : link ∈ topology.links ∧
        link.fromDisplay = source.id ∧
        ∃ point, Matches source.bounds previous current point link := by
    obtain ⟨member, passes⟩ := mem_filter.mp crossed
    rw [and_eq_true, beq_iff_eq] at passes
    obtain ⟨point, found, inside⟩ := crossLink_isSome passes.2
    exact ⟨member, passes.1, point, found, inside, (formed link member).1, accepted.positive member⟩
  obtain ⟨member, from_, point, matches_⟩ := matched crossed
  obtain ⟨otherMember, otherFrom, otherPoint, otherMatches⟩ := matched otherCrossed
  have sameDisplay := from_.trans otherFrom.symm
  have sameEdge := crosses_one_edge wide high matches_ otherMatches
  have sameZone := shared link member other otherMember sameDisplay sameEdge
  have overlap := crosses_one_span matches_ otherMatches sameEdge sameZone
  rw [apart sameDisplay sameEdge] at overlap
  cases overlap

/-- The first link crossed, of those there are. -/
theorem findSome?_crossed (source : Display (Exact step)) :
    (topology.links.filter fun link => link.fromDisplay == source.id).findSome?
        (fun link => topology.crossLink source link previous current) =
      (topology.crossedLinks source previous current).head?.bind
        fun link => topology.crossLink source link previous current := by
  unfold Topology.crossedLinks
  induction topology.links with
  | nil => rfl
  | cons link rest ih =>
    rw [filter_cons, filter_cons]
    by_cases from_ : link.fromDisplay == source.id
    · simp only [from_, Bool.true_and, if_true, findSome?_cons]
      cases crossed : topology.crossLink source link previous current with
      | none => exact ih
      | some result => simp [crossed]
    · simp only [from_, Bool.false_and, if_false, false_eq_true]
      exact ih

theorem transitionForMotion_eq {id : DisplayId} (found : topology.display id = .ok source)
    (named : source.id = id) :
    topology.transitionForMotion id previous current =
      match (topology.crossedLinks source previous current).head?.bind
        fun link => topology.crossLink source link previous current with
      | none => .ok none
      | some (.ok transition) => .ok (some transition)
      | some (.error error) => .error error := by
  subst named
  unfold Topology.transitionForMotion
  rw [found, if_neg (by simp [Point.isFinite])]
  dsimp only
  rw [findSome?_crossed]
  generalize (topology.crossedLinks source previous current).head?.bind _ = crossed
  rcases crossed with _ | _ | _ <;> rfl

/-- Lists of at most one item with the same items are the same. -/
theorem eq_of_perm_of_length_le_one {Item : Type} {first second : List Item}
    (same : first.Perm second) (short : second.length ≤ 1) : first = second := by
  match second, short with
  | [], _ => exact same.eq_nil
  | [item], _ => exact perm_singleton.mp same

theorem Accepted.reorder (accepted : Accepted displays topology)
    (formed : FormedSpans topology.links) (shared : SharedHysteresis topology.links)
    {reordered : List (EdgeLink (Exact step))} (same : reordered.Perm topology.links)
    (id : DisplayId) :
    Topology.transitionForMotion { topology with links := reordered } id previous current =
      topology.transitionForMotion id previous current := by
  cases found : topology.display id with
  | error error =>
    have displayed : Topology.display { topology with links := reordered } id = .error error := found
    unfold Topology.transitionForMotion
    rw [found, displayed]
  | ok source =>
    have displayed : Topology.display { topology with links := reordered } id = .ok source := found
    obtain ⟨present, named⟩ := accepted.display_eq found
    have crossed :
        Topology.crossedLinks { topology with links := reordered } source previous current =
        topology.crossedLinks source previous current :=
      eq_of_perm_of_length_le_one (same.filter _) (accepted.crosses_one formed shared present)
    rw [transitionForMotion_eq found named, transitionForMotion_eq displayed named, crossed]
    rfl

theorem Accepted.transition (accepted : Accepted displays topology) (positive : 0 < step)
    (small : ∀ display ∈ displays, step ≤ display.logicalSize.width.value ∧
      step ≤ display.logicalSize.height.value)
    {id : DisplayId} {transition : EdgeTransition (Exact step)}
    (moved : topology.transitionForMotion id previous current = .ok (some transition)) :
    ∃ source destination, ∃ link ∈ topology.links,
      topology.display id = .ok source ∧ topology.display transition.toDisplay = .ok destination ∧
        link.fromDisplay = id ∧ link.fromEdge = transition.fromEdge ∧
        link.toDisplay = transition.toDisplay ∧
        OnSpan source.bounds transition.fromEdge link.fromSpan transition.crossingPoint ∧
        destination.bounds.containsHalfOpen transition.entryPoint = true := by
  cases found : topology.display id with
  | error error =>
    unfold Topology.transitionForMotion at moved
    rw [found, if_neg (by simp [Point.isFinite])] at moved
    cases moved
  | ok source =>
    obtain ⟨present, named⟩ := accepted.display_eq found
    obtain ⟨wide, high⟩ := accepted.sized source present
    rw [transitionForMotion_eq found named] at moved
    split at moved <;> cases moved
    next crossed =>
    obtain ⟨link, first, crossed⟩ := Option.bind_eq_some_iff.mp crossed
    obtain ⟨member, passes⟩ := mem_filter.mp (mem_of_head? first)
    rw [and_eq_true, beq_iff_eq] at passes
    unfold Topology.crossLink at crossed
    split at crossed
    · cases crossed
    next point pointFound =>
    dsimp only at crossed
    split at crossed
    · cases crossed
    next inside =>
    cases known : topology.display link.toDisplay with
    | error error =>
      rw [known] at crossed
      cases crossed
    | ok destination =>
      rw [known] at crossed
      cases crossed
      obtain ⟨destinationPresent, _⟩ := accepted.display_eq known
      obtain ⟨broad, tall⟩ := small destination destinationPresent
      refine ⟨source, destination, link, member, rfl, known, passes.1.trans named, rfl, rfl, ?_, ?_⟩
      · exact onSpan_of_contains wide high pointFound (by simpa using inside)
      · exact entry_inside positive broad tall (accepted.positive member)
          (accepted.room member known)

/-- **Unambiguous seams.**  In every topology that is accepted, with one dead zone for the links of
an edge, at most one link matches a motion, from wherever it starts, so the answer is the same for
every order of the links.  A transition's crossing point lies on the departed edge in the link's
span, its entry point inside the destination. -/
theorem seams_unambiguous (positive : 0 < step) {machines : List Machine}
    {links : List (EdgeLink (Exact step))}
    (made : Topology.new machines displays links = some topology)
    (formed : FormedSpans links) (shared : SharedHysteresis links)
    (small : ∀ display ∈ displays, step ≤ display.logicalSize.width.value ∧
      step ≤ display.logicalSize.height.value)
    (id : DisplayId) (previous current : Point (Exact step)) :
    (∀ source, topology.display id = .ok source →
        (topology.crossedLinks source previous current).length ≤ 1) ∧
      (∀ reordered : List (EdgeLink (Exact step)), reordered.Perm links →
        Topology.transitionForMotion { topology with links := reordered } id previous current =
          topology.transitionForMotion id previous current) ∧
      ∀ transition, topology.transitionForMotion id previous current = .ok (some transition) →
        ∃ source destination, ∃ link ∈ links,
          topology.display id = .ok source ∧
            topology.display transition.toDisplay = .ok destination ∧
            link.fromDisplay = id ∧ link.fromEdge = transition.fromEdge ∧
            link.toDisplay = transition.toDisplay ∧
            OnSpan source.bounds transition.fromEdge link.fromSpan transition.crossingPoint ∧
            destination.bounds.containsHalfOpen transition.entryPoint = true := by
  obtain ⟨accepted, rfl⟩ := new_accepted made
  refine ⟨fun source found => ?_, fun reordered same => accepted.reorder formed shared same id,
    fun transition moved => accepted.transition positive small moved⟩
  exact accepted.crosses_one formed shared (accepted.display_eq found).1

namespace SeamRun

def number (value : ℚ) : Exact (1 / 8) := ⟨value⟩

def display (id : Nat) (x y : ℚ) : Display (Exact (1 / 8)) where
  id := ⟨id⟩
  machine := ⟨1⟩
  nativeSize := ⟨100, 100⟩
  logicalSize := ⟨number 100, number 100⟩
  origin := ⟨number x, number y⟩
  scaleFactor := number 1
  inUse := true

def seam (toDisplay : Nat) (start stop : ℚ) : EdgeLink (Exact (1 / 8)) where
  fromDisplay := ⟨1⟩
  fromEdge := .right
  fromSpan := ⟨number start, number stop⟩
  toDisplay := ⟨toDisplay⟩
  toEdge := .left
  toSpan := ⟨number 0, number 1⟩
  hysteresis := number 2

/-- A display whose right edge leads to one display above the middle and to another below. -/
def forked : Topology (Exact (1 / 8)) where
  machines := [⟨⟨1⟩, .macOs⟩]
  displays := [display 1 0 0, display 2 100 0, display 3 100 100]
  links := [seam 2 0 (1 / 2), seam 3 (1 / 2) 1]

/-- A motion down and to the right crosses the lower seam, in whichever order the two stand. -/
theorem seams_unambiguous_crossed :
    let motion (topology : Topology (Exact (1 / 8))) :=
      topology.transitionForMotion ⟨1⟩ ⟨number 90, number 45⟩ ⟨number 110, number 55⟩
    motion forked = .ok (some
        ⟨⟨1⟩, ⟨3⟩, .right, .left, ⟨number 100, number 51⟩, ⟨number 102, number 102⟩⟩) ∧
      (forked.crossedLinks (display 1 0 0) ⟨number 90, number 45⟩ ⟨number 110, number 55⟩).length
        ≤ 1 ∧ motion { forked with links := [seam 3 (1 / 2) 1, seam 2 0 (1 / 2)] } = motion forked := by
  have made : Topology.new forked.machines forked.displays forked.links = some forked := by
    decide +kernel
  have formed : FormedSpans forked.links := by
    unfold FormedSpans NormalizedSpan.Formed
    decide +kernel
  have shared : SharedHysteresis forked.links := by
    unfold SharedHysteresis
    decide +kernel
  obtain ⟨single, ordered, _⟩ := seams_unambiguous (by norm_num) made formed shared
    (by decide +kernel) ⟨1⟩ ⟨number 90, number 45⟩ ⟨number 110, number 55⟩
  exact ⟨by decide +kernel, single _ (by decide +kernel), ordered _ (.swap _ _ _)⟩

end SeamRun
end Monhop.Core
