import Monhop.Setup.Layout

/-! # What a checked layout is

* `checkPositions_eq_ok`, `checkHidden_eq_ok` — the loops over positions and hidden displays,
  as statements about the whole lists.
* `LinkRequest.json_inj`, `DisplaySnapshot.json_inj`, `LayoutRequest.json_inj` — the saved text
  of a checked value determines it.
-/

namespace Monhop.Setup

open Monhop.Core Library Protocol Transport List
variable {F : Type} [Format F]

/-! ## Positions and hidden displays -/

/-- A position the picture can hold. -/
def DisplayPosition.InRange (position : DisplayPosition F) : Prop :=
  Scalar.isFinite position.x = true ∧ Scalar.isFinite position.y = true ∧
    Scalar.lt maxArrangementCoordinate (Scalar.abs position.x) = false ∧
    Scalar.lt maxArrangementCoordinate (Scalar.abs position.y) = false

def IsDisplay (text : Text) : Prop := ∃ id, parseDisplay text = .ok id

theorem isOk_parseDisplay {text : Text} : (parseDisplay text).isOk = true ↔ IsDisplay text := by
  unfold IsDisplay
  cases parseDisplay text <;> simp [Except.isOk, Except.toBool]

/-- What the check asks of one position. -/
def DisplayPosition.Good (known : Text → Bool) (position : DisplayPosition F) : Prop :=
  IsDisplay position.display ∧ known position.display = true ∧ position.InRange

theorem checkPositions_eq_ok {known : Text → Bool} {used : List Text}
    {positions : List (DisplayPosition F)} {result : Unit} :
    checkPositions known used positions = .ok result ↔
      (∀ position ∈ positions, position.Good known ∧ position.display ∉ used) ∧
        (positions.map (·.display)).Nodup := by
  induction positions generalizing used with
  | nil => simp [checkPositions]
  | cons position rest ih =>
    rw [forall_fresh_cons, checkPositions]
    simp only [bind_eq_ok, ensure_eq_ok, exists_const, ih, Bool.and_eq_true,
      Bool.not_eq_true', contains_eq_mem, decide_eq_false_iff_not, isOk_parseDisplay,
      DisplayPosition.Good, DisplayPosition.InRange]
    tauto

/-- What the check asks of one hidden display: no crossing names it, compared as numbers. -/
def GoodHidden (links : List (LinkRequest F)) (known : Text → Bool) (hidden : Text) : Prop :=
  known hidden = true ∧ ∃ id, parseDisplay hidden = .ok id ∧
    ∀ link ∈ links, namesDisplay link.fromDisplay id = false ∧ namesDisplay link.toDisplay id = false

omit [Format F] in
theorem checkHidden_eq_ok {links : List (LinkRequest F)} {known : Text → Bool} {used : List Text}
    {hidden : List Text} {result : Unit} :
    checkHidden links known used hidden = .ok result ↔
      (∀ id ∈ hidden, GoodHidden links known id ∧ id ∉ used) ∧ hidden.Nodup := by
  induction hidden generalizing used with
  | nil => simp [checkHidden]
  | cons text rest ih =>
    have loop := @forall_fresh_cons Text Text id (GoodHidden links known) used text rest
    simp only [id_eq, List.map_id_fun] at loop
    rw [loop, checkHidden]
    cases isKnown : known text with
    | false => simp [GoodHidden, isKnown]
    | true =>
      cases read : parseDisplay text with
      | error message => simp [GoodHidden, read]
      | ok id =>
        simp only [bind_eq_ok, ensure_eq_ok, exists_const, ih, all_eq_true,
          Bool.and_eq_true, Bool.not_eq_true', List.contains_eq_mem, decide_eq_false_iff_not,
          GoodHidden, isKnown, read, true_and, Except.ok.injEq, exists_eq_left']
        tauto

/-- The displays of a side, as the arrangement's check counts them. -/
def ownDisplays (displays : List ArrangedDisplay) (side : Bool) : List Text :=
  (displays.filter fun display => display.isLocal == side).map (·.id)

/-- Whether one of the displays carries this id, compared as texts. -/
def isKnown (displays : List ArrangedDisplay) (id : Text) : Bool :=
  displays.any fun display => display.id == id

/-- What the check establishes of an arrangement. -/
structure ArrangementRequest.Good (links : List (LinkRequest F)) (displays : List ArrangedDisplay)
    (arrangement : ArrangementRequest F) : Prop where
  fewPositions : arrangement.positions.length ≤ maxArrangedDisplays
  fewHidden : arrangement.hidden.length ≤ maxArrangedDisplays
  positions : ∀ position ∈ arrangement.positions, position.Good (isKnown displays)
  placedOnce : (arrangement.positions.map (·.display)).Nodup
  hidden : ∀ id ∈ arrangement.hidden, GoodHidden links (isKnown displays) id
  hiddenApart : ∀ id ∈ arrangement.hidden, id ∉ arrangement.positions.map (·.display)
  hiddenOnce : arrangement.hidden.Nodup
  shown : ∀ side, ownDisplays displays side = [] ∨
    ∃ id ∈ ownDisplays displays side, id ∉ arrangement.hidden

theorem checkArrangement_eq_ok {layout : LayoutRequest F} {displays : List ArrangedDisplay} :
    checkArrangement layout displays = .ok () ↔
      ∀ arrangement, layout.arrangement = some arrangement →
        arrangement.Good layout.links displays := by
  unfold checkArrangement
  cases layout.arrangement with
  | none => simp
  | some arrangement =>
    have sides : (∀ side ∈ [true, false],
        ((ownDisplays displays side).isEmpty ||
          !(ownDisplays displays side).all fun id => arrangement.hidden.contains id) = true) ↔
        ∀ side, ownDisplays displays side = [] ∨
          ∃ id ∈ ownDisplays displays side, id ∉ arrangement.hidden := by
      simp
    simp only [bind_eq_ok, ensure_eq_ok, exists_const, checkPositions_eq_ok, checkHidden_eq_ok,
      Bool.and_eq_true, decide_eq_true_eq, Option.some.injEq, forall_eq', forM_eq_ok]
    constructor
    · rintro ⟨⟨fewPositions, fewHidden⟩, ⟨positions, placedOnce⟩, ⟨hidden, hiddenOnce⟩, shown⟩
      exact ⟨fewPositions, fewHidden, fun position member => (positions position member).1, placedOnce,
        fun id member => (hidden id member).1, fun id member => (hidden id member).2, hiddenOnce,
        sides.mp shown⟩
    · intro good
      exact ⟨⟨good.fewPositions, good.fewHidden⟩,
        ⟨fun position member => ⟨good.positions position member, not_mem_nil⟩, good.placedOnce⟩,
        ⟨fun id member => ⟨good.hidden id member, good.hiddenApart id member⟩, good.hiddenOnce⟩,
        sides.mpr good.shown⟩

/-! ## Crossings -/

def LinkRequest.Finite (link : LinkRequest F) : Prop :=
  Scalar.isFinite link.fromSpan.1 = true ∧ Scalar.isFinite link.fromSpan.2 = true ∧
    Scalar.isFinite link.toSpan.1 = true ∧ Scalar.isFinite link.toSpan.2 = true ∧
    Scalar.isFinite link.hysteresis = true

theorem parseSpan_eq_ok {span : F × F} {parsed : NormalizedSpan F}
    (read : parseSpan span = .ok parsed) :
    parsed = ⟨span.1, span.2⟩ ∧ Scalar.isFinite span.1 = true ∧ Scalar.isFinite span.2 = true := by
  unfold parseSpan at read
  split at read
  · next found =>
    cases read
    unfold NormalizedSpan.new at found
    dsimp only at found
    split at found
    · cases found
    · next fine =>
      cases found
      simp only [Bool.or_eq_true, not_or, Bool.not_eq_true', Bool.not_eq_false] at fine
      exact ⟨rfl, fine.1.1.1.1, fine.1.1.1.2⟩
  · cases read

theorem parseLink_eq_ok {link : LinkRequest F} {parsed : EdgeLink F}
    (read : parseLink link = .ok parsed) :
    parseDisplay link.fromDisplay = .ok parsed.fromDisplay ∧
      parseDisplay link.toDisplay = .ok parsed.toDisplay ∧
      parseEdge link.fromEdge = .ok parsed.fromEdge ∧ parseEdge link.toEdge = .ok parsed.toEdge ∧
      parsed.fromSpan = ⟨link.fromSpan.1, link.fromSpan.2⟩ ∧
      parsed.toSpan = ⟨link.toSpan.1, link.toSpan.2⟩ ∧ parsed.hysteresis = link.hysteresis ∧
      link.Finite := by
  unfold parseLink at read
  simp only [bind_eq_ok] at read
  obtain ⟨fromDisplay, source, fromEdge, leaves, fromSpan, leaving, toDisplay, destination, toEdge,
    enters, toSpan, entering, made⟩ := read
  obtain ⟨rfl, fromStart, fromStop⟩ := parseSpan_eq_ok leaving
  obtain ⟨rfl, toStart, toStop⟩ := parseSpan_eq_ok entering
  split at made
  · next found =>
    cases made
    unfold EdgeLink.new at found
    split at found
    · next shape =>
      cases found
      simp only [validLinkShape, Bool.and_eq_true] at shape
      exact ⟨source, destination, leaves, enters, rfl, rfl, rfl, fromStart, fromStop, toStart,
        toStop, shape.1.2⟩
    · cases found
  · cases made

/-! ## Saved texts -/

theorem jsonScalar_inj {first second : F} (firstFinite : Scalar.isFinite first = true)
    (secondFinite : Scalar.isFinite second = true) (same : jsonScalar first = jsonScalar second) :
    first = second := by
  rw [jsonScalar, if_pos firstFinite, jsonScalar, if_pos secondFinite, Json.number.injEq] at same
  exact Format.text_inj first second firstFinite secondFinite same

theorem jsonSingle_inj {first second : Single} (firstFinite : first.isFinite = true)
    (secondFinite : second.isFinite = true) (same : jsonSingle F first = jsonSingle F second) :
    first = second := by
  rw [jsonSingle, if_pos firstFinite, jsonSingle, if_pos secondFinite, Json.number.injEq] at same
  exact Format.singleText_inj first second firstFinite secondFinite same

theorem jsonNat_inj {first second : Nat} (same : jsonNat first = jsonNat second) : first = second :=
  toDigits_inj (congrArg Number.text (Json.number.inj same))

theorem map_inj_of_forall {Item Other : Type} {write : Item → Other} {first second : List Item}
    (apart : ∀ item ∈ first, ∀ other ∈ second, write item = write other → item = other)
    (same : first.map write = second.map write) : first = second := by
  induction first generalizing second with
  | nil => exact (map_eq_nil_iff.mp same.symm).symm
  | cons item first ih =>
    cases second with
    | nil => cases same
    | cons other second =>
      obtain ⟨heads, tails⟩ := List.cons.inj same
      rw [apart item mem_cons_self other mem_cons_self heads,
        ih (fun item member other otherMember =>
          apart item (mem_cons_of_mem _ member) other (mem_cons_of_mem _ otherMember)) tails]

/-- Two coordinates, or the ends of a span. -/
theorem jsonPair_inj {first second third fourth : F} (firstFinite : Scalar.isFinite first = true)
    (secondFinite : Scalar.isFinite second = true) (thirdFinite : Scalar.isFinite third = true)
    (fourthFinite : Scalar.isFinite fourth = true)
    (same : [jsonScalar first, jsonScalar second] = [jsonScalar third, jsonScalar fourth]) :
    first = third ∧ second = fourth := by
  simp only [List.cons.injEq, and_true] at same
  exact ⟨jsonScalar_inj firstFinite thirdFinite same.1, jsonScalar_inj secondFinite fourthFinite same.2⟩

theorem LinkRequest.json_inj {first second : LinkRequest F} (firstFinite : first.Finite)
    (secondFinite : second.Finite) (same : first.json = second.json) : first = second := by
  simp only [LinkRequest.json, field, Json.object.injEq, List.cons.injEq, Prod.mk.injEq, true_and,
    Json.string.injEq, Json.array.injEq] at same
  obtain ⟨source, leaves, leaving, destination, enters, entering, zone, -⟩ := same
  obtain ⟨start, stop, toStart, toStop, hysteresis⟩ := firstFinite
  obtain ⟨start', stop', toStart', toStop', hysteresis'⟩ := secondFinite
  have spans := jsonPair_inj start stop start' stop' (by simpa using leaving)
  have toSpans := jsonPair_inj toStart toStop toStart' toStop' (by simpa using entering)
  have zones := jsonScalar_inj hysteresis hysteresis' zone
  cases first
  cases second
  simp_all [Prod.ext_iff]

def DisplaySnapshot.Finite (display : DisplaySnapshot F) : Prop :=
  display.origin.isFinite = true ∧ display.size.isFinite = true ∧ display.scale.isFinite = true

theorem jsonPoint_inj {first second : Point F} (firstFinite : first.isFinite = true)
    (secondFinite : second.isFinite = true)
    (same : [jsonScalar first.x, jsonScalar first.y] = [jsonScalar second.x, jsonScalar second.y]) :
    first = second := by
  simp only [Point.isFinite, Bool.and_eq_true] at firstFinite secondFinite
  obtain ⟨x, y⟩ := jsonPair_inj firstFinite.1 firstFinite.2 secondFinite.1 secondFinite.2 same
  cases first
  cases second
  simp_all

theorem DisplaySnapshot.json_inj {first second : DisplaySnapshot F} (firstFinite : first.Finite)
    (secondFinite : second.Finite) (same : first.json = second.json) : first = second := by
  simp only [DisplaySnapshot.json, field, Json.object.injEq, cons_append, nil_append,
    List.cons.injEq, Prod.mk.injEq, true_and, Json.string.injEq, Json.array.injEq,
    Json.bool.injEq] at same
  obtain ⟨ids, names, origins, sizes, natives, scales, primaries, monitors⟩ := same
  have origin := jsonPoint_inj firstFinite.1 secondFinite.1 (by simpa using origins)
  have size := jsonPoint_inj firstFinite.2.1 secondFinite.2.1 (by simpa using sizes)
  have scale := jsonSingle_inj firstFinite.2.2 secondFinite.2.2 scales
  have width := jsonNat_inj natives.1
  have height := jsonNat_inj natives.2.1
  have monitor : first.monitor = second.monitor := by
    revert monitors
    cases first.monitor <;> cases second.monitor <;> simp
  obtain ⟨_, _, _, _, ⟨_, _⟩, _, _, _⟩ := first
  obtain ⟨_, _, _, _, ⟨_, _⟩, _, _, _⟩ := second
  simp_all

def DisplayPosition.Finite (position : DisplayPosition F) : Prop :=
  Scalar.isFinite position.x = true ∧ Scalar.isFinite position.y = true

theorem DisplayPosition.json_inj {first second : DisplayPosition F} (firstFinite : first.Finite)
    (secondFinite : second.Finite) (same : first.json = second.json) : first = second := by
  simp only [DisplayPosition.json, field, Json.object.injEq, List.cons.injEq, Prod.mk.injEq, true_and,
    Json.string.injEq] at same
  have x := jsonScalar_inj firstFinite.1 secondFinite.1 same.2.1
  have y := jsonScalar_inj firstFinite.2 secondFinite.2 same.2.2.1
  cases first
  cases second
  simp_all

structure LayoutRequest.Finite (layout : LayoutRequest F) : Prop where
  links : ∀ link ∈ layout.links, link.Finite
  positions : ∀ arrangement, layout.arrangement = some arrangement →
    ∀ position ∈ arrangement.positions, position.Finite

theorem ArrangementRequest.json_inj {first second : ArrangementRequest F}
    (firstFinite : ∀ position ∈ first.positions, position.Finite)
    (secondFinite : ∀ position ∈ second.positions, position.Finite)
    (same : first.json = second.json) : first = second := by
  simp only [ArrangementRequest.json, field, Json.object.injEq, List.cons.injEq, Prod.mk.injEq,
    true_and, Json.array.injEq, and_true] at same
  have positions : first.positions = second.positions :=
    map_inj_of_forall (fun position member other otherMember =>
      DisplayPosition.json_inj (firstFinite position member) (secondFinite other otherMember)) same.1
  have hidden : first.hidden = second.hidden :=
    map_inj_of_forall (fun _ _ _ _ equal => Json.string.inj equal) same.2
  cases first
  cases second
  simp_all

theorem ControlMap.json_inj {first second : ControlMap} (same : first.json = second.json) :
    first = second := by
  rw [ControlMap.json, ControlMap.json, Json.object.injEq] at same
  refine ControlMap.ext_entries (map_inj_of_forall (fun entry _ other _ equal => ?_) same)
  rw [Prod.mk.injEq, Json.bool.injEq] at equal
  exact Prod.ext equal.1 equal.2

theorem LayoutRequest.json_inj {first second : LayoutRequest F} (firstFinite : first.Finite)
    (secondFinite : second.Finite) (same : first.json = second.json) : first = second := by
  simp only [LayoutRequest.json, field, Json.object.injEq, cons_append, nil_append,
    List.cons.injEq, Prod.mk.injEq, true_and, Json.array.injEq] at same
  obtain ⟨linkTexts, tails⟩ := same
  have links : first.links = second.links :=
    map_inj_of_forall (fun link member other otherMember =>
      LinkRequest.json_inj (firstFinite.links link member) (secondFinite.links other otherMember))
      linkTexts
  obtain ⟨arrangement, control⟩ : first.arrangement = second.arrangement ∧
      first.control = second.control := by
    cases here : first.arrangement with
    | none =>
      cases there : second.arrangement with
      | none =>
        simp only [here, there, Option.map_none, Option.toList_none, nil_append, List.cons.injEq,
          Prod.mk.injEq, true_and, and_true] at tails
        exact ⟨rfl, ControlMap.json_inj tails⟩
      | some other => simp [here, there] at tails
    | some arrangement =>
      cases there : second.arrangement with
      | none => simp [here, there] at tails
      | some other =>
        simp only [here, there, Option.map_some, Option.toList_some, cons_append,
          nil_append, List.cons.injEq, Prod.mk.injEq, true_and, and_true] at tails
        rw [ArrangementRequest.json_inj (firstFinite.positions arrangement here)
          (secondFinite.positions other there) tails.1]
        exact ⟨rfl, ControlMap.json_inj tails.2⟩
  cases first
  cases second
  simp_all

end Monhop.Setup
