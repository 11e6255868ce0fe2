import Monhop.Core.FloorSafety
import Monhop.Core.TakeBack

/-! # Every interleaving at the take-back gate

Three parties race on the gate's words and the floor.  The injecting thread counts a
press, loads the admission and the floor, then posts the press or uncounts it.  The
capture callback moves the floor off receiving, closes the admission of the generation it
yielded and only then reads the count.  The receiver opens and closes admission, and any
other caller runs floor calls of its own.

What makes it safe is the order of the count and the check: a press whose check passed
before the yield is still counted when the callback reads the count.  `GateSystem.Counted`
is the invariant that carries this along a run.
-/

namespace Monhop.Core

open List FloorSnapshot FloorSystem
open FloorSnapshot (unpack)
open FloorSystem (generationAfter)

/-- Where the injecting thread stands with one press. -/
inductive Injector where
  | idle
  /-- The count changed; its change counter comes next. -/
  | bump (noted : Bool)
  | noted
  | loaded (admitted : Nat)
  | admitted (generation : Nat)
  | refused

/-- A press is counted and neither posted nor uncounted. -/
def Injector.InFlight : Injector → Prop
  | .idle | .bump false => False
  | _ => True

/-- The exchange a trigger made, with the number of floor changes before it. -/
structure Yielded where
  receiving : FloorSnapshot
  yielding : FloorSnapshot
  changes : Nat

/-- Where the capture callback stands with one trigger. -/
inductive Callback where
  | idle
  | swapping (current : FloorSnapshot)
  | closing (yielded : Yielded)
  | reading (yielded : Yielded)
  | reporting (yielded : Yielded) (withhold : Bool)

/-- The exchange of the trigger under way. -/
def Callback.yielded : Callback → Option Yielded
  | .idle | .swapping _ => none
  | .closing yielded | .reading yielded | .reporting yielded _ => some yielded

/-- The gate's words and the three parties.  On the floor the callback is the caller
`none`. -/
structure GateSystem (Caller : Type) where
  floor : FloorSystem (Option Caller)
  admission : Nat
  held : Nat
  changes : Nat
  triggered : Nat
  injector : Injector
  callback : Callback

inductive GateLabel (Caller : Type) where
  | floorStart (caller : Caller) (op : FloorOp)
  | floorSwap (caller : Caller)
  | openInjection (generation : Nat)
  | takeTriggered
  | note
  | bump
  | loadAdmission
  | pass (generation : Nat)
  | refuse
  | post (generation : Nat)
  | failPost
  | undo
  | up
  | released
  | yieldLoad
  | yieldSwap
  | close
  | readHeld
  | report (yielded : Yielded) (withhold : Bool)

namespace GateSystem

variable {Caller : Type}

def new : GateSystem Caller :=
  { floor := .new, admission := CLOSED, held := 0, changes := 0, triggered := 0
    injector := .idle, callback := .idle }

variable [DecidableEq Caller]
variable (system : GateSystem Caller)

/-- One round of the yield loop on the snapshot it saw. -/
def yieldFrom (current : FloorSnapshot) : GateSystem Caller :=
  if current.state = .receiving then
    { system with
      floor := system.floor.start none (.transition current .yielding)
      callback := .swapping current }
  else { system with callback := .idle }

def yieldLoad : GateSystem Caller :=
  match unpack system.floor.word with
  | some current => system.yieldFrom current
  | none => system

/-- A failed swap brings the snapshot the next round starts from. -/
def yieldSwap (current : FloorSnapshot) : GateSystem Caller :=
  if system.floor.word = current.pack then
    { system with
      floor := system.floor.swap none
      callback := .closing
        { receiving := current
          yielding := current.next .yielding current.peer
          changes := system.floor.changes } }
  else { system with floor := system.floor.swap none }.yieldLoad

/-- The admission word after the close of one generation. -/
def closed (admission generation : Nat) : Nat :=
  if admission = generation then CLOSED else admission

inductive Step : GateLabel Caller → GateSystem Caller → Prop where
  -- other callers of the floor
  | floorStart {caller : Caller} {op : FloorOp}
      (idle : system.floor.calls (some caller) = none) (issued : op.Issued) :
      Step (.floorStart caller op)
        { system with floor := system.floor.start (some caller) op }
  | floorSwap {caller : Caller} :
      Step (.floorSwap caller) { system with floor := system.floor.swap (some caller) }
  -- the receiver and the coordinator
  | openInjection {generation : Nat} :
      Step (.openInjection generation) { system with admission := generation }
  | takeTriggered :
      Step .takeTriggered { system with triggered := 0 }
  -- the injecting thread
  | note (idle : system.injector = .idle) :
      Step .note
        { system with held := (system.held + 1) % heldLimit, injector := .bump true }
  | bump {noted : Bool} (bumping : system.injector = .bump noted) :
      Step .bump
        { system with
          changes := (system.changes + 1) % 2 ^ 64
          injector := if noted then .noted else .idle }
  | loadAdmission (noted : system.injector = .noted) :
      Step .loadAdmission
        { system with
          injector := if system.admission = CLOSED then .refused else .loaded system.admission }
  | pass {generation : Nat} {floor : FloorSnapshot}
      (loaded : system.injector = .loaded generation) (shown : unpack system.floor.word = some floor)
      (admits : floor.admits generation = true) :
      Step (.pass generation) { system with injector := .admitted generation }
  | refuse {generation : Nat} {floor : FloorSnapshot}
      (loaded : system.injector = .loaded generation) (shown : unpack system.floor.word = some floor)
      (refuses : floor.admits generation = false) :
      Step .refuse { system with injector := .refused }
  | post {generation : Nat} (admitted : system.injector = .admitted generation) :
      Step (.post generation) { system with injector := .idle }
  -- a post the system refuses keeps its count until the next release of everything
  | failPost {generation : Nat} (admitted : system.injector = .admitted generation) :
      Step .failPost { system with injector := .idle }
  | undo (refused : system.injector = .refused) :
      Step .undo { system with held := system.held - 1, injector := .bump false }
  | up (idle : system.injector = .idle) :
      Step .up { system with held := system.held - 1, injector := .bump false }
  | released (idle : system.injector = .idle) :
      Step .released { system with held := 0, injector := .bump false }
  -- the capture callback
  | yieldLoad (idle : system.callback = .idle) :
      Step .yieldLoad system.yieldLoad
  | yieldSwap {current : FloorSnapshot} (swapping : system.callback = .swapping current) :
      Step .yieldSwap (system.yieldSwap current)
  | close {yielded : Yielded} (closing : system.callback = .closing yielded) :
      Step .close
        { system with
          admission := closed system.admission yielded.receiving.generation
          callback := .reading yielded }
  | readHeld {yielded : Yielded} (reading : system.callback = .reading yielded) :
      Step .readHeld
        { system with callback := .reporting yielded (decide (system.held > 0)) }
  | report {yielded : Yielded} {withhold : Bool}
      (reporting : system.callback = .reporting yielded withhold) :
      Step (.report yielded withhold)
        { system with triggered := yielded.yielding.generation, callback := .idle }

/-- The count does not wrap: fewer than `heldLimit` injected presses are counted. -/
def CountFits (label : GateLabel Caller) : Prop :=
  match label with
  | .note => system.held + 1 < heldLimit
  | _ => True

end GateSystem

def gateLts (Caller : Type) [DecidableEq Caller] :
    Library.Lts (GateSystem Caller) (GateLabel Caller) where
  init system := system = .new
  step := GateSystem.Step

variable {snapshot : FloorSnapshot}

namespace GateSystem

variable {Caller : Type}

/-! ## The invariant -/

/-- The swap the callback has in flight. -/
def yieldCall (current : FloorSnapshot) : FloorCall :=
  { op := .transition current .yielding
    source := current
    target := current.next .yielding current.peer }

structure Sound (system : GateSystem Caller) : Prop where
  floor : ∃ snapshot, system.floor.Sound snapshot
  swapping : ∀ current, system.callback = .swapping current →
    system.floor.calls none = some (yieldCall current)
  yielded : ∀ yielded, system.callback.yielded = some yielded →
    yielded.receiving.generation = generationAfter yielded.changes ∧
      yielded.changes < system.floor.changes

/-- While the count does not wrap: a press in flight is counted, and a trigger about to
report that nothing is held leaves no admitted press of its generation. -/
structure Counted (system : GateSystem Caller) : Prop extends system.Sound where
  counted : system.injector.InFlight → 0 < system.held
  quiet : ∀ yielded, system.callback = .reporting yielded false →
    system.floor.changes < yielded.changes + maxGeneration →
      system.injector ≠ .admitted yielded.receiving.generation

theorem new_counted : (new : GateSystem Caller).Counted where
  floor := ⟨.fresh, new_sound⟩
  swapping := nofun
  yielded := nofun
  counted := nofun
  quiet := nofun

variable [DecidableEq Caller]

/-! ## The yield loop -/

variable {system : GateSystem Caller}

@[simp] theorem yieldLoad_rest :
    system.yieldLoad.injector = system.injector ∧ system.yieldLoad.held = system.held := by
  unfold yieldLoad yieldFrom
  split <;> (try split) <;> exact ⟨rfl, rfl⟩

@[simp] theorem yieldSwap_rest (current : FloorSnapshot) :
    (system.yieldSwap current).injector = system.injector ∧
      (system.yieldSwap current).held = system.held := by
  unfold yieldSwap
  split <;> simp

/-- A round on the snapshot the word shows: it leaves a sound floor with the swap in
flight, or gives up. -/
theorem yieldLoad_cases (sound : system.floor.Sound snapshot) :
    (∃ floor : FloorSystem (Option Caller), floor.Sound snapshot ∧
      floor.changes = system.floor.changes ∧ floor.calls none = some (yieldCall snapshot) ∧
        system.yieldLoad = { system with floor, callback := .swapping snapshot }) ∨
      system.yieldLoad = { system with callback := .idle } := by
  simp only [yieldLoad, sound.unpack, yieldFrom]
  split
  · next receiving =>
    have checked := isWellFormed_iff.mpr sound.wellFormed
    refine .inl ⟨_, sound.start (FloorOp.transition_issued _ _) none, rfl, ?_, rfl⟩
    simp [FloorSystem.start, decideCall, sound.unpack, FloorOp.plan,
      FloorSnapshot.transition, checked, receiving, FloorState.allows, yieldCall]
  · exact .inr rfl

theorem yieldLoad_not_reporting (sound : system.floor.Sound snapshot)
    {yielded : Yielded} {withhold : Bool} :
    system.yieldLoad.callback ≠ .reporting yielded withhold := by
  rcases yieldLoad_cases sound with ⟨_, _, _, _, round⟩ | stopped
  · simp [round]
  · simp [stopped]

/-- What the callback's swap can do: the exchange it planned, or another round. -/
theorem yieldSwap_cases {current : FloorSnapshot} (sound : system.Sound)
    (swapping : system.callback = .swapping current) :
    (∃ floor : FloorSystem (Option Caller), (∃ snapshot, floor.Sound snapshot) ∧
      floor.changes = system.floor.changes + 1 ∧
        current.generation = generationAfter system.floor.changes ∧
          system.yieldSwap current =
            { system with
              floor
              callback := .closing
                ⟨current, current.next .yielding current.peer, system.floor.changes⟩ }) ∨
      ∃ floor : FloorSystem (Option Caller), ∃ snapshot, floor.Sound snapshot ∧
        floor.changes = system.floor.changes ∧
          system.yieldSwap current = { system with floor }.yieldLoad := by
  obtain ⟨snapshot, floorSound⟩ := sound.floor
  have calling := sound.swapping current swapping
  unfold yieldSwap
  split
  · next matched =>
    obtain ⟨source, moved, changes⟩ := floorSound.swap_hit calling matched
    have shown : current = snapshot := source
    exact .inl ⟨_, ⟨_, moved⟩, changes, shown ▸ floorSound.generation, rfl⟩
  · next differs =>
    obtain ⟨kept, _, changes⟩ := floorSound.swap_miss fun call other => by
      rw [calling] at other
      cases other
      exact differs
    exact .inr ⟨_, snapshot, kept, changes, rfl⟩

/-! ## One step -/

variable {first second : GateSystem Caller} {label : GateLabel Caller}

/-- What a step does to the floor, seen from the callback's exchange. -/
structure FloorMove (first second : GateSystem Caller) : Prop where
  floor : ∃ snapshot, second.floor.Sound snapshot
  swapping : ∀ current, second.callback = .swapping current →
    second.floor.calls none = some (yieldCall current)
  changes : first.floor.changes ≤ second.floor.changes
  yielded : ∀ yielded, second.callback.yielded = some yielded →
    first.callback.yielded = some yielded ∨
      (yielded.receiving.generation = generationAfter yielded.changes ∧
        yielded.changes < second.floor.changes)

omit [DecidableEq Caller] in
theorem FloorMove.of_eq (sound : first.Sound) (floor : second.floor = first.floor)
    (callback : second.callback = first.callback) : FloorMove first second := by
  refine ⟨floor ▸ sound.floor, ?_, floor ▸ le_rfl, fun _ same => .inl (callback ▸ same)⟩
  rw [callback, floor]
  exact sound.swapping

theorem FloorMove.of_yieldLoad {middle : GateSystem Caller}
    (sound : middle.floor.Sound snapshot) (changes : first.floor.changes ≤ middle.floor.changes) :
    FloorMove first middle.yieldLoad := by
  rcases yieldLoad_cases sound with ⟨floor, kept, same, calling, round⟩ | stopped
  · rw [round]
    refine ⟨⟨_, kept⟩, ?_, changes.trans same.ge, nofun⟩
    rintro current ⟨⟩
    exact calling
  · rw [stopped]
    exact ⟨⟨_, sound⟩, nofun, changes, nofun⟩

theorem Step.floorMove (sound : first.Sound) (step : Step first label second) :
    FloorMove first second := by
  obtain ⟨snapshot, floorSound⟩ := sound.floor
  cases step with
  | floorStart idle issued =>
    refine ⟨⟨_, floorSound.start issued _⟩, fun current swapping => ?_, le_rfl,
      fun _ same => .inl same⟩
    exact (start_calls_of_ne (by simp)).trans (sound.swapping current swapping)
  | floorSwap =>
    refine ⟨FloorSystem.Sound.step ⟨_, floorSound⟩ .swap, fun current swapping => ?_,
      swap_changes_le _, fun _ same => .inl same⟩
    exact (swap_calls_of_ne (by simp)).trans (sound.swapping current swapping)
  | yieldLoad idle => exact .of_yieldLoad floorSound le_rfl
  | yieldSwap swapping =>
    rcases yieldSwap_cases sound swapping with
      ⟨floor, moved, changes, generation, exchange⟩ | ⟨floor, shown, kept, changes, round⟩
    · rw [exchange]
      refine ⟨moved, nofun, ?_, ?_⟩
      · exact (Nat.le_succ _).trans changes.ge
      · rintro yielded ⟨⟩
        exact .inr ⟨generation, changes ▸ Nat.lt_succ_self _⟩
    · rw [round]
      exact .of_yieldLoad kept changes.ge
  | close closing =>
    refine ⟨⟨_, floorSound⟩, nofun, le_rfl, ?_⟩
    rintro yielded ⟨⟩
    exact .inl (by rw [closing]; rfl)
  | readHeld reading =>
    refine ⟨⟨_, floorSound⟩, nofun, le_rfl, ?_⟩
    rintro yielded ⟨⟩
    exact .inl (by rw [reading]; rfl)
  | report reporting =>
    exact ⟨⟨_, floorSound⟩, nofun, le_rfl, nofun⟩
  | _ => exact .of_eq sound rfl rfl

/-- A press stays counted from its note until it is posted or uncounted. -/
theorem Step.counted (sound : first.Counted) (fits : first.CountFits label)
    (step : Step first label second) : second.injector.InFlight → 0 < second.held := by
  have counted := sound.counted
  cases step with
  | note idle =>
    intro _
    simp only [Nat.mod_eq_of_lt fits]
    exact Nat.succ_pos _
  | bump bumping =>
    rename_i noted
    cases noted <;> simp_all [Injector.InFlight]
  | loadAdmission stands | pass stands | refuse stands =>
    exact fun _ => counted (by rw [stands]; trivial)
  | post | failPost | undo | up | released => exact fun inFlight => inFlight.elim
  | yieldLoad => simpa using counted
  | yieldSwap => simpa using counted
  | _ => exact counted

variable {gate : TakeBackGate} {yielded : Yielded}

omit [DecidableEq Caller] in
/-- A generation already yielded differs from the one the floor shows, within one turn
of the counter. -/
theorem generation_ne_of_yielded (shown : system.floor.Sound snapshot)
    (generation : yielded.receiving.generation = generationAfter yielded.changes)
    (after : yielded.changes < system.floor.changes)
    (within : system.floor.changes < yielded.changes + maxGeneration) :
    snapshot.generation ≠ yielded.receiving.generation := by
  rw [generation, shown.generation]
  exact (generationAfter_ne after within).symm

/-- Once a generation is yielded, no check passes for it. -/
theorem Step.not_pass (sound : first.Sound)
    (generation : yielded.receiving.generation = generationAfter yielded.changes)
    (after : yielded.changes < first.floor.changes)
    (within : first.floor.changes < yielded.changes + maxGeneration)
    (step : Step first label second) : label ≠ .pass yielded.receiving.generation := by
  rintro rfl
  obtain ⟨snapshot, floorSound⟩ := sound.floor
  cases step with
  | pass loaded shown admits =>
    rw [floorSound.unpack] at shown
    cases shown
    simp only [FloorSnapshot.admits, Bool.and_eq_true, beq_iff_eq] at admits
    exact generation_ne_of_yielded floorSound generation after within admits.2

/-- A step without a passed check of that generation brings no admitted press of it. -/
theorem Step.not_admitted {generation : Nat} (quiet : first.injector ≠ .admitted generation)
    (label_ne : label ≠ .pass generation) (step : Step first label second) :
    second.injector ≠ .admitted generation := by
  cases step with
  | pass loaded shown admits =>
    rintro ⟨⟩
    exact label_ne rfl
  | bump bumping =>
    rename_i noted
    cases noted <;> simp
  | loadAdmission noted => simp only; split <;> simp
  | note | refuse | post | failPost | undo | up | released => simp
  | yieldLoad => simpa using quiet
  | yieldSwap => simpa using quiet
  | _ => exact quiet

/-- A trigger comes to its report by reading the count. -/
theorem Step.reporting (sound : first.Sound) {withhold : Bool} (step : Step first label second)
    (reporting : second.callback = .reporting yielded withhold) :
    first.callback = .reporting yielded withhold ∨
      (first.callback = .reading yielded ∧ withhold = decide (first.held > 0) ∧
        second.injector = first.injector) := by
  obtain ⟨snapshot, floorSound⟩ := sound.floor
  cases step with
  | readHeld reading =>
    simp only [Callback.reporting.injEq] at reporting
    obtain ⟨rfl, read⟩ := reporting
    exact .inr ⟨reading, read.symm, rfl⟩
  | yieldLoad => exact absurd reporting (yieldLoad_not_reporting floorSound)
  | yieldSwap swapping =>
    rcases yieldSwap_cases sound swapping with ⟨_, _, _, _, exchange⟩ | ⟨floor, _, kept, _, round⟩
    · simp [exchange] at reporting
    · rw [round] at reporting
      exact absurd reporting (yieldLoad_not_reporting kept)
  | close => cases reporting
  | report => cases reporting
  | _ => exact .inl reporting

/-- The count read as zero leaves no admitted press; afterwards none can appear. -/
theorem Step.quiet (sound : first.Counted) (step : Step first label second)
    (yielded : Yielded) (reporting : second.callback = .reporting yielded false)
    (within : second.floor.changes < yielded.changes + maxGeneration) :
    second.injector ≠ .admitted yielded.receiving.generation := by
  have within := lt_of_le_of_lt (step.floorMove sound.toSound).changes within
  rcases step.reporting sound.toSound reporting with before | ⟨_, read, same⟩
  · obtain ⟨generation, after⟩ := sound.yielded yielded (by rw [before]; rfl)
    exact step.not_admitted (sound.quiet yielded before within)
      (step.not_pass sound.toSound generation after within)
  · intro admitted
    have counted := sound.counted (by rw [← same, admitted]; trivial)
    simp only [gt_iff_lt, Bool.false_eq, decide_eq_false_iff_not, not_lt] at read
    omega

theorem Sound.step (sound : first.Sound) (step : Step first label second) : second.Sound := by
  have move := step.floorMove sound
  refine ⟨move.floor, move.swapping, fun yielded made => ?_⟩
  rcases move.yielded yielded made with before | fresh
  · obtain ⟨generation, after⟩ := sound.yielded yielded before
    exact ⟨generation, lt_of_lt_of_le after move.changes⟩
  · exact fresh

theorem Counted.step (sound : first.Counted) (fits : first.CountFits label)
    (step : Step first label second) : second.Counted :=
  ⟨sound.toSound.step step, step.counted sound fits, step.quiet sound⟩

/-! ## Whole runs -/

theorem sound_of_reachable (reachable : (gateLts Caller).Reachable system) : system.Sound := by
  refine reachable.invariant (fun system => system.Sound) ?_ ?_
  · rintro _ rfl
    exact new_counted.toSound
  · intro first label second sound step
    exact sound.step step

theorem counted_of_reachable (reachable : ((gateLts Caller).restrict CountFits).Reachable system) :
    system.Counted := by
  refine reachable.invariant (fun system => system.Counted) ?_ ?_
  · rintro _ rfl
    exact new_counted
  · rintro first label second sound ⟨fits, step⟩
    exact sound.step fits step

theorem changes_le_of_run {labels : List (GateLabel Caller)} {last : GateSystem Caller}
    (sound : first.Sound) (run : (gateLts Caller).Run first labels last) :
    first.floor.changes ≤ last.floor.changes := by
  induction run with
  | nil _ => exact le_rfl
  | cons step _ ih =>
    exact (Step.floorMove sound step).changes.trans (ih (sound.step step))

/-- Along a run that stays within one turn of the counter, a yielded generation is never
admitted, and it is posted only if a press of it was admitted before. -/
theorem run_after_yield {labels : List (GateLabel Caller)} {last : GateSystem Caller}
    (sound : first.Sound)
    (generation : yielded.receiving.generation = generationAfter yielded.changes)
    (after : yielded.changes < first.floor.changes) (run : (gateLts Caller).Run first labels last)
    (within : last.floor.changes < yielded.changes + maxGeneration) :
    .pass yielded.receiving.generation ∉ labels ∧
      (first.injector ≠ .admitted yielded.receiving.generation →
        .post yielded.receiving.generation ∉ labels) := by
  induction run with
  | nil _ => simp
  | @cons first second last label labels step rest ih =>
    have step : Step first label second := step
    have still := sound.step step
    have before : first.floor.changes ≤ second.floor.changes := (step.floorMove sound).changes
    have onward := changes_le_of_run still rest
    have notPass := step.not_pass sound generation after (by omega)
    obtain ⟨laterPass, laterPost⟩ := ih still (by omega) within
    refine ⟨not_mem_cons_of_ne_of_not_mem notPass.symm laterPass, fun quiet => ?_⟩
    refine not_mem_cons_of_ne_of_not_mem ?_ (laterPost (step.not_admitted quiet notPass))
    rintro rfl
    cases step with
    | post admitted => exact quiet admitted

/-- No press slips past a take-back while the count of held presses does not wrap: after a
trigger reported that nothing injected was held, no press of the generation it yielded is
posted.  Whatever is counted, a yielded generation is never admitted again and a delayed
close leaves the admission of a newer generation alone.  Each holds until the floor
changed `maxGeneration` times since the yielded snapshot, when its number is issued
again. -/
theorem no_press_past_take_back :
    (∀ (first second last : GateSystem Caller) (yielded : Yielded) (labels : List (GateLabel Caller)),
      ((gateLts Caller).restrict CountFits).Reachable first →
        (gateLts Caller).step first (.report yielded false) second →
          (gateLts Caller).Run second labels last →
            last.floor.changes < yielded.changes + maxGeneration →
              .post yielded.receiving.generation ∉ labels) ∧
    (∀ (first last : GateSystem Caller) (yielded : Yielded) (labels : List (GateLabel Caller)),
      (gateLts Caller).Reachable first → first.callback = .closing yielded →
        (gateLts Caller).Run first labels last →
          last.floor.changes < yielded.changes + maxGeneration →
            .pass yielded.receiving.generation ∉ labels) ∧
    (∀ (first second : GateSystem Caller) (yielded : Yielded) (newer : Nat),
      (gateLts Caller).Reachable first → first.callback = .closing yielded →
        (gateLts Caller).step first .close second → yielded.changes < newer →
          newer < yielded.changes + maxGeneration → first.admission = generationAfter newer →
            second.admission = first.admission) := by
  refine ⟨?_, ?_, ?_⟩
  · intro first second last yielded labels reachable report run within
    have counted := counted_of_reachable reachable
    have sound := counted.toSound
    have still := sound.step report
    have onward := changes_le_of_run still run
    cases report with
    | report reporting =>
      obtain ⟨generation, after⟩ := sound.yielded yielded (by rw [reporting]; rfl)
      have quiet := counted.quiet yielded reporting (lt_of_le_of_lt onward within)
      exact (run_after_yield still generation after run within).2 quiet
  · intro first last yielded labels reachable closing run within
    have sound := sound_of_reachable reachable
    obtain ⟨generation, after⟩ := sound.yielded yielded (by rw [closing]; rfl)
    exact (run_after_yield sound generation after run within).1
  · intro first second yielded newer reachable closing close after within opened
    have sound := sound_of_reachable reachable
    obtain ⟨generation, _⟩ := sound.yielded yielded (by rw [closing]; rfl)
    have different := generationAfter_ne after within
    cases close with
    | close other =>
      rw [closing] at other
      cases other
      exact if_neg (by rw [opened, generation]; exact different.symm)

/-! ## Uninterrupted triggers -/

/-- The gate's words with nobody between two steps. -/
def ofGate (gate : TakeBackGate) (floorChanges : Nat) (injector : Injector) (callback : Callback) :
    GateSystem Caller :=
  { floor := .quiescent gate.floor floorChanges
    admission := gate.admission
    held := gate.held
    changes := gate.changes
    triggered := gate.triggered
    injector
    callback }

/-- The exchange a trigger makes on a receiving floor. -/
def exchange (receiving : FloorSnapshot) (changes : Nat) : Yielded :=
  { receiving, yielding := receiving.next .yielding receiving.peer, changes }

theorem yield_ofGate (wellFormed : gate.floor.WellFormed)
    (receiving : gate.floor.state = .receiving) (changes : Nat) (injector : Injector) :
    (ofGate gate changes injector .idle : GateSystem Caller).yieldLoad.callback =
        .swapping gate.floor ∧
      (ofGate gate changes injector .idle : GateSystem Caller).yieldLoad.yieldSwap gate.floor =
        ofGate { gate with floor := gate.floor.next .yielding gate.floor.peer } (changes + 1)
          injector (.closing (exchange gate.floor changes)) := by
  have checked := isWellFormed_iff.mpr wellFormed
  constructor
  · simp [yieldLoad, yieldFrom, ofGate, FloorSystem.quiescent, unpack_pack wellFormed, receiving]
  · simp [yieldLoad, yieldFrom, yieldSwap, ofGate, exchange, FloorSystem.quiescent,
      FloorSystem.start, FloorSystem.swap, decideCall, FloorOp.plan,
      FloorSnapshot.transition, unpack_pack wellFormed, receiving, checked,
      FloorState.allows]

/-- The callback's steps up to its report, with nobody between them. -/
theorem trigger_steps (wellFormed : gate.floor.WellFormed)
    (receiving : gate.floor.state = .receiving) (changes : Nat) (injector : Injector) :
    (gateLts Caller).Run (ofGate gate changes injector .idle)
      [.yieldLoad, .yieldSwap, .close, .readHeld]
      (ofGate { gate with
          floor := gate.floor.next .yielding gate.floor.peer
          admission := closed gate.admission gate.floor.generation } (changes + 1) injector
        (.reporting (exchange gate.floor changes) gate.injectedHeld)) := by
  obtain ⟨swapping, swapped⟩ := @yield_ofGate Caller _ gate wellFormed receiving changes injector
  refine .cons (.yieldLoad rfl) (.cons (.yieldSwap swapping) ?_)
  rw [swapped]
  exact .cons (.close rfl) (.single (.readHeld rfl))

/-! ## Both counters wrap -/

theorem floorCall_run {target : FloorSnapshot} {op : FloorOp} (wellFormed : gate.floor.WellFormed)
    (issued : op.Issued) (planned : op.plan gate.floor = some (gate.floor, target))
    (caller : Caller) (changes : Nat) (injector : Injector) (callback : Callback) :
    (gateLts Caller).Run (ofGate gate changes injector callback)
      [.floorStart caller op, .floorSwap caller]
      (ofGate { gate with floor := target } (changes + 1) injector callback) := by
  have call : (FloorSystem.quiescent gate.floor changes).call (some caller) op =
      .quiescent target (changes + 1) := call_quiescent wellFormed planned
  unfold ofGate
  rw [← call]
  exact .cons (.floorStart rfl issued) (.single .floorSwap)

/-- The injecting thread up to a passed check. -/
theorem press_run (wellFormed : gate.floor.WellFormed) (admits : gate.admitsInjection = true)
    (changes : Nat) (callback : Callback) :
    (gateLts Caller).Run (ofGate gate changes .idle callback)
      [.note, .bump, .loadAdmission, .pass gate.admission]
      (ofGate gate.noteInjectedPress changes (.admitted gate.admission) callback) := by
  simp only [TakeBackGate.admitsInjection, Bool.and_eq_true, bne_iff_ne] at admits
  exact .cons (.note rfl) <| .cons (.bump rfl) <| .cons (.loadAdmission rfl) <|
    .single (.pass (if_neg admits.1) (unpack_pack wellFormed) admits.2)

/-- Presses posted one after the other count up. -/
theorem presses_run (wellFormed : gate.floor.WellFormed) (admits : gate.admitsInjection = true)
    (changes : Nat) (callback : Callback) (presses : Nat) (bound : gate.held + presses < heldLimit) :
    ∃ labels bumps, (gateLts Caller).Run (ofGate gate changes .idle callback) labels
      (ofGate { gate with held := gate.held + presses, changes := bumps } changes .idle callback) := by
  induction presses with
  | zero => exact ⟨[], gate.changes, .nil _⟩
  | succ presses ih =>
    obtain ⟨labels, bumps, run⟩ := ih (by omega)
    have press := @press_run Caller _ { gate with held := gate.held + presses, changes := bumps }
      wellFormed admits changes callback
    have counted : (gate.held + presses + 1) % heldLimit = gate.held + (presses + 1) :=
      Nat.mod_eq_of_lt bound
    simp only [TakeBackGate.noteInjectedPress, TakeBackGate.noteInjectionChange, counted] at press
    exact ⟨_, _, run.append (press.append (.single (.post rfl)))⟩

/-- Resets one after the other move the generation on. -/
theorem resets_run {changes : Nat} (wellFormed : gate.floor.WellFormed)
    (generation : gate.floor.generation = generationAfter changes) (caller : Caller)
    (callback : Callback) (resets : Nat) :
    ∃ labels, (gateLts Caller).Run (ofGate gate changes .idle callback) labels
      (ofGate { gate with floor := ⟨.free, generationAfter (changes + (resets + 1)), .NONE⟩ }
        (changes + (resets + 1)) .idle callback) := by
  have once (gate : TakeBackGate) (changes : Nat) (wellFormed : gate.floor.WellFormed)
      (generation : gate.floor.generation = generationAfter changes) :
      (gateLts Caller).Run (ofGate gate changes .idle callback)
        [.floorStart caller .reset, .floorSwap caller]
        (ofGate { gate with floor := ⟨.free, generationAfter (changes + 1), .NONE⟩ } (changes + 1)
          .idle callback) := by
    have freed : gate.floor.freed = ⟨.free, generationAfter (changes + 1), .NONE⟩ := by
      rw [← nextGeneration_generationAfter, ← generation]
      rfl
    rw [← freed]
    exact floorCall_run wellFormed FloorOp.reset_issued rfl caller changes .idle callback
  induction resets with
  | zero => exact ⟨_, once gate changes wellFormed generation⟩
  | succ resets ih =>
    obtain ⟨labels, run⟩ := ih
    exact ⟨_, run.append (once _ _ ⟨Nat.succ_pos _, Nat.mod_lt _ (by decide), Nat.zero_le _, by simp⟩ rfl)⟩

/-- Receiving at generation 2 with injection open for it. -/
def openGate : TakeBackGate :=
  { TakeBackGate.new ⟨.receiving, 2, .SOLE⟩ with admission := 2 }

theorem openGate_wellFormed : openGate.floor.WellFormed :=
  isWellFormed_iff.mp (by decide)

/-- Claiming a free floor of generation 1 and opening injection leads there. -/
theorem open_run (fresh : gate.floor = .fresh) (changes : Nat) :
    (gateLts Unit).Run (ofGate gate changes .idle .idle)
      [.floorStart () (.claim .fresh .receiving .SOLE), .floorSwap (), .openInjection 2]
      (ofGate { gate with floor := openGate.floor, admission := 2 } (changes + 1) .idle .idle) := by
  have issued : (FloorOp.claim .fresh .receiving .SOLE).Issued := .inr (.inl rfl)
  have claim := @floorCall_run Unit _ gate openGate.floor _
    (fresh ▸ fresh_wellFormed) issued (by rw [fresh]; decide) () changes .idle .idle
  exact claim.append (.single .openInjection)

def yieldedGate : TakeBackGate := openGate.trigger.2

/-- A run that counts no press fits the count. -/
theorem run_countFits {first last : GateSystem Caller} {labels : List (GateLabel Caller)}
    (run : (gateLts Caller).Run first labels last) (uncounted : .note ∉ labels) :
    ((gateLts Caller).restrict CountFits).Run first labels last := by
  induction run with
  | nil _ => exact .nil _
  | @cons first _ _ label _ step _ ih =>
    rw [mem_cons, not_or] at uncounted
    refine .cons ⟨?_, step⟩ (ih uncounted.2)
    cases label with
    | note => exact absurd rfl uncounted.1
    | _ => trivial

/-- The trigger on `openGate` has yielded the floor and not closed injection. -/
def yieldedSystem : GateSystem Unit :=
  ofGate { openGate with floor := ⟨.yielding, 3, .SOLE⟩ } 2 .idle
    (.closing (exchange openGate.floor 1))

theorem yielded_reachable : (gateLts Unit).Reachable yieldedSystem := by
  obtain ⟨swapping, swapped⟩ := @yield_ofGate Unit _ openGate openGate_wellFormed rfl 1 .idle
  have yielded : (gateLts Unit).Run (ofGate openGate 1 .idle .idle) [.yieldLoad, .yieldSwap] _ :=
    .cons (.yieldLoad rfl) (.single (.yieldSwap swapping))
  rw [swapped] at yielded
  exact ⟨_, _, rfl, (@open_run (TakeBackGate.new .fresh) rfl 0).append yielded⟩

/-- The trigger on `openGate` is delayed before its close, the floor is claimed again and
injection opened for generation 5. -/
def reopenedGate : TakeBackGate :=
  { TakeBackGate.new ⟨.receiving, 5, .SOLE⟩ with admission := 5 }

theorem reopened_reachable : (gateLts Unit).Reachable
    (ofGate reopenedGate 4 .idle (.closing (exchange openGate.floor 1))) := by
  have freed := @floorCall_run Unit _ { openGate with floor := ⟨.yielding, 3, .SOLE⟩ }
    ⟨.free, 4, .NONE⟩ .reset (isWellFormed_iff.mp (by decide)) FloorOp.reset_issued
    (by decide) () 2 .idle (.closing (exchange openGate.floor 1))
  have claimed := @floorCall_run Unit _ { openGate with floor := ⟨.free, 4, .NONE⟩ }
    ⟨.receiving, 5, .SOLE⟩ (.claim ⟨.free, 4, .NONE⟩ .receiving .SOLE)
    (isWellFormed_iff.mp (by decide)) (.inr (.inl rfl)) (by decide) () 3 .idle
    (.closing (exchange openGate.floor 1))
  exact yielded_reachable.extend (freed.append (claimed.append (.single .openInjection)))

/-- The trigger on `openGate` has closed injection. -/
def closedSystem (triggered : Nat) (callback : Callback) : GateSystem Unit :=
  ofGate { openGate with floor := ⟨.yielding, 3, .SOLE⟩, admission := CLOSED, triggered } 2 .idle
    callback

theorem closed_reachable : ((gateLts Unit).restrict CountFits).Reachable
    (closedSystem 0 (.reporting (exchange openGate.floor 1) false)) := by
  have triggered := @trigger_steps Unit _ openGate openGate_wellFormed rfl 1 .idle
  exact ⟨_, _, rfl, run_countFits
    ((@open_run (TakeBackGate.new .fresh) rfl 0).append triggered) (by simp)⟩

/-- A press counted, and what the admission or the floor makes of it. -/
def attempt (answer : GateLabel Unit) : List (GateLabel Unit) :=
  [.note, .bump, .loadAdmission, answer]

/-- A press refused by the closed admission, one refused by the yielded floor before the close, and
a close that comes after injection was opened again. -/
theorem no_press_past_take_back_late_close :
    (∃ first last, ((gateLts Unit).restrict CountFits).Reachable first ∧
      (gateLts Unit).step first (.report (exchange openGate.floor 1) false)
        (closedSystem 3 .idle) ∧
      (gateLts Unit).Run (closedSystem 3 .idle) (attempt .undo) last ∧ .post 2 ∉ attempt .undo) ∧
    (∃ last, (gateLts Unit).Reachable yieldedSystem ∧
      (gateLts Unit).Run yieldedSystem (attempt .refuse) last ∧ .pass 2 ∉ attempt .refuse) ∧
    (gateLts Unit).Reachable (ofGate reopenedGate 4 .idle (.closing (exchange openGate.floor 1))) ∧
      closed reopenedGate.admission openGate.floor.generation = 5 := by
  have posting : (gateLts Unit).Run (closedSystem 3 .idle) (attempt .undo) _ :=
    .cons (.note rfl) (.cons (.bump rfl) (.cons (.loadAdmission rfl) (.single (.undo rfl))))
  have passing : (gateLts Unit).Run yieldedSystem (attempt .refuse) _ :=
    .cons (.note rfl) (.cons (.bump rfl) (.cons (.loadAdmission rfl) (.single
      (.refuse rfl (unpack_pack (isWellFormed_iff.mp (by decide))) (by decide)))))
  have close : (gateLts Unit).step
      (ofGate reopenedGate 4 .idle (.closing (exchange openGate.floor 1))) .close _ := .close rfl
  refine ⟨⟨_, _, closed_reachable, .report rfl, posting, ?_⟩,
    ⟨_, yielded_reachable, passing, ?_⟩, reopened_reachable, ?_⟩
  · exact no_press_past_take_back.1 _ _ _ (exchange openGate.floor 1) _ closed_reachable
      (.report rfl) posting (by decide)
  · exact no_press_past_take_back.2.1 _ _ (exchange openGate.floor 1) _ yielded_reachable rfl
      passing (by decide)
  · exact no_press_past_take_back.2.2 _ _ (exchange openGate.floor 1) 4
      reopened_reachable rfl close (by decide) (by decide) (by decide)

/-- Some run posts a press of a generation after a trigger reported that nothing injected
was held at its yield, this many floor changes into the run. -/
def PostsAfterQuietReport (changes : Nat) : Prop :=
  ∃ (first second last : GateSystem Unit) (yielded : Yielded) (labels : List (GateLabel Unit)),
    (gateLts Unit).Reachable first ∧ (gateLts Unit).step first (.report yielded false) second ∧
      (gateLts Unit).Run second labels last ∧ last.floor.changes = changes ∧
        .post yielded.receiving.generation ∈ labels

/-- Resets bring the generation counter around to the number that was yielded. -/
theorem posts_after_generation_wrap : PostsAfterQuietReport (maxGeneration + 1) := by
  have opened := @open_run (TakeBackGate.new .fresh) rfl 0
  have triggered := @trigger_steps Unit _ openGate openGate_wellFormed rfl 1 .idle
  have wellFormed : yieldedGate.floor.WellFormed := isWellFormed_iff.mp (by decide)
  obtain ⟨_, around⟩ := @resets_run Unit _ yieldedGate 2 wellFormed (by decide) () .idle
    (maxGeneration - 3)
  have turn : 2 + (maxGeneration - 3 + 1) = maxGeneration := by decide
  have first : generationAfter maxGeneration = 1 := by decide
  have again := @open_run { yieldedGate with floor := .fresh } rfl maxGeneration
  have press := @press_run Unit _ { yieldedGate with floor := openGate.floor, admission := 2 }
    openGate_wellFormed (by decide) (maxGeneration + 1) .idle
  refine ⟨_, _, _, exchange openGate.floor 1, _, ⟨_, _, rfl, opened.append triggered⟩, .report rfl,
    around.append (again.append (press.append (.single (.post rfl)))), rfl, ?_⟩
  exact mem_append_right _ (mem_append_right _ (mem_append_right _ (mem_singleton.mpr rfl)))

/-- As many presses counted as the word holds. -/
def fullGate (bumps : Nat) : TakeBackGate :=
  { openGate with held := openGate.held + (heldLimit - 1), changes := bumps }

theorem fullGate_noteInjectedPress (bumps : Nat) :
    (fullGate bumps).noteInjectedPress.injectedHeld = false := by
  show decide ((0 + (heldLimit - 1) + 1) % heldLimit > 0) = false
  decide

/-- The count wraps to zero over one more press, so the trigger reads that nothing is
held. -/
theorem posts_after_count_wrap : PostsAfterQuietReport 2 := by
  have admits : openGate.admitsInjection = true := by decide
  have opened := @open_run (TakeBackGate.new .fresh) rfl 0
  obtain ⟨_, bumps, filled⟩ := @presses_run Unit _ openGate openGate_wellFormed admits 1 .idle
    (heldLimit - 1) (by decide)
  have press := @press_run Unit _ (fullGate bumps) openGate_wellFormed admits 1 .idle
  have triggered := @trigger_steps Unit _ (fullGate bumps).noteInjectedPress openGate_wellFormed rfl
    1 (.admitted 2)
  rw [fullGate_noteInjectedPress] at triggered
  exact ⟨_, _, _, exchange openGate.floor 1, _,
    ⟨_, _, rfl, opened.append (filled.append (press.append triggered))⟩, .report rfl,
    .single (.post rfl), rfl, mem_singleton.mpr rfl⟩

theorem posts_after_wraps : PostsAfterQuietReport (maxGeneration + 1) ∧ PostsAfterQuietReport 2 :=
  ⟨posts_after_generation_wrap, posts_after_count_wrap⟩

end GateSystem
end Monhop.Core
