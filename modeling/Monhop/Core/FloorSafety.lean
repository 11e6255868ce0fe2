import Monhop.Core.Floor
import Monhop.Library.Transition

/-! # Every interleaving of floor calls

Any number of callers share one word.  A call is two atomic steps with every other
caller's steps between them: `start` runs its checks and loads, `swap` is the
compare-and-swap.  Callers keep snapshots as long as they like, so what a call is given
is arbitrary.

The invariant carried along a run (`FloorSystem.Sound`) says that the word is the packed
form of a well-formed snapshot whose generation counts the changes, and that every swap
in flight is one `FloorOp.plan_swap` describes.
-/

namespace Monhop.Core

open Function FloorSnapshot
open FloorSnapshot (unpack maxGeneration_lt nextGeneration)

/-- A call between its load and its swap. -/
structure FloorCall where
  op : FloorOp
  source : FloorSnapshot
  target : FloorSnapshot
  deriving DecidableEq

structure FloorSystem (Caller : Type) where
  word : UInt64
  calls : Caller → Option FloorCall
  /-- How often the word changed; no operation reads it. -/
  changes : Nat

inductive FloorLabel (Caller : Type) where
  | start (caller : Caller) (op : FloorOp)
  | swap (caller : Caller)

namespace FloorSystem

variable {Caller : Type}

def new : FloorSystem Caller :=
  { word := FloorSnapshot.fresh.pack, calls := fun _ => none, changes := 0 }

/-- The checks and the load of a call; `none` when the call is refused. -/
def decideCall (system : FloorSystem Caller) (op : FloorOp) : Option FloorCall :=
  match unpack system.word with
  | some loaded => (op.plan loaded).map fun swap => ⟨op, swap.1, swap.2⟩
  | none => none

variable [DecidableEq Caller]

def start (system : FloorSystem Caller) (caller : Caller) (op : FloorOp) : FloorSystem Caller :=
  { system with calls := update system.calls caller (system.decideCall op) }

/-- The compare-and-swap.  A failed call returns; only the update loop of `reset` loads
again. -/
def swap (system : FloorSystem Caller) (caller : Caller) : FloorSystem Caller :=
  match system.calls caller with
  | none => system
  | some call =>
    if system.word = call.source.pack then
      { word := call.target.pack
        calls := update system.calls caller none
        changes := system.changes + 1 }
    else
      let again := if call.op = .reset then system.decideCall .reset else none
      { system with calls := update system.calls caller again }

inductive Step (system : FloorSystem Caller) : FloorLabel Caller → FloorSystem Caller → Prop where
  | start {caller : Caller} {op : FloorOp} (idle : system.calls caller = none)
      (issued : op.Issued) : Step system (.start caller op) (system.start caller op)
  | swap {caller : Caller} : Step system (.swap caller) (system.swap caller)

end FloorSystem

def floorLts (Caller : Type) [DecidableEq Caller] :
    Library.Lts (FloorSystem Caller) (FloorLabel Caller) where
  init system := system = .new
  step := FloorSystem.Step

namespace FloorSystem

variable {Caller : Type}

/-! ## The invariant -/

/-- The generation the floor shows after so many changes. -/
def generationAfter (changes : Nat) : Nat := changes % maxGeneration + 1

theorem nextGeneration_generationAfter (changes : Nat) :
    nextGeneration (generationAfter changes) = generationAfter (changes + 1) := by
  have bound : generationAfter changes ≤ maxGeneration := Nat.mod_lt changes (by decide)
  rw [nextGeneration_eq bound]
  simp only [generationAfter, Nat.mod_add_mod]

/-- Within one turn of the counter two different counts show different generations. -/
theorem generationAfter_ne {earlier later : Nat} (after : earlier < later)
    (within : later < earlier + maxGeneration) :
    generationAfter earlier ≠ generationAfter later := by
  intro same
  have congruent : earlier % maxGeneration = later % maxGeneration := Nat.succ.inj same
  have wraps : (later - earlier) % maxGeneration = 0 := Nat.sub_mod_eq_zero_of_mod_eq congruent.symm
  rw [Nat.mod_eq_of_lt (by omega)] at wraps
  omega

structure Sound (system : FloorSystem Caller) (snapshot : FloorSnapshot) : Prop where
  wellFormed : snapshot.WellFormed
  word : system.word = snapshot.pack
  generation : snapshot.generation = generationAfter system.changes
  planned : ∀ caller call, system.calls caller = some call → call.op.Swap call.source call.target

variable {caller : Caller} {snapshot : FloorSnapshot} {system : FloorSystem Caller}

theorem Sound.unpack (sound : system.Sound snapshot) : unpack system.word = some snapshot := by
  rw [sound.word]
  exact unpack_pack sound.wellFormed

variable {op : FloorOp}

theorem Sound.decideCall {call : FloorCall} (sound : system.Sound snapshot)
    (issued : op.Issued) (decided : system.decideCall op = some call) :
    call.op.Swap call.source call.target := by
  simp only [FloorSystem.decideCall, sound.unpack, Option.map_eq_some_iff] at decided
  obtain ⟨⟨source, target⟩, planned, rfl⟩ := decided
  exact FloorOp.plan_swap issued sound.wellFormed planned

theorem new_sound : (new : FloorSystem Caller).Sound .fresh :=
  ⟨fresh_wellFormed, rfl, rfl, fun _ _ calling => nomatch calling⟩

variable [DecidableEq Caller]

section
variable (sound : system.Sound snapshot)
include sound

/-- Replacing one caller's call by one its checks decided keeps every call planned. -/
theorem Sound.update {replacement : Option FloorCall}
    (planned : ∀ call, replacement = some call → call.op.Swap call.source call.target) :
    ∀ other call, update system.calls caller replacement other = some call →
      call.op.Swap call.source call.target := by
  intro other call calling
  rcases eq_or_ne other caller with rfl | different
  · rw [update_self] at calling
    exact planned call calling
  · rw [update_of_ne different] at calling
    exact sound.planned other call calling

theorem Sound.swap_hit {call : FloorCall}
    (calling : system.calls caller = some call) (matched : system.word = call.source.pack) :
    call.source = snapshot ∧ (system.swap caller).Sound call.target ∧
      (system.swap caller).changes = system.changes + 1 := by
  have planned := sound.planned caller call calling
  simp only [FloorSystem.swap, calling, if_pos matched]
  rw [sound.word] at matched
  obtain rfl := pack_injective sound.wellFormed planned.sourceFormed matched
  refine ⟨rfl, ⟨planned.targetFormed, rfl, ?_, ?_⟩, trivial⟩
  · rw [planned.generation, sound.generation, nextGeneration_generationAfter]
  · exact sound.update fun _ nothing => nomatch nothing

theorem Sound.swap_miss
    (differs : ∀ call, system.calls caller = some call → system.word ≠ call.source.pack) :
    (system.swap caller).Sound snapshot ∧ (system.swap caller).word = system.word ∧
      (system.swap caller).changes = system.changes := by
  unfold FloorSystem.swap
  split
  · exact ⟨sound, rfl, rfl⟩
  next call calling =>
    rw [if_neg (differs call calling)]
    refine ⟨⟨sound.wellFormed, sound.word, sound.generation, sound.update ?_⟩, rfl, rfl⟩
    intro replacement again
    split at again
    · exact sound.decideCall FloorOp.reset_issued again
    · cases again

/-- What one swap can do: nothing to the word, or the planned change of exactly the
snapshot the word shows. -/
theorem Sound.swap_cases :
    ((system.swap caller).word = system.word ∧ (system.swap caller).Sound snapshot) ∨
      ∃ call, system.calls caller = some call ∧ call.source = snapshot ∧
        (system.swap caller).Sound call.target := by
  by_cases hit : ∃ call, system.calls caller = some call ∧ system.word = call.source.pack
  · obtain ⟨call, calling, matched⟩ := hit
    obtain ⟨source, moved, _⟩ := sound.swap_hit calling matched
    exact .inr ⟨call, calling, source, moved⟩
  · obtain ⟨kept, word, _⟩ := sound.swap_miss fun call calling matched => hit ⟨call, calling, matched⟩
    exact .inl ⟨word, kept⟩

theorem Sound.start (issued : op.Issued)
    (caller : Caller) : (system.start caller op).Sound snapshot :=
  ⟨sound.wellFormed, sound.word, sound.generation,
    sound.update fun _ decided => sound.decideCall issued decided⟩

end

theorem Sound.step {first second : FloorSystem Caller} {label : FloorLabel Caller}
    (sound : ∃ snapshot, first.Sound snapshot) (step : Step first label second) :
    ∃ snapshot, second.Sound snapshot := by
  obtain ⟨snapshot, sound⟩ := sound
  cases step with
  | start idle issued => exact ⟨snapshot, sound.start issued _⟩
  | @swap caller =>
    rcases sound.swap_cases with ⟨_, kept⟩ | ⟨call, _, _, moved⟩
    · exact ⟨snapshot, kept⟩
    · exact ⟨call.target, moved⟩

theorem sound_of_reachable (reachable : (floorLts Caller).Reachable system) :
    ∃ snapshot, system.Sound snapshot := by
  refine reachable.invariant (fun system => ∃ snapshot, system.Sound snapshot) ?_ ?_
  · rintro _ rfl
    exact ⟨.fresh, new_sound⟩
  · intro first label second sound step
    exact Sound.step sound step

theorem start_calls_of_ne {other : Caller} (different : other ≠ caller) :
    (system.start caller op).calls other = system.calls other :=
  update_of_ne different ..

theorem swap_calls_of_ne {other : Caller} (different : other ≠ caller) :
    (system.swap caller).calls other = system.calls other := by
  unfold swap
  split
  · rfl
  · split <;> exact update_of_ne different ..

theorem swap_changes_le (system : FloorSystem Caller) :
    system.changes ≤ (system.swap caller).changes := by
  unfold swap
  split
  · exact le_rfl
  · split
    · exact Nat.le_succ _
    · exact le_rfl

/-! ## Uninterrupted calls

When no other step falls between a call's load and its swap, the word moves as
`FloorOp.run` moves the decoded snapshot; the other components are stated over that. -/

def call (system : FloorSystem Caller) (caller : Caller) (op : FloorOp) : FloorSystem Caller :=
  (system.start caller op).swap caller

theorem call_run (idle : system.calls caller = none) (issued : op.Issued) :
    (floorLts Caller).Run system [.start caller op, .swap caller] (system.call caller op) :=
  .cons (.start idle issued) (.single .swap)

/-- A floor no call is under way on. -/
def quiescent (snapshot : FloorSnapshot) (changes : Nat) : FloorSystem Caller :=
  { word := snapshot.pack, calls := fun _ => none, changes }

theorem call_quiescent {target : FloorSnapshot} {changes : Nat}
    (wellFormed : snapshot.WellFormed) (planned : op.plan snapshot = some (snapshot, target)) :
    (quiescent snapshot changes).call caller op = quiescent target (changes + 1) := by
  simp [call, start, swap, decideCall, quiescent, unpack_pack wellFormed, planned]

/-! ## Safety -/

/-- A call that acts on an older generation finds another one in the word. -/
theorem Sound.swap_stale {first later : FloorSystem Caller} {old current : FloorSnapshot}
    (firstSound : first.Sound old) (laterSound : later.Sound current)
    (after : first.changes < later.changes) (within : later.changes < first.changes + maxGeneration)
    {call : FloorCall} (calling : later.calls caller = some call)
    (given : call.op.generation = some old.generation) : (later.swap caller).word = later.word := by
  rcases laterSound.swap_cases with ⟨kept, _⟩ | ⟨other, otherCalling, rfl, _⟩
  · exact kept
  · obtain rfl := Option.some.inj (calling.symm.trans otherCalling)
    have named := (laterSound.planned caller call calling).names.generation given
    rw [firstSound.generation, laterSound.generation] at named
    exact absurd named (generationAfter_ne after within)

/-- Over every interleaving the word decodes to a well-formed snapshot; a step changes it
only as one call's swap of the exact snapshot the word shows, along an edge and one
generation on; and until the generation counter wraps, no call that acts on an earlier
snapshot or generation changes the word. -/
theorem floor_word_safe {system : FloorSystem Caller}
    (reachable : (floorLts Caller).Reachable system) :
    (∃ snapshot, unpack system.word = some snapshot ∧ snapshot.WellFormed) ∧
    (∀ label next, (floorLts Caller).step system label next → next.word = system.word ∨
      ∃ caller call, label = .swap caller ∧ system.calls caller = some call ∧
        unpack system.word = some call.source ∧ unpack next.word = some call.target ∧
          call.op.Names call.source ∧ call.op.Edge call.source call.target ∧
            call.target.generation = nextGeneration call.source.generation) ∧
    (∀ labels later old, (floorLts Caller).Run system labels later →
      unpack system.word = some old → system.changes < later.changes →
        later.changes < system.changes + maxGeneration →
          ∀ caller call, later.calls caller = some call →
            call.op.generation = some old.generation →
              (later.swap caller).word = later.word) := by
  obtain ⟨snapshot, sound⟩ := sound_of_reachable reachable
  refine ⟨⟨snapshot, sound.unpack, sound.wellFormed⟩, ?_, ?_⟩
  · intro label next step
    cases step with
    | start idle issued => exact .inl rfl
    | @swap caller =>
      rcases sound.swap_cases with ⟨kept, _⟩ | ⟨call, calling, rfl, moved⟩
      · exact .inl kept
      · have swap := sound.planned caller call calling
        exact .inr ⟨caller, call, rfl, calling, sound.unpack, moved.unpack, swap.names, swap.edge,
          swap.generation⟩
  · intro labels later old run shown after within caller call calling given
    obtain rfl := Option.some.inj (sound.unpack.symm.trans shown)
    obtain ⟨current, laterSound⟩ := sound_of_reachable (reachable.extend run)
    exact sound.swap_stale laterSound after within calling given

/-- Two callers read the fresh floor; the second one's swap comes too late. -/
def racingClaims : FloorSystem Bool :=
  (((new.start true (.claim .fresh .requesting .SOLE)).start false
    (.claim .fresh .receiving .SOLE)).swap true)

theorem racingClaims_run : (floorLts Bool).Run new
    [.start true (.claim .fresh .requesting .SOLE), .start false (.claim .fresh .receiving .SOLE),
      .swap true] racingClaims :=
  .cons (.start rfl (.inr (.inl rfl))) (.cons (.start rfl (.inr (.inl rfl))) (.single .swap))

theorem floor_word_safe_racing :
    (∃ call, racingClaims.calls false = some call ∧
      call.op.generation = some FloorSnapshot.fresh.generation) ∧
        (racingClaims.swap false).word = racingClaims.word := by
  have late : racingClaims.calls false =
      some ⟨.claim .fresh .receiving .SOLE, .fresh, FloorSnapshot.fresh.next .receiving .SOLE⟩ := by
    decide
  exact ⟨⟨_, late, rfl⟩, (floor_word_safe ⟨new, [], rfl, .nil _⟩).2.2 _ _ _ racingClaims_run
    (by decide) (by decide) (by decide) false _ late rfl⟩

/-- One caller claims, sends, returns and hands the floor over to slot 2. -/
def handedOver : FloorSystem Unit :=
  let requesting := FloorSnapshot.fresh.next .requesting .SOLE
  let sending := requesting.next .sending .SOLE
  let returning := sending.next .returning .SOLE
  (((new.call () (.claim .fresh .requesting .SOLE)).call () (.transition requesting .sending)).call
    () (.transition sending .returning)).start () (.handOver returning ⟨2⟩)

/-- `handOver` takes the floor from returning to sending, an edge `allows` does not list,
and does not free it. -/
theorem handOver_outside_allows :
    (floorLts Unit).Reachable handedOver ∧
      (floorLts Unit).step handedOver (.swap ()) (handedOver.swap ()) ∧
        ∃ source target, unpack handedOver.word = some source ∧
          unpack (handedOver.swap ()).word = some target ∧
            source.state.allows target.state = false ∧ target.state ≠ .free := by
  refine ⟨?_, .swap, { state := .returning, generation := 4, peer := .SOLE },
    { state := .sending, generation := 5, peer := ⟨2⟩ }, by decide, by decide, by decide, by decide⟩
  have slotTwo : FloorPeer.Issued ⟨2⟩ := FloorPeer.issued_of_raw_le (by decide)
  have claimed : FloorOp.Issued (.claim .fresh .requesting .SOLE) := .inr (.inl rfl)
  have moved (source : FloorSnapshot) (target : FloorState) :
      FloorOp.Issued (.transition source target) := trivial
  exact ⟨new, _, rfl, (call_run (by decide) claimed).append <|
    (call_run (by decide) (moved _ _)).append <| (call_run (by decide) (moved _ _)).append <|
      .single (.start (by decide) slotTwo)⟩

end FloorSystem
end Monhop.Core
