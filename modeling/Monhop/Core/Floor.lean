import Monhop.Library.Fields

/-! # The session floor

At most one sharing direction, for one peer, is active per process.  State, owning peer
and generation share one 64-bit word, and every change is a single compare-and-swap on
the exact snapshot it was decided from.

* `FloorSnapshot.pack`, `FloorSnapshot.unpack` — the word and its decoding.
* `FloorOp` — the six operations a caller may run, with `FloorOp.plan` the swap each one
  attempts after its own checks, given the snapshot it loaded.
* `FloorOp.plan_swap` — what any planned swap does: it names the exact snapshot, follows
  an edge, moves one generation on and keeps the snapshot well formed.
* `FloorOp.run` — the call on the decoded word when nothing interrupts it.
-/

namespace Monhop.Core

open Option

inductive FloorState where
  | free
  | requesting
  | sending
  | returning
  | receiving
  | yielding
  deriving DecidableEq

/-- The half that may change or free a held floor. -/
inductive FloorOwner where
  | outbound
  | inbound
  deriving DecidableEq

namespace FloorState

def owner : FloorState → Option FloorOwner
  | free => none
  | requesting | sending | returning => some .outbound
  | receiving | yielding => some .inbound

def code : FloorState → Nat
  | free => 0
  | requesting => 1
  | sending => 2
  | returning => 3
  | receiving => 4
  | yielding => 5

/-- `none` is the panic on a word no floor writes. -/
def fromCode : Nat → Option FloorState
  | 0 => some free
  | 1 => some requesting
  | 2 => some sending
  | 3 => some returning
  | 4 => some receiving
  | 5 => some yielding
  | _ => none

def allows : FloorState → FloorState → Bool
  | free, requesting | free, receiving => true
  | requesting, sending | requesting, free | requesting, receiving => true
  | sending, returning => true
  | returning, free => true
  | receiving, yielding | receiving, free => true
  | yielding, free => true
  | _, _ => false

@[simp] theorem fromCode_code (state : FloorState) : fromCode state.code = some state := by
  cases state <;> rfl

theorem code_lt (state : FloorState) : state.code < 2 ^ 3 := by
  cases state <;> decide

end FloorState

def maxGroupPeers : Nat := 7

/-- The peer a held floor belongs to. -/
structure FloorPeer where
  raw : Nat
  deriving DecidableEq

variable {peer : FloorPeer}

def maxSlot : Nat := maxGroupPeers

namespace FloorPeer

def NONE : FloorPeer := ⟨0⟩

def SOLE : FloorPeer := ⟨1⟩

/-- Group slot `1..=maxGroupPeers`, or none. -/
def slot (number : Nat) : Option FloorPeer :=
  if 1 ≤ number ∧ number ≤ maxSlot then some ⟨number⟩ else none

/-- The peers code outside the floor can hold: the field is private, so a peer is `NONE`,
`SOLE` or what `slot` returned. -/
def Issued (peer : FloorPeer) : Prop :=
  peer = NONE ∨ peer = SOLE ∨ ∃ number, slot number = some peer

theorem Issued.raw_le (issued : peer.Issued) : peer.raw ≤ maxSlot := by
  rcases issued with rfl | rfl | ⟨number, issued⟩
  · exact Nat.zero_le _
  · decide
  · unfold slot at issued
    split at issued
    · next bounds => cases issued; exact bounds.2
    · cases issued

theorem issued_of_raw_le (bound : peer.raw ≤ maxSlot) : peer.Issued := by
  obtain ⟨raw⟩ := peer
  cases raw with
  | zero => exact .inl rfl
  | succ raw => exact .inr (.inr ⟨raw + 1, by simp_all [slot]⟩)

end FloorPeer

structure FloorSnapshot where
  state : FloorState
  generation : Nat
  peer : FloorPeer
  deriving DecidableEq

variable {snapshot source target floor : FloorSnapshot} {state : FloorState}

def stateBits : Nat := 3
def peerBits : Nat := 4
def stateMask : UInt64 := ((1 : UInt64) <<< 3) - 1
def peerMask : UInt64 := ((1 : UInt64) <<< 4) - 1
def generationShift : Nat := stateBits + peerBits
def maxGeneration : Nat := (2 ^ 64 - 1) >>> generationShift

namespace FloorSnapshot

def pack (snapshot : FloorSnapshot) : UInt64 :=
  (UInt64.ofNat snapshot.generation <<< 7) ||| (UInt64.ofNat snapshot.peer.raw <<< 3) |||
    UInt64.ofNat snapshot.state.code

/-- `none` where `fromCode` panics. -/
def unpack (word : UInt64) : Option FloorSnapshot :=
  match FloorState.fromCode (word &&& stateMask).toNat with
  | some state =>
    some { state
           generation := (word >>> 7).toNat
           peer := ⟨((word >>> 3) &&& peerMask).toNat⟩ }
  | none => none

/-- Exactly the snapshots a floor writes. -/
def isWellFormed (snapshot : FloorSnapshot) : Bool :=
  snapshot.generation != 0
    && decide (snapshot.generation ≤ maxGeneration)
    && decide (snapshot.peer.raw ≤ maxSlot)
    && ((snapshot.state == .free) == (snapshot.peer.raw == FloorPeer.NONE.raw))

/-- Generation 0 is never issued. -/
def nextGeneration (generation : Nat) : Nat :=
  if generation ≥ maxGeneration then 1 else generation + 1

def next (snapshot : FloorSnapshot) (state : FloorState) (peer : FloorPeer) : FloorSnapshot :=
  { state, generation := nextGeneration snapshot.generation, peer }

def freed (snapshot : FloorSnapshot) : FloorSnapshot :=
  snapshot.next .free .NONE

def fresh : FloorSnapshot :=
  { state := .free, generation := 1, peer := .NONE }

@[simp] theorem next_state : (snapshot.next state peer).state = state := rfl

/-- What `isWellFormed` checks, as named facts. -/
structure WellFormed (snapshot : FloorSnapshot) : Prop where
  generation_pos : 0 < snapshot.generation
  generation_le : snapshot.generation ≤ maxGeneration
  peer_le : snapshot.peer.raw ≤ maxSlot
  free_iff : snapshot.state = .free ↔ snapshot.peer = .NONE

theorem isWellFormed_iff : snapshot.isWellFormed = true ↔ snapshot.WellFormed := by
  obtain ⟨state, generation, ⟨raw⟩⟩ := snapshot
  simp only [isWellFormed, FloorPeer.NONE, Bool.and_eq_true, bne_iff_ne, decide_eq_true_eq,
    beq_iff_eq]
  constructor
  · rintro ⟨⟨⟨positive, bounded⟩, peerBound⟩, agree⟩
    refine ⟨Nat.pos_of_ne_zero positive, bounded, peerBound, ?_⟩
    rw [Bool.eq_iff_iff] at agree
    simpa [FloorPeer.NONE] using agree
  · rintro ⟨positive, bounded, peerBound, agree⟩
    refine ⟨⟨⟨Nat.pos_iff_ne_zero.mp positive, bounded⟩, peerBound⟩, ?_⟩
    rw [Bool.eq_iff_iff]
    simpa [FloorPeer.NONE] using agree

theorem fresh_wellFormed : fresh.WellFormed :=
  isWellFormed_iff.mp (by decide)

theorem nextGeneration_pos (generation : Nat) : 0 < nextGeneration generation := by
  unfold nextGeneration
  split <;> omega

theorem nextGeneration_le {generation : Nat} : nextGeneration generation ≤ maxGeneration := by
  unfold nextGeneration
  split
  · decide
  · omega

theorem nextGeneration_eq {generation : Nat} (bound : generation ≤ maxGeneration) :
    nextGeneration generation = generation % maxGeneration + 1 := by
  unfold nextGeneration
  rcases lt_or_ge generation maxGeneration with below | top
  · rw [if_neg (not_le.mpr below), Nat.mod_eq_of_lt below]
  · rw [if_pos top, le_antisymm bound top, Nat.mod_self]

theorem WellFormed.next (bound : peer.raw ≤ maxSlot) (agree : state = .free ↔ peer = .NONE) :
    (snapshot.next state peer).WellFormed :=
  ⟨nextGeneration_pos _, nextGeneration_le, bound, agree⟩

theorem WellFormed.freed : snapshot.freed.WellFormed :=
  .next (by decide) (by simp)

/-! ## The word -/

theorem maxGeneration_lt : maxGeneration < 2 ^ 57 := by decide

theorem pack_toNat (wellFormed : snapshot.WellFormed) :
    snapshot.pack.toNat =
      Library.Fields.pack stateBits peerBits snapshot.generation snapshot.peer.raw
        snapshot.state.code := by
  have generationBound := lt_of_le_of_lt wellFormed.generation_le maxGeneration_lt
  have peerBound : snapshot.peer.raw < 2 ^ 4 := lt_of_le_of_lt wellFormed.peer_le (by decide)
  have stateBound := snapshot.state.code_lt
  have generationFits : snapshot.generation <<< 7 < 2 ^ 64 := by
    rw [Nat.shiftLeft_eq]; omega
  have peerFits : snapshot.peer.raw <<< 3 < 2 ^ 64 := by
    rw [Nat.shiftLeft_eq]; omega
  simp only [pack, Library.Fields.pack, stateBits, peerBits, UInt64.toNat_or, UInt64.toNat_shiftLeft,
    UInt64.toNat_ofNat']
  rw [Nat.mod_eq_of_lt (show snapshot.generation < 2 ^ 64 by omega),
    Nat.mod_eq_of_lt (show snapshot.peer.raw < 2 ^ 64 by omega),
    Nat.mod_eq_of_lt (show snapshot.state.code < 2 ^ 64 by omega)]
  show (snapshot.generation <<< 7 % 2 ^ 64 ||| snapshot.peer.raw <<< 3 % 2 ^ 64 ||| _) = _
  rw [Nat.mod_eq_of_lt generationFits, Nat.mod_eq_of_lt peerFits]

theorem unpack_pack (wellFormed : snapshot.WellFormed) : unpack snapshot.pack = some snapshot := by
  have peerBound : snapshot.peer.raw < 2 ^ peerBits := lt_of_le_of_lt wellFormed.peer_le (by decide)
  have stateBound : snapshot.state.code < 2 ^ stateBits := snapshot.state.code_lt
  have state : (snapshot.pack &&& stateMask).toNat = snapshot.state.code := by
    rw [UInt64.toNat_and, pack_toNat wellFormed]
    exact Library.Fields.pack_low peerBound stateBound
  have peer : ((snapshot.pack >>> 3) &&& peerMask).toNat = snapshot.peer.raw := by
    rw [UInt64.toNat_and, UInt64.toNat_shiftRight, pack_toNat wellFormed]
    exact Library.Fields.pack_middle peerBound stateBound
  have generation : (snapshot.pack >>> 7).toNat = snapshot.generation := by
    rw [UInt64.toNat_shiftRight, pack_toNat wellFormed]
    exact Library.Fields.pack_high peerBound stateBound
  simp only [unpack, state, peer, generation, FloorState.fromCode_code]

theorem pack_injective {first second : FloorSnapshot} (firstFormed : first.WellFormed)
    (secondFormed : second.WellFormed) (same : first.pack = second.pack) : first = second := by
  have decoded := unpack_pack firstFormed
  rw [same, unpack_pack secondFormed] at decoded
  exact (some.inj decoded).symm

/-! ## The operations

Each operation checks what its caller gave it and then swaps the exact snapshot for the
next one.  `transition`, `claim` and `handOver` take that snapshot from the caller;
`release`, `releasePeer` and `reset` load it themselves.  `none` is a refusal before any
swap. -/

def transition (source : FloorSnapshot) (target : FloorState) : Option FloorSnapshot :=
  if !source.isWellFormed || !source.state.allows target then none
  else
    let peer := match source.state, target with
      | _, .free => FloorPeer.NONE
      | .free, _ => FloorPeer.SOLE
      | _, _ => source.peer
    some (source.next target peer)

def claim (source : FloorSnapshot) (target : FloorState) (peer : FloorPeer) :
    Option FloorSnapshot :=
  let allowed := match source.state, target with
    | .free, .requesting | .free, .receiving => peer != .NONE
    | .requesting, .receiving => source.peer == peer
    | _, _ => false
  if !source.isWellFormed || !allowed then none
  else some (source.next target peer)

def handOver (source : FloorSnapshot) (peer : FloorPeer) : Option FloorSnapshot :=
  if !source.isWellFormed || source.state != .returning || peer == .NONE || peer == source.peer then
    none
  else some (source.next .sending peer)

def release (current : FloorSnapshot) (owner : FloorOwner) (generation : Nat) :
    Option FloorSnapshot :=
  if current.generation == generation && current.state.owner == some owner then
    some current.freed
  else none

def releasePeer (current : FloorSnapshot) (peer : FloorPeer) (generation : Nat) :
    Option FloorSnapshot :=
  if peer != .NONE && current.peer == peer && current.generation == generation then
    some current.freed
  else none

theorem transition_state (planned : source.transition state = some target) :
    target.state = state := by
  simp only [transition, ite_none_left_eq_some] at planned
  cases planned.2
  rfl

theorem claim_state (planned : source.claim state peer = some target) : target.state = state := by
  simp only [claim, ite_none_left_eq_some] at planned
  cases planned.2
  rfl

theorem handOver_state (planned : source.handOver peer = some target) : target.state = .sending := by
  simp only [handOver, ite_none_left_eq_some] at planned
  cases planned.2
  rfl

/-- The compare-and-swap on the decoded word: the current snapshot comes back as the error. -/
def swapExact (current source target : FloorSnapshot) : Except FloorSnapshot FloorSnapshot :=
  if current = source then .ok target else .error current

end FloorSnapshot

/-- A call on the floor with what its caller gave it. -/
inductive FloorOp where
  | transition (source : FloorSnapshot) (target : FloorState)
  | claim (source : FloorSnapshot) (target : FloorState) (peer : FloorPeer)
  | handOver (source : FloorSnapshot) (peer : FloorPeer)
  | release (owner : FloorOwner) (generation : Nat)
  | releasePeer (peer : FloorPeer) (generation : Nat)
  | reset
  deriving DecidableEq

namespace FloorOp

/-- The swap a call attempts once it loaded `loaded`: the snapshot expected and the one
written in its place. -/
def plan (loaded : FloorSnapshot) : FloorOp → Option (FloorSnapshot × FloorSnapshot)
  | .transition source target => (source.transition target).map (source, ·)
  | .claim source target peer => (source.claim target peer).map (source, ·)
  | .handOver source peer => (source.handOver peer).map (source, ·)
  | .release owner generation => (loaded.release owner generation).map (loaded, ·)
  | .releasePeer peer generation => (loaded.releasePeer peer generation).map (loaded, ·)
  | .reset => some (loaded, loaded.freed)

/-- A call nothing interrupts: the new snapshot, or the current one where it is refused. -/
def run (floor : FloorSnapshot) (op : FloorOp) : Except FloorSnapshot FloorSnapshot :=
  match op.plan floor with
  | some (source, target) => floor.swapExact source target
  | none => .error floor

theorem run_eq_ok {op : FloorOp} (ran : op.run floor = .ok target) :
    op.plan floor = some (floor, target) := by
  unfold run at ran
  split at ran
  · next planned =>
    unfold FloorSnapshot.swapExact at ran
    split at ran
    · next same =>
      cases ran
      rw [planned, same]
    · cases ran
  · cases ran

/-- The swap of a call that was given the snapshot it expects. -/
theorem plan_given {given : FloorSnapshot} {made : Option FloorSnapshot}
    (planned : made.map (given, ·) = some (source, target)) :
    source = given ∧ made = some target := by
  obtain ⟨_, found, same⟩ := map_eq_some_iff.mp planned
  cases same
  exact ⟨rfl, found⟩

theorem run_transition (ran : (transition source state).run floor = .ok target) :
    floor = source ∧ source.transition state = some target :=
  plan_given (run_eq_ok ran)

theorem run_claim (ran : (claim source state peer).run floor = .ok target) :
    floor = source ∧ source.claim state peer = some target :=
  plan_given (run_eq_ok ran)

theorem run_handOver (ran : (handOver source peer).run floor = .ok target) :
    floor = source ∧ source.handOver peer = some target :=
  plan_given (run_eq_ok ran)

/-- Only values of the private peer type reach a call. -/
def Issued : FloorOp → Prop
  | .claim _ _ peer | .handOver _ peer => peer.Issued
  | _ => True

theorem transition_issued (source : FloorSnapshot) (target : FloorState) :
    (transition source target).Issued := trivial

theorem reset_issued : reset.Issued := trivial

/-- The call was given exactly this snapshot, or this generation of this holder; `reset`
is given nothing. -/
def Names (snapshot : FloorSnapshot) : FloorOp → Prop
  | .transition source _ | .claim source _ _ | .handOver source _ => source = snapshot
  | .release owner generation =>
    snapshot.generation = generation ∧ snapshot.state.owner = some owner
  | .releasePeer peer generation =>
    peer ≠ .NONE ∧ snapshot.peer = peer ∧ snapshot.generation = generation
  | .reset => True

/-- The generation the caller acts on, none for `reset`. -/
def generation : FloorOp → Option Nat
  | .transition source _ | .claim source _ _ | .handOver source _ => some source.generation
  | .release _ generation | .releasePeer _ generation => some generation
  | .reset => none

theorem Names.generation {op : FloorOp} {given : Nat} (names : op.Names snapshot)
    (acts : op.generation = some given) : given = snapshot.generation := by
  cases op <;> simp_all [Names, FloorOp.generation]

/-- The edges a successful swap follows: `handOver`'s is in no row of `allows`. -/
def Edge (op : FloorOp) (source target : FloorSnapshot) : Prop :=
  source.state.allows target.state = true ∨ target.state = .free ∨
    (op = .handOver source target.peer ∧ source.state = .returning ∧ target.state = .sending ∧
      target.peer ≠ source.peer)

/-- What a planned swap does, whatever the operation. -/
structure Swap (op : FloorOp) (source target : FloorSnapshot) : Prop where
  names : op.Names source
  edge : op.Edge source target
  generation : target.generation = FloorSnapshot.nextGeneration source.generation
  sourceFormed : source.WellFormed
  targetFormed : target.WellFormed

theorem transition_swap (planned : source.transition state = some target) :
    (transition source state).Swap source target := by
  simp only [FloorSnapshot.transition, ite_none_left_eq_some, Bool.or_eq_true,
    Bool.not_eq_true', not_or, Bool.not_eq_false] at planned
  obtain ⟨⟨checked, allowed⟩, moved⟩ := planned
  cases moved
  have wellFormed := FloorSnapshot.isWellFormed_iff.mp checked
  have held := wellFormed.free_iff
  refine ⟨rfl, .inl allowed, rfl, wellFormed, .next ?_ ?_⟩
  · split
    · decide
    · decide
    · exact wellFormed.peer_le
  · split
    · simp
    · simp_all [FloorPeer.SOLE, FloorPeer.NONE]
    · simp_all

theorem claim_swap (issued : peer.Issued) (planned : source.claim state peer = some target) :
    (claim source state peer).Swap source target := by
  simp only [FloorSnapshot.claim, ite_none_left_eq_some, Bool.or_eq_true, Bool.not_eq_true',
    not_or, Bool.not_eq_false] at planned
  obtain ⟨⟨checked, allowed⟩, moved⟩ := planned
  cases moved
  have wellFormed := FloorSnapshot.isWellFormed_iff.mp checked
  have held := wellFormed.free_iff
  refine ⟨rfl, .inl ?_, rfl, wellFormed, .next issued.raw_le ?_⟩
  · split at allowed <;> simp_all [FloorState.allows]
  · split at allowed <;> simp_all

theorem handOver_swap (issued : peer.Issued) (planned : source.handOver peer = some target) :
    (handOver source peer).Swap source target := by
  simp only [FloorSnapshot.handOver, ite_none_left_eq_some, Bool.or_eq_true,
    Bool.not_eq_true', not_or, Bool.not_eq_false, bne_iff_ne, ne_eq, Decidable.not_not,
    beq_iff_eq] at planned
  obtain ⟨⟨⟨⟨checked, returning⟩, somebody⟩, other⟩, moved⟩ := planned
  cases moved
  refine ⟨rfl, .inr (.inr ⟨rfl, returning, rfl, other⟩), rfl,
    FloorSnapshot.isWellFormed_iff.mp checked, .next issued.raw_le ?_⟩
  simpa using somebody

/-- The swap of any call: exact, along an edge, one generation on. -/
theorem plan_swap {op : FloorOp} {loaded : FloorSnapshot} (issued : op.Issued)
    (wellFormed : loaded.WellFormed) (planned : op.plan loaded = some (source, target)) :
    op.Swap source target := by
  cases op with
  | transition given state =>
    obtain ⟨rfl, planned⟩ := plan_given planned
    exact transition_swap planned
  | claim given state peer =>
    obtain ⟨rfl, planned⟩ := plan_given planned
    exact claim_swap issued planned
  | handOver given peer =>
    obtain ⟨rfl, planned⟩ := plan_given planned
    exact handOver_swap issued planned
  | release owner generation =>
    simp only [plan, FloorSnapshot.release, map_eq_some_iff, Prod.mk.injEq,
      ite_none_right_eq_some, Bool.and_eq_true, beq_iff_eq] at planned
    obtain ⟨next, ⟨⟨sameGeneration, owned⟩, freed⟩, rfl, rfl⟩ := planned
    cases freed
    exact ⟨⟨sameGeneration, owned⟩, .inr (.inl rfl), rfl, wellFormed, .freed⟩
  | releasePeer peer generation =>
    simp only [plan, FloorSnapshot.releasePeer, map_eq_some_iff, Prod.mk.injEq,
      ite_none_right_eq_some, Bool.and_eq_true, bne_iff_ne, beq_iff_eq] at planned
    obtain ⟨next, ⟨⟨⟨somebody, samePeer⟩, sameGeneration⟩, freed⟩, rfl, rfl⟩ := planned
    cases freed
    exact ⟨⟨somebody, samePeer, sameGeneration⟩, .inr (.inl rfl), rfl, wellFormed, .freed⟩
  | reset =>
    cases planned
    exact ⟨trivial, .inr (.inl rfl), rfl, wellFormed, .freed⟩

end FloorOp
end Monhop.Core
