import Monhop.Core.CaptureRing
import Monhop.Library.Ring
import Monhop.Library.Trace
import Monhop.Protocol.CodecSafety

/-! # The capture ring is a queue

In every interleaving of the producer, the consumer and whoever stops the capture, the ring
holds exactly the records published and not yet taken, each whole in its slot.

* `CaptureRing.Sound` — the invariant, over the words, both program counters and the history.
* `reachable_sound` — every step keeps it.
* `capture_queue` — order, completeness, the full check and the route barriers.
* `ring_runs_refine` — its runs are runs of the list queue.
-/

namespace Monhop.Core

open List Function Option
open Relation (ReflTransGen)
open Library (AtEach atEach_nil atEach_concat)
open Library.Ring (Sized Numbered Filled mapM_range)
open Protocol (FloatBits)
variable {F : Type}
variable {later : CaptureRing F} {record : CapturedEvent F} {left : List SlotWord}

theorem sized_capacity : Sized captureQueueCapacity (2 ^ 64) where
  two := by decide
  below := by decide
  divides := ⟨2 ^ 55, by decide⟩

/-! ## Routes -/

variable (records : List (CapturedEvent F))

/-- The route the last barrier of a stream of records opened. -/
def lastRoute : Nat × Bool :=
  records.foldl
    (fun route record =>
      match record.event with
      | .routeChanged remote revision => (revision, remote)
      | _ => route)
    (0, false)

/-- A barrier opens a newer route than every one before it and is tagged with it; any other
record belongs to the route opened last. -/
def Routed (before : List (CapturedEvent F)) (record : CapturedEvent F) : Prop :=
  match record.event with
  | .routeChanged remote revision =>
    (lastRoute before).1 < revision ∧ (record.routingRevision, record.remote) = (revision, remote)
  | _ => (record.routingRevision, record.remote) = lastRoute before

theorem lastRoute_concat (record : CapturedEvent F) :
    lastRoute (records ++ [record]) =
      match record.event with
      | .routeChanged remote revision => (revision, remote)
      | _ => lastRoute records := by
  simp [lastRoute, foldl_append]

theorem lastRoute_stored : lastRoute (records.map CapturedEvent.stored) = lastRoute records := by
  unfold lastRoute
  rw [foldl_map]
  congr
  funext route record
  obtain ⟨event, _, _, _⟩ := record
  cases event <;> rfl

theorem routed_stored {before : List (CapturedEvent F)} :
    Routed (before.map CapturedEvent.stored) record.stored ↔ Routed before record := by
  unfold Routed
  rw [lastRoute_stored]
  obtain ⟨event, _, _, _⟩ := record
  cases event <;> rfl

namespace CaptureRing

section
variable [Scalar F] [FloatBits F]

/-! ## The invariant -/

/-- A record the producer's checks let through. -/
def Admits (ring : CaptureRing F) (record : CapturedEvent F) : Prop :=
  record.Formed ∧ record.event.isValid = true ∧ ring.acceptsRoute record = true

/-- What the producer's place in its call says. -/
def ProducerSound (ring : CaptureRing F) : ProducerAt F → Prop
  | .entered record => record.Formed
  | .admitted record | .looking record => ring.Admits record
  | .writing record left =>
    ring.Admits record ∧ ring.recorded.length < ring.taken + captureQueueCapacity ∧
      -- the words stored so far
      ∀ word, word ∉ left →
        ring.words (ring.recorded.length % captureQueueCapacity) word = record.words word
  | .idle | .published | .stopping _ | .refusing => True

/-- What the consumer's place in its call says.  It never finds words it cannot decode. -/
def ConsumerSound (ring : CaptureRing F) : ConsumerAt F → Prop
  | .reading loaded left =>
    ∃ record, ring.recorded[ring.taken]? = some record ∧
      ∀ word, word ∉ left → loaded word = record.words word
  | .idle | .entered | .looking | .returning _ => True
  | .stopping _ | .refusing => False

/-- The record a pop took out and has not returned. -/
def inHand (ring : CaptureRing F) : List (CapturedEvent F) :=
  match ring.consumer with
  | .returning record => [record]
  | _ => []

structure Sound (ring : CaptureRing F) : Prop where
  tail : ring.tail = ring.recorded.length % 2 ^ 64
  head : ring.head = ring.taken % 2 ^ 64
  numbered : Numbered captureQueueCapacity (2 ^ 64) ring.publish ring.taken ring.recorded.length
  filled : Filled captureQueueCapacity CapturedEvent.words ring.words ring.recorded ring.taken
  readable : ∀ record ∈ ring.recorded,
    CapturedEvent.decode record.words = some record.stored
  producer : ring.ProducerSound ring.producer
  consumer : ring.ConsumerSound ring.consumer
  ordered : ring.popped <+: ring.recorded.map CapturedEvent.stored
  complete : ring.stopped = none →
    ring.popped ++ ring.inHand = (ring.recorded.take ring.taken).map CapturedEvent.stored
  routed : AtEach Routed ring.recorded
  route : (ring.routingRevision, ring.remote) = lastRoute ring.recorded

variable {ring : CaptureRing F}

theorem new_sound : Sound (.new : CaptureRing F) where
  tail := rfl
  head := rfl
  numbered := Numbered.start sized_capacity fun _ _ => rfl
  filled _ _ _ found := by simp [new] at found
  readable _ member := by simp [new] at member
  producer := trivial
  consumer := trivial
  ordered := prefix_rfl
  complete _ := rfl
  routed := atEach_nil
  route := rfl

section
variable (sound : ring.Sound)
include sound

theorem Sound.slotIndex_tail :
    slotIndex ring.tail = ring.recorded.length % captureQueueCapacity := by
  rw [sound.tail]
  exact sized_capacity.index_word

theorem Sound.slotIndex_head : slotIndex ring.head = ring.taken % captureQueueCapacity := by
  rw [sound.head]
  exact sized_capacity.index_word

theorem Sound.room_iff :
    ring.publish (slotIndex ring.tail) = ring.tail ↔
      ring.recorded.length < ring.taken + captureQueueCapacity := by
  rw [sound.slotIndex_tail, sound.tail]
  exact sound.numbered.free_iff sized_capacity

omit sound in
theorem wrappingAdd_word (word step : Nat) : wrappingAdd (word % 2 ^ 64) step = (word + step) % 2 ^ 64 :=
  Nat.mod_add_mod word (2 ^ 64) step

theorem Sound.ready_iff :
    ring.publish (slotIndex ring.head) = wrappingAdd ring.head 1 ↔
      ring.taken < ring.recorded.length := by
  rw [sound.slotIndex_head, sound.head, wrappingAdd_word]
  exact sound.numbered.ready_iff sized_capacity

/-! ## Steps -/

omit sound in
theorem ProducerSound.frame {place : ProducerAt F} (placed : ring.ProducerSound place)
    (words : later.words = ring.words)
    (route : later.routingRevision = ring.routingRevision ∧ later.remote = ring.remote)
    (recorded : later.recorded = ring.recorded) (taken : ring.taken ≤ later.taken) :
    later.ProducerSound place := by
  have accepts : ∀ record, later.acceptsRoute record = ring.acceptsRoute record := by
    intro record
    unfold acceptsRoute
    rw [route.1, route.2]
  cases place with
  | entered record => exact placed
  | admitted record | looking record => exact ⟨placed.1, placed.2.1, (accepts record).trans placed.2.2⟩
  | writing record left =>
    obtain ⟨⟨formed, valid, accepted⟩, room, stored⟩ := placed
    refine ⟨⟨formed, valid, (accepts record).trans accepted⟩, ?_, ?_⟩
    · rw [recorded]
      omega
    · rwa [words, recorded]
  | idle | published | stopping | refusing => trivial

omit sound in
theorem ConsumerSound.frame {place : ConsumerAt F} (placed : ring.ConsumerSound place)
    (recorded : ring.recorded <+: later.recorded) (taken : later.taken = ring.taken) :
    later.ConsumerSound place := by
  cases place with
  | reading loaded left =>
    obtain ⟨record, found, same⟩ := placed
    obtain ⟨rest, grown⟩ := recorded
    refine ⟨record, ?_, same⟩
    rw [taken, ← grown, getElem?_append_left (List.getElem?_eq_some_iff.mp found).1]
    exact found
  | idle | entered | looking | returning => trivial
  | stopping | refusing => exact placed

theorem Sound.producerTo {place : ProducerAt F}
    (placed : ring.ProducerSound place) : Sound { ring with producer := place } :=
  { sound with
    producer := placed.frame rfl ⟨rfl, rfl⟩ rfl le_rfl
    consumer := sound.consumer.frame prefix_rfl rfl }

theorem Sound.consumerTo {place : ConsumerAt F}
    (placed : ring.ConsumerSound place) (empty : ring.inHand = [])
    (still : { ring with consumer := place }.inHand = []) : Sound { ring with consumer := place } :=
  { sound with
    producer := sound.producer.frame rfl ⟨rfl, rfl⟩ rfl le_rfl
    consumer := placed.frame prefix_rfl rfl
    complete := by
      intro running
      rw [still, ← empty]
      exact sound.complete running }

theorem Sound.stop (reason : StopReason) : (ring.stop reason).Sound :=
  { sound with
    producer := sound.producer.frame rfl ⟨rfl, rfl⟩ rfl le_rfl
    consumer := sound.consumer.frame prefix_rfl rfl
    complete := by
      intro running
      have stopped : (ring.stopped <|> some reason) = none := running
      cases earlier : ring.stopped <;> rw [earlier] at stopped <;> cases stopped }

theorem Sound.storeWord {word : SlotWord}
    (writing : ring.ProducerSound (.writing record (word :: left))) :
    Sound { ring.storeWord record word with producer := .writing record left } := by
  obtain ⟨admits, room, stored⟩ := writing
  have slot := sound.slotIndex_tail
  refine { sound with filled := ?_, producer := ?_, consumer := ?_ }
  · show Filled _ _ (update _ (slotIndex ring.tail) _) _ _
    rw [slot]
    exact sound.filled.store sound.numbered.ordered room _
  · refine ⟨admits, room, fun other unstored => ?_⟩
    simp only [CaptureRing.storeWord, slot]
    rw [update_self]
    by_cases same : other = word
    · rw [same, update_self]
    · rw [update_of_ne same]
      exact stored other (by simp [same, unstored])
  · exact sound.consumer.frame prefix_rfl rfl

/-- An accepted record is routed after what was published. -/
theorem Sound.routed_of_accepts (accepted : ring.acceptsRoute record = true) :
    Routed ring.recorded record := by
  unfold acceptsRoute at accepted
  unfold Routed
  rw [← sound.route]
  cases event : record.event <;> simp_all

end

omit [Scalar F] [FloatBits F] in
/-- The record of an accepted route is tagged with it. -/
theorem tagged_of_accepts (accepted : ring.acceptsRoute record = true) : record.tagged = true := by
  unfold acceptsRoute at accepted
  unfold CapturedEvent.tagged
  cases event : record.event <;> simp_all

section
variable (sound : ring.Sound)
include sound

theorem Sound.publishRecord (writing : ring.ProducerSound (.writing record [])) :
    (ring.publishRecord record).Sound := by
  obtain ⟨⟨formed, valid, accepted⟩, room, stored⟩ := writing
  have grown : (ring.publishRecord record).recorded.length = ring.recorded.length + 1 :=
    length_append
  have routed := sound.routed_of_accepts accepted
  constructor
  · show wrappingAdd ring.tail 1 = _
    rw [grown, sound.tail, wrappingAdd_word]
  · exact sound.head
  · rw [grown]
    show Numbered _ _ (update ring.publish (slotIndex ring.tail) (wrappingAdd ring.tail 1))
      _ _
    rw [sound.slotIndex_tail, sound.tail, wrappingAdd_word]
    exact sound.numbered.push room
  · exact sound.filled.concat record (funext fun word => stored word not_mem_nil)
  · exact forall_mem_append.mpr ⟨sound.readable, forall_mem_singleton.mpr
      (CapturedEvent.decode_words formed valid (tagged_of_accepts accepted))⟩
  · trivial
  · exact sound.consumer.frame (prefix_append _ _) rfl
  · show ring.popped <+: (ring.recorded ++ [record]).map CapturedEvent.stored
    rw [map_append]
    exact sound.ordered.trans (prefix_append _ _)
  · intro running
    show ring.popped ++ ring.inHand = ((ring.recorded ++ [record]).take ring.taken).map _
    rw [take_append_of_le_length sound.numbered.ordered]
    exact sound.complete running
  · exact atEach_concat.mpr ⟨sound.routed, routed⟩
  · show ring.routeAfter record = lastRoute (ring.recorded ++ [record])
    rw [lastRoute_concat, ← sound.route]
    rfl

/-- What the consumer loads next is a word of the oldest record. -/
theorem Sound.loaded {loaded : SlotWord → Nat} {word : SlotWord}
    (reading : ring.ConsumerSound (.reading loaded (word :: left))) :
    ring.ConsumerSound
      (.reading (update loaded word (ring.words (slotIndex ring.head) word)) left) := by
  obtain ⟨record, found, same⟩ := reading
  refine ⟨record, found, fun other read => ?_⟩
  by_cases last : other = word
  · rw [last, update_self, sound.slotIndex_head, sound.filled ring.taken record le_rfl found]
  · rw [update_of_ne last]
    exact same other (by simp [last, read])

/-- The slot goes back to the producer and the consumer holds the record it kept. -/
theorem Sound.release {loaded : SlotWord → Nat} (place : ring.consumer = .reading loaded []) :
    Sound { ring.release with consumer := decoded loaded } := by
  have reading := sound.consumer
  rw [place] at reading
  obtain ⟨record, found, same⟩ := reading
  have ready : ring.taken < ring.recorded.length := (List.getElem?_eq_some_iff.mp found).1
  have whole : loaded = record.words := funext fun word => same word not_mem_nil
  have handed : decoded loaded = .returning record.stored := by
    unfold decoded
    rw [whole, sound.readable record (mem_of_getElem? found)]
  rw [handed]
  constructor
  · exact sound.tail
  · show wrappingAdd ring.head 1 = (ring.taken + 1) % 2 ^ 64
    rw [sound.head, wrappingAdd_word]
  · show Numbered _ _ (update ring.publish (slotIndex ring.head)
      (wrappingAdd ring.head captureQueueCapacity)) (ring.taken + 1) _
    rw [sound.slotIndex_head, sound.head, wrappingAdd_word]
    exact sound.numbered.pop ready
  · exact sound.filled.mono (Nat.le_succ _)
  · exact sound.readable
  · exact sound.producer.frame rfl ⟨rfl, rfl⟩ rfl (Nat.le_succ _)
  · trivial
  · exact sound.ordered
  · intro running
    have before := sound.complete running
    have empty : ring.inHand = [] := by simp [inHand, place]
    rw [empty, append_nil] at before
    show ring.popped ++ [record.stored] = (ring.recorded.take (ring.taken + 1)).map _
    rw [take_add_one, found, map_append, before]
    rfl
  · exact sound.routed
  · exact sound.route

/-- A pop returns what it took out, unless the capture was stopped. -/
theorem Sound.returns (place : ring.consumer = .returning record) (running : ring.stopped = none) :
    Sound { ring with consumer := .idle, popped := ring.popped ++ [record] } := by
  have complete := sound.complete running
  have hand : ring.inHand = [record] := by simp [inHand, place]
  rw [hand] at complete
  refine { sound with
    producer := sound.producer.frame rfl ⟨rfl, rfl⟩ rfl le_rfl
    consumer := trivial, ordered := ?_, complete := ?_ }
  · show ring.popped ++ [record] <+: ring.recorded.map CapturedEvent.stored
    rw [complete]
    exact ( take_prefix _ _).map _
  · intro _
    show (ring.popped ++ [record]) ++ [] = _
    rw [append_nil, complete]

theorem Sound.produce (stepped : ring.produce = some later) : later.Sound := by
  have placed := sound.producer
  unfold CaptureRing.produce at stepped
  cases place : ring.producer <;> rw [place] at stepped placed
  case idle =>
    cases stepped
  case entered record =>
    cases stepped
    split
    · exact sound.producerTo trivial
    split
    · exact sound.producerTo trivial
    · next checked =>
      rw [Bool.or_eq_true, not_or] at checked
      simp only [Bool.not_eq_true', Bool.not_eq_false] at checked
      exact sound.producerTo ⟨placed, checked⟩
  case admitted record =>
    cases stepped
    split
    · exact sound.producerTo trivial
    · exact sound.producerTo placed
  case looking record =>
    cases stepped
    split
    · exact sound.producerTo trivial
    · next own =>
      -- nothing is stored yet: every word is still to go
      exact sound.producerTo ⟨placed, sound.room_iff.mp (not_not.mp own),
        fun word unlisted => absurd (SlotWord.mem_ALL word) unlisted⟩
  case writing record left =>
    cases left with
    | nil =>
      cases stepped
      exact sound.publishRecord placed
    | cons word left =>
      cases stepped
      exact sound.storeWord placed
  case stopping reason =>
    cases stepped
    exact (sound.stop reason).producerTo trivial
  case published | refusing =>
    cases stepped
    exact sound.producerTo trivial

theorem Sound.consume (stepped : ring.consume = some later) : later.Sound := by
  have placed := sound.consumer
  unfold CaptureRing.consume at stepped
  cases place : ring.consumer <;> rw [place] at stepped placed
  case idle =>
    cases stepped
  case entered =>
    have empty : ring.inHand = [] := by simp [inHand, place]
    cases stepped
    split
    · exact sound.consumerTo trivial empty rfl
    · exact sound.consumerTo trivial empty rfl
  case looking =>
    have empty : ring.inHand = [] := by simp [inHand, place]
    cases stepped
    split
    · exact sound.consumerTo trivial empty rfl
    next filled =>
    have ready := sound.ready_iff.mp (not_not.mp filled)
    -- nothing is loaded yet: every word is still to go
    exact sound.consumerTo ⟨ring.recorded[ring.taken], getElem?_eq_getElem ready,
      fun word unlisted => absurd (SlotWord.mem_ALL word) unlisted⟩ empty rfl
  case reading loaded left =>
    have empty : ring.inHand = [] := by simp [inHand, place]
    cases left with
    | nil =>
      cases stepped
      exact sound.release place
    | cons word left =>
      cases stepped
      exact sound.consumerTo (sound.loaded placed) empty rfl
  case returning record =>
    cases stepped
    split
    · next stopped =>
      -- the record in hand is dropped, which only a stopped capture does
      refine { sound with
        producer := sound.producer.frame rfl ⟨rfl, rfl⟩ rfl le_rfl
        consumer := trivial, complete := fun running => ?_ }
      rw [running] at stopped
      cases stopped
    · next running => exact sound.returns place (not_isSome_iff_eq_none.mp running)
  case stopping | refusing =>
    exact placed.elim

end

theorem reachable_sound (reachable : (ringLts F).Reachable ring) : ring.Sound := by
  refine reachable.invariant Sound ?_ ?_
  · rintro ring rfl
    exact new_sound
  intro ring label later sound step
  cases step with
  | push record idle formed => exact sound.producerTo formed
  | produce _ stepped => exact sound.produce stepped
  | pop idle => exact sound.consumerTo trivial (by simp [inHand, idle]) rfl
  | consume _ stepped => exact sound.consume stepped
  | stop reason => exact sound.stop reason

/-! ## The queue -/

/-- The records published and not taken out yet. -/
def unread (ring : CaptureRing F) : List (CapturedEvent F) := ring.recorded.drop ring.taken

/-- Popped records come out in their order; those not taken out stay whole in their slots, and
while the capture runs nothing is missing between the two.  The producer finds the ring full
only when every slot holds an unread record.  No record is popped before its route's barrier. -/
theorem capture_queue (reachable : (ringLts F).Reachable ring) :
    ring.popped <+: ring.recorded.map CapturedEvent.stored ∧
    (ring.stopped = none →
      ring.popped ++ ring.inHand ++ ring.unread.map CapturedEvent.stored =
        ring.recorded.map CapturedEvent.stored) ∧
    (∀ position record, ring.taken ≤ position → ring.recorded[position]? = some record →
      CapturedEvent.decode (ring.words (slotIndex position)) = some record.stored) ∧
    (∀ record later, ring.producer = .looking record → ring.produce = some later →
      later.producer = .stopping .queueFull → ring.unread.length = captureQueueCapacity) ∧
    AtEach Routed ring.popped := by
  have sound := reachable_sound reachable
  refine ⟨sound.ordered, fun running => ?_, fun position record left found => ?_,
    fun record later place stepped full => ?_, ?_⟩
  · rw [sound.complete running, ← map_append]
    exact congrArg _ (take_append_drop _ _)
  · show CapturedEvent.decode (ring.words (position % captureQueueCapacity)) = _
    rw [sound.filled position record left found]
    exact sound.readable record (mem_of_getElem? found)
  · have bounded := sound.numbered.bounded
    have room := sound.room_iff
    unfold CaptureRing.produce at stepped
    rw [place] at stepped
    cases stepped
    split at full
    · next other =>
      unfold unread
      rw [length_drop]
      omega
    · cases full
  · intro before record after split
    obtain ⟨rest, whole⟩ := sound.ordered
    rw [split, append_assoc] at whole
    obtain ⟨earlier, later, recorded, front, back⟩ := map_eq_append_iff.mp whole.symm
    obtain ⟨original, further, rfl, same, -⟩ := map_eq_cons_iff.mp back
    rw [← front, ← same]
    exact routed_stored.mpr (sound.routed earlier original further recorded)

/-! ## The list queue -/

/-- The list queue the words show: what the slots between the two positions decode to. -/
def channel (ring : CaptureRing F) : Option (CaptureChannel F) :=
  ((range (wrappingAdd ring.tail (2 ^ 64 - ring.head))).mapM fun offset =>
    CapturedEvent.decode (ring.words (slotIndex (ring.head + offset)))).map fun queue =>
      { queue, routingRevision := ring.routingRevision, remote := ring.remote
        stopped := ring.stopped }

/-- The list queue the history tells of. -/
def listed (ring : CaptureRing F) : CaptureChannel F :=
  { queue := ring.unread.map CapturedEvent.stored, routingRevision := ring.routingRevision
    remote := ring.remote, stopped := ring.stopped }

theorem Sound.channel_eq (sound : ring.Sound) : ring.channel = some ring.listed := by
  obtain ⟨tail, head, numbered, filled, readable⟩ := sound
  have ordered := numbered.ordered
  have bounded := numbered.bounded
  unfold captureQueueCapacity at bounded
  have count : wrappingAdd ring.tail (2 ^ 64 - ring.head) = ring.recorded.length - ring.taken := by
    rw [tail, head, wrappingAdd]
    omega
  have size : ring.recorded.length - ring.taken = ring.listed.queue.length := by
    simp [listed, unread]
  rw [channel, count, size, mapM_range]
  · rfl
  intro offset item found
  obtain ⟨record, stands, rfl⟩ : ∃ record, ring.recorded[ring.taken + offset]? = some record ∧
      record.stored = item := by simpa [listed, unread] using found
  have slot : slotIndex (ring.head + offset) = (ring.taken + offset) % captureQueueCapacity := by
    rw [head, slotIndex, captureQueueCapacity]
    omega
  rw [slot, filled _ record (Nat.le_add_right ..) stands]
  exact readable record (mem_of_getElem? stands)

/-- Publishing is the list queue's publication, with room for it. -/
theorem Sound.listed_publish (sound : ring.Sound)
    (writing : ring.ProducerSound (.writing record [])) :
    ring.listed.queue.length < captureQueueCapacity ∧
      (ring.publishRecord record).listed = ring.listed.publish record.stored := by
  obtain ⟨-, room, -⟩ := writing
  have ordered := sound.numbered.ordered
  constructor
  · simp only [listed, unread, length_map, length_drop]
    omega
  have queue : (ring.publishRecord record).listed.queue =
      ring.listed.queue ++ [record.stored] := by
    simp only [listed, unread, CaptureRing.publishRecord]
    rw [drop_append_of_le_length ordered, map_append]
    rfl
  obtain ⟨event, routingRevision, remote, floorGeneration⟩ := record
  cases event <;> simp only [listed, CaptureChannel.publish, CapturedEvent.stored,
    CaptureEvent.stored, CaptureRing.publishRecord, routeAfter] at queue ⊢ <;> rw [queue]

/-- Giving a slot back takes the oldest record off the list. -/
theorem ConsumerSound.listed_release {loaded : SlotWord → Nat}
    (reading : ring.ConsumerSound (.reading loaded left)) {place : ConsumerAt F} :
    ∃ record, ring.listed.queue =
        record :: ({ ring.release with consumer := place } : CaptureRing F).listed.queue := by
  obtain ⟨record, found, -⟩ := reading
  have ready := (List.getElem?_eq_some_iff.mp found).1
  refine ⟨ring.recorded[ring.taken].stored, ?_⟩
  simp only [listed, unread, CaptureRing.release]
  rw [drop_eq_getElem_cons ready, map_cons]

/-- An operation of the list queue, or none. -/
def ChannelStep (before after : CaptureChannel F) : Prop :=
  after = before ∨
  (∃ record, record.event.isValid = true ∧ before.acceptsRoute record = true ∧
    before.queue.length < captureQueueCapacity ∧ after = before.publish record.stored) ∨
  (∃ record queue, before.queue = record :: queue ∧ after = { before with queue }) ∨
  ∃ reason, after = before.stop reason

/-- Each step of the ring is a step of the list queue. -/
theorem ring_refines (reachable : (ringLts F).Reachable ring) {label : RingLabel F}
    (step : (ringLts F).step ring label later) : ChannelStep ring.listed later.listed := by
  have sound := reachable_sound reachable
  cases step with
  | push | pop => exact .inl rfl
  | stop reason => exact .inr (.inr (.inr ⟨reason, rfl⟩))
  | produce _ stepped =>
    have placed := sound.producer
    unfold CaptureRing.produce at stepped
    cases place : ring.producer <;> rw [place] at stepped placed
    case idle =>
      cases stepped
    case writing record left =>
      cases left with
      | nil =>
        cases stepped
        obtain ⟨room, published⟩ := sound.listed_publish placed
        exact .inr (.inl ⟨record, placed.1.2.1, placed.1.2.2, room, published⟩)
      | cons word left =>
        cases stepped
        exact .inl rfl
    case stopping reason =>
      cases stepped
      exact .inr (.inr (.inr ⟨reason, rfl⟩))
    case entered | admitted | looking | published | refusing =>
      -- only the program counter moves
      cases stepped
      repeat' split
      all_goals exact .inl rfl
  | consume _ stepped =>
    have placed := sound.consumer
    unfold CaptureRing.consume at stepped
    cases place : ring.consumer <;> rw [place] at stepped placed
    case idle =>
      cases stepped
    case reading loaded left =>
      cases left with
      | nil =>
        cases stepped
        obtain ⟨record, taken⟩ := placed.listed_release
        exact .inr (.inr (.inl ⟨record, _, taken, rfl⟩))
      | cons word left =>
        cases stepped
        exact .inl rfl
    case stopping | refusing =>
      exact placed.elim
    case entered | looking | returning =>
      cases stepped
      repeat' split
      all_goals exact .inl rfl

/-- Every interleaving of the ring is a run of the list queue, step by step. -/
theorem ring_runs_refine (reachable : (ringLts F).Reachable ring) :
    ∃ channel, ring.channel = some channel ∧ ReflTransGen ChannelStep .new channel ∧
      ∀ label later, (ringLts F).step ring label later →
        ∃ after, later.channel = some after ∧ ChannelStep channel after := by
  have sound := reachable_sound reachable
  refine ⟨ring.listed, sound.channel_eq, (reachable.invariant (fun ring =>
    (ringLts F).Reachable ring ∧ ReflTransGen ChannelStep .new ring.listed) ?_ ?_).2,
    fun label later step => ⟨later.listed,
      (reachable_sound (reachable.extend (.single step))).channel_eq, ring_refines reachable step⟩⟩
  · rintro _ rfl
    exact ⟨⟨_, [], rfl, .nil _⟩, .refl⟩
  · rintro first label second ⟨before, ran⟩ step
    exact ⟨before.extend (.single step), ran.tail (ring_refines before step)⟩

end

/-! ## Pushes and pops -/

section
open Protocol.CodecRun

/-- A left press at a time of so many nanoseconds, at home or away. -/
def press (time : Duration) (away : Bool) : CapturedEvent Int64 :=
  { event := .button .left true time, routingRevision := away.toNat, remote := away
    floorGeneration := 0 }

/-- The barrier of the first route away. -/
def barrier : CapturedEvent Int64 :=
  { event := .routeChanged true 1, routingRevision := 1, remote := true, floorGeneration := 0 }

theorem press_formed {time : Duration} {away : Bool} : (press time away).Formed :=
  ⟨trivial, Nat.lt_of_le_of_lt away.toNat_le (by decide), Nat.two_pow_pos 64⟩

theorem barrier_formed : barrier.Formed :=
  ⟨Nat.one_lt_two_pow (by decide), Nat.one_lt_two_pow (by decide), Nat.two_pow_pos 64⟩

def act (ring : CaptureRing Int64) : RingLabel Int64 → Option (CaptureRing Int64)
  | .push record =>
    match ring.producer with
    | .idle => some { ring with producer := .entered record }
    | _ => none
  | .produce => ring.produce
  | .pop =>
    match ring.consumer with
    | .idle => some { ring with consumer := .entered }
    | _ => none
  | .consume => ring.consume
  | .stop reason => some (ring.stop reason)

theorem act_step {ring later : CaptureRing Int64} {label : RingLabel Int64}
    (formed : ∀ record, label = .push record → record.Formed) (acts : ring.act label = some later) :
    (ringLts Int64).step ring label later := by
  unfold act at acts
  split at acts
  · split at acts <;> cases acts
    next idle => exact .push _ _ idle (formed _ rfl)
  · exact .produce _ _ acts
  · split at acts <;> cases acts
    next idle => exact .pop _ idle
  · exact .consume _ _ acts
  · cases acts
    exact .stop _ _

theorem act_reachable {labels : List (RingLabel Int64)} {ring : CaptureRing Int64}
    (formed : ∀ record, .push record ∈ labels → record.Formed)
    (ran : labels.foldlM act .new = some ring) : (ringLts Int64).Reachable ring :=
  ⟨_, _, rfl, .of_foldlM (fun _ _ _ among => act_step fun record same =>
    formed record (same ▸ among)) ran⟩

/-- A whole call of the producer. -/
def pushing (record : CapturedEvent Int64) : List (RingLabel Int64) :=
  .push record :: replicate 11 .produce

/-- A whole call of the consumer, as long as nothing stops it. -/
def popping : List (RingLabel Int64) := .pop :: replicate 10 .consume

theorem act_leaves {labels : List (RingLabel Int64)} {recorded popped : List (CapturedEvent Int64)}
    {taken : Nat} {stopped : Option StopReason}
    (formed : ∀ record, .push record ∈ labels → record.Formed)
    (ran : (labels.foldlM act .new).map (fun ring =>
      (ring.recorded, ring.taken, ring.popped, ring.stopped)) =
        some (recorded, taken, popped, stopped)) :
    ∃ ring, (ringLts Int64).Reachable ring ∧ ring.recorded = recorded ∧ ring.taken = taken ∧
      ring.popped = popped ∧ ring.stopped = stopped := by
  obtain ⟨ring, found, leaves⟩ := map_eq_some_iff.mp ran
  exact ⟨ring, act_reachable formed found, by simpa using leaves⟩

/-- A press at home, the route away and a press there, of which two are taken out. -/
theorem crossing_run : ∃ ring, (ringLts Int64).Reachable ring ∧
    ring.recorded = [press 5 false, barrier, press 6 true] ∧ ring.taken = 2 ∧
    ring.popped = [press 5 false, barrier] ∧ ring.stopped = none :=
  @act_leaves (pushing (press 5 false) ++ popping ++ pushing barrier ++ pushing (press 6 true) ++
    popping) _ _ _ _ (by simp [pushing, popping, press_formed, barrier_formed]) (by decide +kernel)

theorem capture_queue_press : ∃ ring : CaptureRing Int64,
    ring.popped = [press 5 false, barrier] ∧
      ring.popped <+: ring.recorded.map CapturedEvent.stored ∧
      ring.popped ++ ring.inHand ++ ring.unread.map CapturedEvent.stored =
        ring.recorded.map CapturedEvent.stored ∧
      CapturedEvent.decode (ring.words (slotIndex 2)) = some (press 6 true).stored ∧
      AtEach Routed ring.popped := by
  obtain ⟨ring, reachable, recorded, taken, popped, running⟩ := crossing_run
  obtain ⟨ordered, complete, slots, -, routed⟩ := capture_queue reachable
  exact ⟨ring, popped, ordered, complete running, slots 2 _ taken.le (by rw [recorded]; rfl), routed⟩

theorem ring_runs_refine_press : ∃ (ring : CaptureRing Int64) (channel : CaptureChannel Int64),
    ring.channel = some channel ∧ channel.queue = [press 6 true] ∧
      ReflTransGen ChannelStep .new channel := by
  obtain ⟨ring, reachable, recorded, taken, -⟩ := crossing_run
  obtain ⟨channel, shown, ran, -⟩ := ring_runs_refine reachable
  refine ⟨ring, channel, shown, ?_, ran⟩
  rw [(reachable_sound reachable).channel_eq] at shown
  cases shown
  rw [listed, unread, recorded, taken]
  rfl

/-- A press later than a word of nanoseconds can say comes out earlier than it went in; a record
taken out as the capture stops is lost; and a stopped capture repeats that the ring was full. -/
theorem late_press_changed :
    (∃ ring, (ringLts Int64).Reachable ring ∧ ring.recorded = [press (2 ^ 64) false] ∧
      ring.taken = 1 ∧ ring.popped = [press (2 ^ 64 - 1) false] ∧ ring.stopped = none) ∧
    (∃ ring, (ringLts Int64).Reachable ring ∧ ring.recorded = [press 5 false] ∧
      ring.taken = 1 ∧ ring.popped = [] ∧ ring.stopped = some .requested) ∧
    ∃ ring, (ringLts Int64).Reachable ring ∧ ring.stopped = some .queueFull ∧ ring.unread = [] ∧
      ring.producer = .entered (press 5 false) ∧
      ring.produce = some { ring with producer := .idle } := by
  refine ⟨?_, ?_, ?_⟩
  · exact @act_leaves (pushing (press (2 ^ 64) false) ++ popping) _ _ _ _
      (by simp [pushing, popping, press_formed]) (by decide +kernel)
  · exact @act_leaves (pushing (press 5 false) ++ .pop :: replicate 9 .consume ++
      [.stop .requested, .consume]) _ _ _ _ (by simp [pushing, press_formed]) (by decide +kernel)
  · refine ⟨_, @act_reachable [.stop .queueFull, .push (press 5 false)] _ ?_ rfl, rfl, rfl, rfl, rfl⟩
    simp [press_formed]

end
end CaptureRing
end Monhop.Core
