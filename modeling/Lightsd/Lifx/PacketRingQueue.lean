import Lightsd.Library.RingQueue
import Lightsd.Lifx.PacketRingAccounting

/-! # The packet ring as a bounded queue

Seen from outside, the ring is a queue of packet types that holds at most sixteen of
them: an accepted packet is added at the back, and the callback that completes a slot
removes the front. A write that would block spoils the sizes the slots record, but it
only makes the oldest one larger. So the slots together never record fewer bytes than
the buffer holds, and with an empty queue there is no event to run the callback.
-/
namespace Lightsd.Lifx
open RingWindow Runs

namespace Gateway

/-- The callback finds nothing left to write of the slot at the tail. -/
def Completes (g : Gateway) (r : WriteResult) : Prop := g.toWrite - r.nbytes = 0

instance (g : Gateway) (r : WriteResult) : Decidable (g.Completes r) :=
  inferInstanceAs (Decidable (_ = _))

/-- No byte of the packet reaches the buffer. -/
def Drops (g : Gateway) (p : OutPacket) : Prop := (g.enqueuePacket p).writeBuf = g.writeBuf

theorem drops_iff (g : Gateway) (p : OutPacket) : g.Drops p ↔ g.pktRingFull = true := by
  have hbytes : p.bytes ≠ [] := by
    intro he
    have hl := (congrArg List.length he).symm.trans p.bytes_length
    simp [headerSize] at hl
    omega
  cases hf : g.pktRingFull <;> simp [Drops,enqueuePacket,hf,hbytes]

end Gateway

/-- A gateway beside the types of the packets it accepted and did not complete, oldest
first. -/
structure TypeQueueState where
  gw : Gateway
  queue : List PacketType

def TypeQueueState.step (s : TypeQueueState) : QueueEvent → TypeQueueState
  | .enqueue p => ⟨s.gw.enqueuePacket p,push ringSize s.queue p.info.type⟩
  | .write now r => ⟨s.gw.written now r,if s.gw.Completes r then s.queue.tail else s.queue⟩

def typeQueueSystem : System TypeQueueState QueueEvent where
  enabled s e := e.Enabled s.gw
  step := TypeQueueState.step

/-- The ring of the gateway behaves as the queue. -/
structure SimulatesQueue (s : TypeQueueState) : Prop where
  head_lt : s.gw.pktRingHead < ringSize
  tail_lt : s.gw.pktRingTail < ringSize
  full_iff : s.gw.pktRingFull = true ↔ s.queue.length = ringSize
  types : s.gw.occupied.map Message.type = s.queue.map some
  drops_iff : ∀ p, s.gw.Drops p ↔ s.queue.length = ringSize
  completes : ∀ now r, (QueueEvent.write now r).Enabled s.gw → s.gw.Completes r → s.queue ≠ []

/-- The slots behind the queue: none is empty, and together they record at least as
many bytes as the buffer holds. -/
structure Backed (s : TypeQueueState) (slots : List Message) : Prop where
  stores : Stores s.gw.pktRing ringSize s.gw.pktRingHead s.gw.pktRingTail s.gw.pktRingFull slots
  types : slots.map Message.type = s.queue.map some
  pos : ∀ m ∈ slots, 0 < m.size
  covers : (s.gw.writeBuf.length : ℤ) ≤ (slots.map Message.size).sum
  pending : s.gw.socketEvPending = !s.gw.writeBuf.isEmpty

theorem backed_opened (peer : SockAddr) (site : Addr) (t : Time) :
    Backed ⟨Gateway.opened peer site t,[]⟩ [] := by
  refine ⟨Stores.nil _ (by decide),?_,?_,?_,?_⟩ <;> simp [Gateway.opened]

namespace Backed
variable {s : TypeQueueState} {slots : List Message}

theorem length_eq (h : Backed s slots) : slots.length = s.queue.length := by
  simpa using congrArg List.length h.types

theorem occupied_eq (h : Backed s slots) : s.gw.occupied = slots := by
  have hcount : s.gw.occupiedCount = slots.length := h.stores.count_eq
  simpa [Gateway.occupied,hcount] using h.stores.slots_eq

/-- The callback runs only while there is a slot to write. -/
theorem slots_cons (h : Backed s slots) (hp : s.gw.socketEvPending = true) :
    ∃ m rest, slots = m :: rest := by
  cases slots with
  | nil =>
    have hbuf : s.gw.writeBuf = [] := by
      have hle := h.covers
      simp only [List.map_nil,List.sum_nil] at hle
      exact List.length_eq_zero_iff.mp (by omega)
    have hpend := h.pending
    simp [hp,hbuf] at hpend
  | cons m rest => exact ⟨m,rest,rfl⟩

theorem simulatesQueue (h : Backed s slots) : SimulatesQueue s := by
  have hfull : s.gw.pktRingFull = true ↔ s.queue.length = ringSize := by
    simpa [h.length_eq] using h.stores.full_iff
  refine ⟨h.stores.head_lt,h.stores.tail_lt,hfull,by simpa [h.occupied_eq] using h.types,?_,?_⟩
  · intro p
    simpa [Gateway.drops_iff] using hfull
  · intro now r he _ hnil
    have hp : s.gw.socketEvPending = true := by
      cases r with
      | wrote k => exact he.1
      | eagain => exact he
      | error => exact he.elim
    obtain ⟨m,rest,rfl⟩ := h.slots_cons hp
    simpa [hnil] using h.length_eq

theorem enqueue (h : Backed s slots) (p : OutPacket) :
    ∃ slots', Backed (s.step (.enqueue p)) slots' := by
  cases hf : s.gw.pktRingFull with
  | true =>
    have hlen : s.queue.length = ringSize := by simpa [h.length_eq] using h.stores.full_iff.mp hf
    refine ⟨slots,?_,?_,h.pos,?_,?_⟩
    · simpa [TypeQueueState.step,Gateway.enqueuePacket,hf] using h.stores
    · simpa [TypeQueueState.step,push_of_full hlen] using h.types
    · simpa [TypeQueueState.step,Gateway.enqueuePacket,hf] using h.covers
    · simpa [TypeQueueState.step,Gateway.enqueuePacket,hf] using h.pending
  | false =>
    have hlen : s.queue.length < ringSize := by simpa [h.length_eq] using h.stores.length_lt hf
    have hbytes : p.bytes ≠ [] := by
      have hkept := (Gateway.drops_iff s.gw p).not.mpr (by simp [hf])
      simpa [Gateway.Drops,Gateway.enqueuePacket,hf] using hkept
    refine ⟨slots ++ [⟨some p.info.type,(headerSize + p.info.size : ℕ)⟩],?_,?_,?_,?_,?_⟩
    · simp only [TypeQueueState.step,Gateway.enqueuePacket,hf,Bool.false_eq_true,↓reduceIte]
      exact h.stores.push hf _
    · simp [TypeQueueState.step,push_of_lt hlen,h.types]
    · intro m hm
      rcases List.mem_append.mp hm with hm | hm
      · exact h.pos m hm
      · simp [List.mem_singleton.mp hm,headerSize]
        omega
    · have hle := h.covers
      simp only [TypeQueueState.step,Gateway.enqueuePacket,hf,Bool.false_eq_true,↓reduceIte,
        List.length_append,p.bytes_length,List.map_append,List.sum_append,List.map_singleton,
        List.sum_singleton]
      omega
    · simp [TypeQueueState.step,Gateway.enqueuePacket,hf,hbytes]

/-- What the callback does to the slot at the tail, once its new size is known. -/
theorem write (h : Backed s slots) (now : Time) {r : WriteResult} {m : Message}
    {rest : List Message} (hp : s.gw.socketEvPending = true) (hslots : slots = m :: rest)
    (hsize : 0 ≤ m.size - r.nbytes)
    (hleft : ((s.gw.writeBuf.drop r.removed).length : ℤ) ≤
      m.size - r.nbytes + (rest.map Message.size).sum) :
    ∃ slots', Backed (s.step (.write now r)) slots' := by
  subst hslots
  have hfirst : s.gw.pktRing s.gw.pktRingTail = m := h.stores.first
  have hpend : (if (s.gw.writeBuf.drop r.removed).isEmpty then false else s.gw.socketEvPending) =
      !(s.gw.writeBuf.drop r.removed).isEmpty := by
    cases (s.gw.writeBuf.drop r.removed).isEmpty <;> simp [hp]
  obtain ⟨t,ts,hqueue⟩ : ∃ t ts, s.queue = t :: ts := by
    apply List.exists_cons_of_ne_nil
    intro hnil
    simpa [hnil] using h.length_eq
  have htypes := h.types
  simp only [hqueue,List.map_cons,List.cons.injEq] at htypes
  by_cases hdone : m.size - r.nbytes = 0
  · refine ⟨rest,?_,?_,fun a ha => h.pos a (List.mem_cons_of_mem _ ha),?_,?_⟩
    · simpa only [TypeQueueState.step,Gateway.written,hfirst,hdone,↓reduceIte,incRingIndex] using
        h.stores.pop _
    · simpa [TypeQueueState.step,Gateway.Completes,Gateway.toWrite,hfirst,hdone,hqueue] using htypes.2
    · simp only [hdone,zero_add] at hleft
      exact hleft
    · exact hpend
  · refine ⟨⟨m.type,m.size - r.nbytes⟩ :: rest,?_,?_,?_,?_,?_⟩
    · simpa only [TypeQueueState.step,Gateway.written,hfirst,hdone,↓reduceIte] using
        h.stores.replaceFirst _
    · simpa [TypeQueueState.step,Gateway.Completes,Gateway.toWrite,hfirst,hdone,hqueue] using htypes
    · intro a ha
      rcases List.mem_cons.mp ha with rfl | ha
      · exact lt_of_le_of_ne hsize (Ne.symm hdone)
      · exact h.pos a (List.mem_cons_of_mem _ ha)
    · exact hleft
    · exact hpend

theorem step (h : Backed s slots) {e : QueueEvent} (he : e.Enabled s.gw) :
    ∃ slots', Backed (s.step e) slots' := by
  cases e with
  | enqueue p => exact h.enqueue p
  | write now r =>
    have hle := h.covers
    cases r with
    | wrote k =>
      obtain ⟨hp,hk,hbuf⟩ := he
      obtain ⟨m,rest,rfl⟩ := h.slots_cons hp
      have hfirst : s.gw.toWrite = m.size := congrArg Message.size h.stores.first
      simp only [List.map_cons,List.sum_cons] at hle
      apply h.write now hp rfl
      · simp only [WriteResult.nbytes]
        omega
      · simp only [WriteResult.nbytes,WriteResult.removed,List.length_drop]
        omega
    | eagain =>
      obtain ⟨m,rest,rfl⟩ := h.slots_cons he
      have hpos := h.pos m List.mem_cons_self
      simp only [List.map_cons,List.sum_cons] at hle
      apply h.write now he rfl
      · simp only [WriteResult.nbytes]
        omega
      · simp only [WriteResult.nbytes,WriteResult.removed,List.drop_zero]
        omega
    | error => exact he.elim

end Backed

/-- Whatever the results of the writes, the ring of a fresh gateway behaves as a queue of
capacity sixteen all along a run. -/
theorem ring_simulates_queue (peer : SockAddr) (site : Addr) (t : Time) (es : List QueueEvent)
    (hl : typeQueueSystem.Legal ⟨Gateway.opened peer site t,[]⟩ es) :
    typeQueueSystem.Always SimulatesQueue ⟨Gateway.opened peer site t,[]⟩ es := by
  have hbacked : typeQueueSystem.Always (fun s => ∃ slots, Backed s slots)
      ⟨Gateway.opened peer site t,[]⟩ es := by
    refine hl.always ?_ ⟨[],backed_opened peer site t⟩
    rintro s e ⟨slots,h⟩ he
    exact h.step he
  refine hbacked.mono ?_
  rintro s ⟨slots,h⟩
  exact h.simulatesQueue

/-- A write that would block, a short one, and the write of the byte too many that the
slot then asks for. -/
theorem ring_simulates_queue_after_eagain :
    typeQueueSystem.Legal ⟨Gateway.opened [] (Vector.replicate 6 0) 0,[]⟩
      [.enqueue getLightStatePacket,.enqueue getLightStatePacket,.write 5 .eagain,
        .write 6 (.wrote 0),.write 7 (.wrote 37),.write 8 (.wrote 35)] ∧
    typeQueueSystem.Always SimulatesQueue ⟨Gateway.opened [] (Vector.replicate 6 0) 0,[]⟩
      [.enqueue getLightStatePacket,.enqueue getLightStatePacket,.write 5 .eagain,
        .write 6 (.wrote 0),.write 7 (.wrote 37),.write 8 (.wrote 35)] := by
  have hl : typeQueueSystem.Legal ⟨Gateway.opened [] (Vector.replicate 6 0) 0,[]⟩
      [.enqueue getLightStatePacket,.enqueue getLightStatePacket,.write 5 .eagain,
        .write 6 (.wrote 0),.write 7 (.wrote 37),.write 8 (.wrote 35)] :=
    ⟨trivial,trivial,rfl,⟨rfl,by decide,by decide⟩,⟨rfl,by decide,by decide⟩,
      ⟨rfl,by decide,by decide⟩,trivial⟩
  exact ⟨hl,ring_simulates_queue _ _ _ _ hl⟩

end Lightsd.Lifx
