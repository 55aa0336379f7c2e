import Lightsd.Lifx.PacketRing
import Lightsd.Library.ChunkQueue
import Lightsd.Library.Runs

/-! # Byte accounting of the packet ring

Beside the gateway runs the queue of the packets it has accepted, each with the
bytes of it that are still in the write buffer. That queue is moved only by what
was accepted and by how many bytes left the buffer, never by the ring. The ring
agrees with it as long as no write reports `EAGAIN`: the callback subtracts the
returned minus one from the slot, and the slot is then one byte too large.
-/
namespace Lightsd.Lifx
open RingWindow ChunkQueue Runs

/-- Accepted packets that are not written completely, oldest first, with the bytes
of each still in the write buffer. -/
abbrev Outstanding := List (PacketType × List UInt8)

structure QueueState where
  gw : Gateway
  outstanding : Outstanding

inductive QueueEvent
  | enqueue (p : OutPacket)
  | write (now : Time) (r : WriteResult)

/-- The callback runs only while the socket event is pending; a successful write
takes at most what was asked for and at most what the buffer holds. -/
def QueueEvent.Enabled (g : Gateway) : QueueEvent → Prop
  | enqueue _ => True
  | write _ (.wrote k) => g.socketEvPending ∧ (k : ℤ) ≤ g.toWrite ∧ k ≤ g.writeBuf.length
  | write _ .eagain => g.socketEvPending
  | write _ .error => False

def QueueState.step (s : QueueState) : QueueEvent → QueueState
  | .enqueue p => ⟨s.gw.enqueuePacket p,
      if s.gw.pktRingFull then s.outstanding else s.outstanding ++ [(p.info.type,p.bytes)]⟩
  | .write now r => ⟨s.gw.written now r,advance r.removed s.outstanding⟩

def queueSystem : System QueueState QueueEvent where
  enabled s e := e.Enabled s.gw
  step := QueueState.step

/-- The ring accounts for the buffer: each occupied slot records what is left of
its packet, the slots add up to the buffer, and the next write asks for no byte
beyond the oldest packet. -/
structure Accounted (s : QueueState) : Prop where
  sizes : s.gw.occupied.map Message.size = s.outstanding.map (fun p => (p.2.length : ℤ))
  total : (s.gw.occupied.map Message.size).sum = s.gw.writeBuf.length
  buffer : s.gw.writeBuf = contents s.outstanding
  asked : ∀ p ∈ s.outstanding.head?, s.gw.toWrite ≤ p.2.length

def messageOf (p : PacketType × List UInt8) : Message := ⟨some p.1,p.2.length⟩

/-- The ring holds the outstanding packets, in order and with their lengths. -/
structure RingInv (s : QueueState) : Prop where
  tail_lt : s.gw.pktRingTail < ringSize
  length_le : s.outstanding.length ≤ ringSize
  head_eq : s.gw.pktRingHead = (s.gw.pktRingTail + s.outstanding.length) % ringSize
  full_eq : s.gw.pktRingFull = decide (s.outstanding.length = ringSize)
  slots : window s.gw.pktRing ringSize s.gw.pktRingTail s.outstanding.length =
    s.outstanding.map messageOf
  buffer : s.gw.writeBuf = contents s.outstanding
  nonempty : ∀ p ∈ s.outstanding, p.2 ≠ []
  pending : s.gw.socketEvPending = !s.gw.writeBuf.isEmpty

theorem ringInv_opened (peer : SockAddr) (site : Addr) (t : Time) :
    RingInv ⟨Gateway.opened peer site t,[]⟩ := by
  constructor <;> simp [Gateway.opened,ringSize]

theorem RingInv.occupiedCount_eq {s : QueueState} (h : RingInv s) :
    s.gw.occupiedCount = s.outstanding.length := by
  have hlen := h.length_le
  have htail := h.tail_lt
  unfold Gateway.occupiedCount
  rw [h.full_eq,h.head_eq]
  by_cases hf : s.outstanding.length = ringSize
  · simp [hf]
  · simp only [hf,decide_false,Bool.false_eq_true,↓reduceIte]
    simp only [ringSize] at *
    omega

theorem RingInv.occupied_eq {s : QueueState} (h : RingInv s) :
    s.gw.occupied = s.outstanding.map messageOf := by
  rw [Gateway.occupied,h.occupiedCount_eq,h.slots]

theorem sum_lengths (q : Outstanding) :
    (q.map (fun p => (p.2.length : ℤ))).sum = (contents q).length := by
  induction q with
  | nil => simp
  | cons p q ih => simp [ih]

/-- With packets outstanding the callback asks for what is left of the oldest. -/
theorem RingInv.toWrite_eq {s : QueueState} (h : RingInv s) {p : PacketType × List UInt8}
    {q : Outstanding} (hq : s.outstanding = p :: q) :
    s.gw.pktRing s.gw.pktRingTail = messageOf p := by
  have hs := h.slots
  rw [hq,List.length_cons,window_cons,List.map_cons] at hs
  rw [Nat.mod_eq_of_lt h.tail_lt] at hs
  exact (List.cons.inj hs).1

theorem RingInv.accounted {s : QueueState} (h : RingInv s) : Accounted s := by
  have hsizes : s.gw.occupied.map Message.size = s.outstanding.map (fun p => (p.2.length : ℤ)) := by
    rw [h.occupied_eq,List.map_map]
    rfl
  refine ⟨hsizes,?_,h.buffer,?_⟩
  · rw [hsizes,sum_lengths,h.buffer]
  · intro p hp
    cases hq : s.outstanding with
    | nil => simp [hq] at hp
    | cons r q =>
      simp only [hq,List.head?_cons,Option.mem_some_iff] at hp
      subst hp
      rw [Gateway.toWrite,h.toWrite_eq hq]
      exact le_refl _

theorem RingInv.enqueue {s : QueueState} (h : RingInv s) (p : OutPacket) :
    RingInv (s.step (.enqueue p)) := by
  by_cases hf : s.gw.pktRingFull
  · have hg : s.step (.enqueue p) = ⟨s.gw.enqueuePacket p,s.outstanding⟩ := by
      simp [QueueState.step,hf]
    rw [hg]
    constructor <;> simp only [Gateway.enqueuePacket,hf,↓reduceIte]
    · exact h.tail_lt
    · exact h.length_le
    · exact h.head_eq
    · exact hf ▸ h.full_eq
    · exact h.slots
    · exact h.buffer
    · exact h.nonempty
    · exact h.pending
  · have hlt : s.outstanding.length < ringSize := by
      have hne : s.outstanding.length ≠ ringSize := by
        intro he
        exact hf (by rw [h.full_eq]; simpa using he)
      exact lt_of_le_of_ne h.length_le hne
    have htail := h.tail_lt
    have hbytes : p.bytes ≠ [] := by
      intro he
      have hl := p.bytes_length
      rw [he] at hl
      simp [headerSize] at hl
      omega
    simp only [QueueState.step,hf,Bool.false_eq_true,↓reduceIte,Gateway.enqueuePacket]
    constructor
    · exact htail
    · simpa using hlt
    · simp only [List.length_append,List.length_singleton,h.head_eq,incRingIndex]
      simp only [ringSize] at *
      omega
    · simp only [List.length_append,List.length_singleton,h.head_eq,incRingIndex]
      congr 1
      simp only [ringSize] at *
      rw [eq_iff_iff]
      omega
    · simp only [List.length_append,List.length_singleton,h.head_eq,List.map_append]
      rw [window_snoc,window_update_next _ hlt,Function.update_self,h.slots]
      simp [messageOf,p.bytes_length]
    · simp [h.buffer]
    · intro r hr
      rcases List.mem_append.mp hr with hr | hr
      · exact h.nonempty r hr
      · rw [List.mem_singleton.mp hr]
        exact hbytes
    · simp [hbytes]

/-- The queue of outstanding packets is not empty while the callback can run. -/
theorem RingInv.outstanding_cons {s : QueueState} (h : RingInv s) (hp : s.gw.socketEvPending) :
    ∃ p q, s.outstanding = p :: q := by
  cases hq : s.outstanding with
  | nil =>
    have hpend := h.pending
    rw [h.buffer,hq,hp] at hpend
    simp at hpend
  | cons p q => exact ⟨p,q,rfl⟩

/-- A write that takes the whole of the oldest packet frees its slot. -/
theorem RingInv.wrote_all {s : QueueState} (h : RingInv s) (hp : s.gw.socketEvPending) (now : Time)
    {t : PacketType} {c : List UInt8} {q : Outstanding} (hq : s.outstanding = (t,c) :: q) :
    RingInv (s.step (.write now (.wrote c.length))) := by
  have hslot := h.toWrite_eq hq
  have htail := h.tail_lt
  have hlen := h.length_le
  have hhead := h.head_eq
  have hslots := h.slots
  have hrest : ∀ r ∈ q, r.2 ≠ [] := fun r hr => h.nonempty r (by rw [hq]; exact List.mem_cons_of_mem _ hr)
  have hadv : advance c.length s.outstanding = q := by rw [hq]; exact advance_length hrest
  have hbuf : s.gw.writeBuf.drop c.length = contents q := by
    rw [h.buffer,← contents_advance,hadv]
  have hsize : (messageOf (t,c)).size - (c.length : ℤ) = 0 := by simp [messageOf]
  rw [hq,List.length_cons] at hlen hhead hslots
  have hcount : q.length < ringSize := hlen
  rw [window_cons,List.map_cons] at hslots
  simp only [QueueState.step,Gateway.written,WriteResult.nbytes,WriteResult.removed,hslot,hsize,
    hadv,↓reduceIte]
  constructor
  · exact Nat.mod_lt _ (by decide)
  · exact hcount.le
  · simp only [incRingIndex,hhead]
    simp only [ringSize] at *
    omega
  · simp [hcount.ne]
  · simp only [incRingIndex]
    have hupd := @window_update_first _ s.gw.pktRing _ s.gw.pktRingTail _ hcount ⟨none,0⟩
    rw [Nat.mod_eq_of_lt htail,window_cons] at hupd
    rw [window_mod]
    exact (List.cons.inj hupd).2.trans (List.cons.inj hslots).2
  · exact hbuf
  · exact hrest
  · simp only [hp]
    cases s.gw.writeBuf.drop c.length <;> rfl

/-- A shorter write leaves the rest of the oldest packet in its slot. -/
theorem RingInv.wrote_part {s : QueueState} (h : RingInv s) (hp : s.gw.socketEvPending) (now : Time)
    {t : PacketType} {c : List UInt8} {q : Outstanding} (hq : s.outstanding = (t,c) :: q)
    {k : ℕ} (hk : k < c.length) : RingInv (s.step (.write now (.wrote k))) := by
  have hslot := h.toWrite_eq hq
  have htail := h.tail_lt
  have hslots := h.slots
  have hlen := h.length_le
  have hhead := h.head_eq
  have hfull := h.full_eq
  have hadv : advance k s.outstanding = (t,c.drop k) :: q := by rw [hq]; exact advance_lt q hk
  have hbuf : s.gw.writeBuf.drop k = contents ((t,c.drop k) :: q) := by
    rw [h.buffer,← contents_advance,hadv]
  have hsize : (messageOf (t,c)).size - (k : ℤ) = ((c.drop k).length : ℤ) := by
    rw [List.length_drop]
    simp only [messageOf]
    omega
  have hpos : ((c.drop k).length : ℤ) ≠ 0 := by
    rw [List.length_drop]
    omega
  rw [hq,List.length_cons] at hlen hhead hslots hfull
  have hcount : q.length < ringSize := hlen
  rw [window_cons,List.map_cons] at hslots
  simp only [QueueState.step,Gateway.written,WriteResult.nbytes,WriteResult.removed,hslot,hsize,
    hadv,hpos,false_and,↓reduceIte]
  constructor
  · exact htail
  · exact hlen
  · exact hhead
  · exact hfull
  · have hupd := @window_update_first _ s.gw.pktRing _ s.gw.pktRingTail _ hcount
      (messageOf (t,c.drop k))
    rw [Nat.mod_eq_of_lt htail] at hupd
    rw [List.length_cons,List.map_cons]
    exact hupd.trans (congrArg _ (List.cons.inj hslots).2)
  · exact hbuf
  · intro r hr
    rcases List.mem_cons.mp hr with rfl | hr
    · intro he
      have hnil : c.drop k = [] := he
      exact hpos (by simp [hnil])
    · exact h.nonempty r (by rw [hq]; exact List.mem_cons_of_mem _ hr)
  · simp only [hp]
    cases s.gw.writeBuf.drop k <;> rfl

theorem RingInv.wrote {s : QueueState} (h : RingInv s) (now : Time) {k : ℕ}
    (he : (QueueEvent.write now (.wrote k)).Enabled s.gw) :
    RingInv (s.step (.write now (.wrote k))) := by
  obtain ⟨hp,hk,-⟩ := he
  obtain ⟨⟨t,c⟩,q,hq⟩ := h.outstanding_cons hp
  rw [Gateway.toWrite,h.toWrite_eq hq] at hk
  have hkc : k ≤ c.length := by
    simp only [messageOf] at hk
    exact_mod_cast hk
  rcases Nat.lt_or_eq_of_le hkc with hlt | rfl
  · exact h.wrote_part hp now hq hlt
  · exact h.wrote_all hp now hq

/-- A write that would block adds one to the size of the oldest slot, so the ring no
longer accounts for the buffer. -/
theorem RingInv.eagain_not_accounted {s : QueueState} (h : RingInv s) (now : Time)
    (he : (QueueEvent.write now .eagain).Enabled s.gw) :
    ¬ Accounted (s.step (.write now .eagain)) := by
  have hp : s.gw.socketEvPending := he
  obtain ⟨⟨t,c⟩,q,hq⟩ := h.outstanding_cons hp
  have hslot := h.toWrite_eq hq
  have hc : 0 < c.length := List.length_pos_iff.mpr (h.nonempty (t,c) (by rw [hq]; exact List.mem_cons_self))
  have hsize : (messageOf (t,c)).size - (-1) ≠ 0 := by
    simp only [messageOf]
    omega
  intro ha
  have hasked := ha.asked (t,c) (by
    simp only [QueueState.step,WriteResult.removed,hq,advance_lt q hc,List.drop_zero]
    rfl)
  simp only [QueueState.step,Gateway.toWrite,Gateway.written,WriteResult.nbytes,hslot,hsize,
    ↓reduceIte,Function.update_self] at hasked
  simp only [messageOf] at hasked
  omega

/-- The write returned `EAGAIN`. -/
def QueueEvent.Blocked (e : QueueEvent) : Prop := ∃ now, e = .write now .eagain

theorem RingInv.step {s : QueueState} (h : RingInv s) {e : QueueEvent} (he : e.Enabled s.gw)
    (hb : ¬ e.Blocked) : RingInv (s.step e) := by
  cases e with
  | enqueue p => exact h.enqueue p
  | write now r =>
    cases r with
    | wrote k => exact h.wrote now he
    | eagain => exact absurd ⟨now,rfl⟩ hb
    | error => exact he.elim

theorem RingInv.always_accounted_iff {s : QueueState} (h : RingInv s) {es : List QueueEvent}
    (hl : queueSystem.Legal s es) :
    queueSystem.Always Accounted s es ↔ ∀ e ∈ es, ¬ e.Blocked := by
  induction es generalizing s with
  | nil => simpa [System.always_nil] using h.accounted
  | cons e es ih =>
    rw [System.always_cons]
    by_cases hb : e.Blocked
    · have hbad : ¬ Accounted (queueSystem.step s e) := by
        obtain ⟨now,rfl⟩ := hb
        exact h.eagain_not_accounted now hl.1
      constructor
      · intro ha
        exact absurd ha.2.head hbad
      · intro ha
        exact absurd hb (ha e List.mem_cons_self)
    · have hstep : RingInv (queueSystem.step s e) := h.step hl.1 hb
      rw [ih hstep hl.2]
      simp [h.accounted,hb]

/-- The ring of a fresh gateway accounts for its write buffer in every state of a run
exactly when no write of the run would have blocked. -/
theorem ring_accounts_iff (peer : SockAddr) (site : Addr) (t : Time) (es : List QueueEvent)
    (hl : queueSystem.Legal ⟨Gateway.opened peer site t,[]⟩ es) :
    queueSystem.Always Accounted ⟨Gateway.opened peer site t,[]⟩ es ↔ ∀ e ∈ es, ¬ e.Blocked :=
  (ringInv_opened peer site t).always_accounted_iff hl

def getLightStatePacket : OutPacket :=
  ⟨.requestOnly .getLightState 0,setupHeader 1 .site none (.requestOnly .getLightState 0),none,rfl⟩

theorem ring_accounts_full_write :
    queueSystem.Legal ⟨Gateway.opened [] (Vector.replicate 6 0) 0,[]⟩
      [.enqueue getLightStatePacket,.write 5 (.wrote 36)] ∧
    queueSystem.Always Accounted ⟨Gateway.opened [] (Vector.replicate 6 0) 0,[]⟩
      [.enqueue getLightStatePacket,.write 5 (.wrote 36)] := by
  have hl : queueSystem.Legal ⟨Gateway.opened [] (Vector.replicate 6 0) 0,[]⟩
      [.enqueue getLightStatePacket,.write 5 (.wrote 36)] :=
    ⟨trivial,⟨rfl,by decide,by decide⟩,trivial⟩
  refine ⟨hl,(ring_accounts_iff _ _ _ _ hl).mpr ?_⟩
  rintro e he ⟨now,rfl⟩
  simp at he

/-- One packet and one write that would block: the slot asks for 37 bytes of a buffer
of 36. -/
theorem ring_miscounts_after_eagain :
    queueSystem.Legal ⟨Gateway.opened [] (Vector.replicate 6 0) 0,[]⟩
      [.enqueue getLightStatePacket,.write 5 .eagain] ∧
    (queueSystem.exec ⟨Gateway.opened [] (Vector.replicate 6 0) 0,[]⟩
      [.enqueue getLightStatePacket,.write 5 .eagain]).gw.toWrite = 37 ∧
    (queueSystem.exec ⟨Gateway.opened [] (Vector.replicate 6 0) 0,[]⟩
      [.enqueue getLightStatePacket,.write 5 .eagain]).gw.writeBuf.length = 36 ∧
    ¬ queueSystem.Always Accounted ⟨Gateway.opened [] (Vector.replicate 6 0) 0,[]⟩
      [.enqueue getLightStatePacket,.write 5 .eagain] := by
  have hl : queueSystem.Legal ⟨Gateway.opened [] (Vector.replicate 6 0) 0,[]⟩
      [.enqueue getLightStatePacket,.write 5 .eagain] := ⟨trivial,rfl,trivial⟩
  refine ⟨hl,by decide,by decide,?_⟩
  rw [(ringInv_opened _ _ _).always_accounted_iff hl]
  intro h
  exact h _ (List.mem_cons_of_mem _ List.mem_cons_self) ⟨5,rfl⟩

end Lightsd.Lifx
