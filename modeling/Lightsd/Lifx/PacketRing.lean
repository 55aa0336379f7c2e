import Lightsd.Lifx.State
import Lightsd.Library.RingWindow

/-! # The packet ring of a gateway

Packets wait in a byte buffer; a ring of sixteen slots records the type of each
packet and how many of its bytes are still to be written. The write callback asks
for as many bytes as the oldest slot records.
-/
namespace Lightsd.Lifx
open RingWindow

/-- What `evbuffer_write_atmost` reports. -/
inductive WriteResult
  | wrote (k : ℕ)
  | eagain
  | error
  deriving DecidableEq

namespace WriteResult

/-- The returned byte count; errors return minus one. -/
def nbytes : WriteResult → ℤ
  | wrote k => k
  | eagain => -1
  | error => -1

/-- Bytes that left the buffer. -/
def removed : WriteResult → ℕ
  | wrote k => k
  | eagain => 0
  | error => 0

end WriteResult

def incRingIndex (i : ℕ) : ℕ := (i + 1) % ringSize

namespace OutPacket

def bytes (p : OutPacket) : List UInt8 := p.hdr.toBytes ++ p.pkt.getD []

theorem bytes_length (p : OutPacket) : p.bytes.length = headerSize + p.info.size := by
  rw [bytes,List.length_append,Header.toBytes_length,p.sized]

end OutPacket

namespace Gateway

/-- A packet is dropped when the ring is full. -/
def enqueuePacket (g : Gateway) (p : OutPacket) : Gateway :=
  if g.pktRingFull then { g with enqueued := g.enqueued ++ [p] }
  else
    { g with
      writeBuf := g.writeBuf ++ p.bytes
      pktRing := Function.update g.pktRing g.pktRingHead
        ⟨some p.info.type,(headerSize + p.info.size : ℕ)⟩
      pktRingHead := incRingIndex g.pktRingHead
      pktRingFull := decide (incRingIndex g.pktRingHead = g.pktRingTail)
      socketEvPending := true
      enqueued := g.enqueued ++ [p] }

/-- Packets handed over one after the other. -/
def enqueueAll (g : Gateway) (ps : List OutPacket) : Gateway := ps.foldl enqueuePacket g

/-- Those of them that find a free slot. -/
def taken (g : Gateway) : List OutPacket → List OutPacket
  | [] => []
  | p :: ps => if g.pktRingFull then [] else p :: (g.enqueuePacket p).taken ps

/-- A gateway without its bulbs and tags. -/
def queuePart (g : Gateway) : Gateway :=
  { g with bulbs := [], tagIds := 0, tags := fun _ => none, tagRefcounts := fun _ => 0 }

theorem queuePart_enqueuePacket (g : Gateway) (p : OutPacket) :
    (g.enqueuePacket p).queuePart = g.queuePart.enqueuePacket p := by
  cases hfull : g.pktRingFull <;> simp [enqueuePacket,queuePart,hfull]

theorem enqueueAll_append (g : Gateway) (ps ps' : List OutPacket) :
    g.enqueueAll (ps ++ ps') = (g.enqueueAll ps).enqueueAll ps' := List.foldl_append

/-- Any packet is logged, whether the ring has room for it or not. -/
theorem enqueued_enqueuePacket (g : Gateway) (p : OutPacket) :
    (g.enqueuePacket p).enqueued = g.enqueued ++ [p] := by
  unfold enqueuePacket
  split <;> rfl

theorem enqueued_enqueueAll (g : Gateway) (ps : List OutPacket) :
    (g.enqueueAll ps).enqueued = g.enqueued ++ ps := by
  induction ps generalizing g with
  | nil => exact (List.append_nil _).symm
  | cons p ps ih => rw [enqueueAll,List.foldl_cons,← enqueueAll,ih,enqueued_enqueuePacket,List.append_assoc]; rfl

section Taken
variable {g : Gateway}

theorem enqueuePacket_full (hfull : g.pktRingFull = true) (p : OutPacket) :
    (g.enqueuePacket p).pktRingFull = true ∧ (g.enqueuePacket p).writeBuf = g.writeBuf := by
  simp [enqueuePacket,hfull]

theorem taken_full (hfull : g.pktRingFull = true) (ps : List OutPacket) : g.taken ps = [] := by
  cases ps <;> simp [taken,hfull]

end Taken

/-- What the buffer holds after packets were handed over. -/
theorem writeBuf_enqueueAll (g : Gateway) (ps : List OutPacket) :
    (g.enqueueAll ps).writeBuf = g.writeBuf ++ (g.taken ps).flatMap OutPacket.bytes := by
  induction ps generalizing g with
  | nil => simp [enqueueAll,taken]
  | cons p ps ih =>
    rw [enqueueAll,List.foldl_cons,← enqueueAll,ih]
    cases hfull : g.pktRingFull with
    | true =>
      obtain ⟨hstill,hbuf⟩ := enqueuePacket_full hfull p
      rw [taken_full hstill,taken_full hfull,hbuf]
    | false =>
      have hbuf : (g.enqueuePacket p).writeBuf = g.writeBuf ++ p.bytes := by simp [enqueuePacket,hfull]
      simp [taken,hfull,hbuf]

/-- Bulbs and tags have no say in which packets are taken. -/
theorem taken_queuePart (g : Gateway) (ps : List OutPacket) : g.queuePart.taken ps = g.taken ps := by
  induction ps generalizing g with
  | nil => rfl
  | cons p ps ih =>
    rw [taken,taken,← queuePart_enqueuePacket,ih]
    rfl

/-- Bytes the write callback asks for. -/
def toWrite (g : Gateway) : ℤ := (g.pktRing g.pktRingTail).size

/-- The `EV_WRITE` part of the socket callback, for a result it tolerates. -/
def written (g : Gateway) (now : Time) (r : WriteResult) : Gateway :=
  let slot := g.pktRing g.pktRingTail
  let size := slot.size - r.nbytes
  let buf := g.writeBuf.drop r.removed
  let done := size = 0
  { g with
    writeBuf := buf
    lastReqAt := g.nextReqAt
    nextReqAt := now
    pktRing := Function.update g.pktRing g.pktRingTail
      ⟨if done then none else slot.type,size⟩
    pktRingTail := if done then incRingIndex g.pktRingTail else g.pktRingTail
    pktRingFull := if done then false else g.pktRingFull
    pendingRefreshReq :=
      if done ∧ slot.type = some .getTagLabels then false else g.pendingRefreshReq
    socketEvPending := if buf.isEmpty then false else g.socketEvPending }

/-- The `EV_WRITE` part of the socket callback. There is no gateway left when the
write fails with anything but `EAGAIN`. -/
def writeEvent (g : Gateway) (now : Time) : WriteResult → Option Gateway
  | .error => none
  | r => some (g.written now r)

/-- The number of slots from the tail up to the head. -/
def occupiedCount (g : Gateway) : ℕ :=
  if g.pktRingFull then ringSize else (g.pktRingHead + ringSize - g.pktRingTail) % ringSize

/-- The occupied slots, oldest first. -/
def occupied (g : Gateway) : List Message :=
  window g.pktRing ringSize g.pktRingTail g.occupiedCount

/-- A gateway as `lgtd_lifx_gateway_open` leaves it. -/
def opened (peer : SockAddr) (site : Addr) (receivedAt : Time) : Gateway :=
  { peer := peer
    site := site
    lastReqAt := receivedAt
    nextReqAt := receivedAt
    lastPktAt := receivedAt }

end Gateway
end Lightsd.Lifx
