import Lightsd.Library.ByteOrder
import Lightsd.Lifx.BulbRecords

/-! # What is sent while tags change hands

The queues of the gateways and what the headers of packets are made of. The functions that
change the registry of tags hand no packet over. Of the packets handed over, those enter the
ring of a gateway that find a free slot, in order, and the others are dropped.
-/
namespace Lightsd.Lifx.Daemon

open Lightsd.Core

/-- The client id of the daemon, and each gateway without its bulbs and tags. -/
def outbox (d : Daemon) : UInt32 × (GatewayRef → Gateway) := (d.clientId,fun g => (d.gw g).queuePart)

/-- What was handed to the queue of a gateway since an earlier state, packets that a full ring
drops included. -/
def newPackets (d d' : Daemon) (g : GatewayRef) : List OutPacket :=
  (d'.gw g).enqueued.drop (d.gw g).enqueued.length

/-- The packets among them that entered the ring of the gateway, if nothing was written to the
socket in between. -/
def sentPackets (d d' : Daemon) (g : GatewayRef) : List OutPacket := (d.gw g).taken (newPackets d d' g)

theorem outbox_modifyGw {d : Daemon} {g : GatewayRef} {f : Gateway → Gateway}
    (h : (f (d.gw g)).queuePart = (d.gw g).queuePart) : (d.modifyGw g f).outbox = d.outbox := by
  have hkeep := update_keeps Gateway.queuePart h
  simpa [outbox,modifyGw] using hkeep

theorem outbox_tags : TagRule Set.univ (fun d d' => d'.outbox = d.outbox) where
  refl := fun _ => rfl
  trans := fun h h' => h'.trans h
  shortLabel := fun d label _ => by
    unfold check
    split <;> rfl
  fault := fun _ _ _ _ => rfl
  registry := fun _ _ _ _ => rfl
  setTag := fun _ _ _ _ => outbox_modifyGw rfl
  clearTag := fun _ _ _ => outbox_modifyGw rfl

/-- The packets were handed to the queue of a gateway in between, one after the other. -/
def Queued (d d' : Daemon) (g : GatewayRef) (ps : List OutPacket) : Prop :=
  (d'.gw g).queuePart = (d.gw g).queuePart.enqueueAll ps

namespace Queued
variable {d d' d'' : Daemon} {g : GatewayRef} {ps ps' : List OutPacket}

theorem of_outbox (h : d'.outbox = d.outbox) (g : GatewayRef) : Queued d d' g [] :=
  congrFun (congrArg Prod.snd h) g

theorem trans (h : Queued d d' g ps) (h' : Queued d' d'' g ps') : Queued d d'' g (ps ++ ps') := by
  rw [Queued,h',h,Gateway.enqueueAll_append]

theorem newPackets_eq (h : Queued d d' g ps) : newPackets d d' g = ps := by
  have hlog : (d'.gw g).enqueued = (d.gw g).enqueued ++ ps :=
    (congrArg Gateway.enqueued h).trans (Gateway.enqueued_enqueueAll _ ps)
  simp [newPackets,hlog]

theorem sentPackets_eq (h : Queued d d' g ps) : sentPackets d d' g = (d.gw g).taken ps := by
  rw [sentPackets,h.newPackets_eq]

/-- The bytes of the packets that found a free slot are what the buffer of the gateway gets. -/
theorem writeBuf (h : Queued d d' g ps) :
    (d'.gw g).writeBuf = (d.gw g).writeBuf ++ (sentPackets d d' g).flatMap OutPacket.bytes := by
  have hbuf : (d'.gw g).writeBuf = (d.gw g).writeBuf ++ ((d.gw g).queuePart.taken ps).flatMap OutPacket.bytes :=
    (congrArg Gateway.writeBuf h).trans (Gateway.writeBuf_enqueueAll _ ps)
  rw [hbuf,Gateway.taken_queuePart,h.sentPackets_eq]

end Queued

theorem newPackets_of_append {d d' : Daemon} {g : GatewayRef} {l : List OutPacket}
    (h : (d'.gw g).enqueued = (d.gw g).enqueued ++ l) : newPackets d d' g = l := by
  simp [newPackets,h]

/-- Handing over a packet. -/
theorem queued_enqueue (d : Daemon) (g g' : GatewayRef) (target : Target) (req : Request) :
    Queued d (d.enqueue g target req) g'
      (if g' = g then [req.packet d.clientId target (d.gw g).site] else []) := by
  by_cases hg : g' = g
  · subst hg
    simp [Queued,enqueue,modifyGw,Gateway.queuePart_enqueuePacket,Gateway.enqueueAll]
  · simp [Queued,enqueue,modifyGw,Gateway.enqueueAll,hg]

theorem site_enqueue (d : Daemon) (g g' : GatewayRef) (target : Target) (req : Request) :
    ((d.enqueue g target req).gw g').site = (d.gw g').site := by
  by_cases hg : g' = g
  · subst hg
    simp only [enqueue,modifyGw,Function.update_self]
    unfold Gateway.enqueuePacket
    split <;> rfl
  · simp [enqueue,modifyGw,hg]

/-- The bytes of a mask tell the mask. -/
theorem bytes_mask_inj {m m' : TagMask} (h : ByteOrder.bytes 8 m.toNat = ByteOrder.bytes 8 m'.toNat) : m = m' := by
  have hbytes : ∀ m : TagMask, ByteOrder.value (ByteOrder.bytes 8 m.toNat) = m.toNat :=
    fun m => ByteOrder.value_bytes m.isLt
  have hvalue := congrArg ByteOrder.value h
  rw [hbytes,hbytes] at hvalue
  exact BitVec.eq_of_toNat_eq hvalue

/-- A packet that sets the tags of a bulb. -/
def setTagsPacket (d : Daemon) (b : BulbRef) (mask : TagMask) : OutPacket :=
  (Request.setTags mask).packet d.clientId (.device (d.bulb b).addr) (d.gw (d.bulb b).gw).site

end Lightsd.Lifx.Daemon
