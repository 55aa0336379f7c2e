import Lightsd.Lifx.Datagrams
import Lightsd.Library.ByteOrder

/-! # What is left in the receive buffer

A datagram is stored over what the receive buffer held before, and the checks made on it
relate its size to the size it declares, not to the structure that its handler reads. A
handler gets the bytes received after the header, completed with old bytes of the buffer.
How far it reads, and so how many bytes have to be received for the old ones not to
matter, depends on the handler only.
-/
namespace Lightsd.Lifx

open ByteOrder

/-- Bytes stored over what was there before. -/
def fill (bytes : List UInt8) (rest : Buffer) : Buffer := fun i => bytes.getD i (rest i)

/-- The same datagram, received over other contents of the buffer. -/
def Datagram.withStale (dg : Datagram) (stale : Buffer) : Datagram := { dg with stale := stale }

/-- The header of a datagram that is long enough to have one. -/
def Datagram.header (dg : Datagram) : Header := decodeHeader (fill dg.bytes (fun _ => 0))

/-- The checks on a datagram, in terms of its own bytes. -/
structure Datagram.Accepted (dg : Datagram) (info : PacketInfo) : Prop where
  hasHeader : headerSize ≤ dg.bytes.length
  size : dg.header.size.toNat = dg.bytes.length
  notDiscovery : dg.header.packetType ≠ PacketType.getPanGateway.code
  known : getPacketInfo dg.header.packetType = some info
  addressable : dg.header.protocol &&& protocolAddressable ≠ 0

/-- How many bytes of the payload a handler reads. The last byte of the label of a tag is
overwritten before it is read. -/
def Handler.extent : Handler → ℕ
  | .null | .enosys | .panGateway => 0
  | .lightStatus => 52
  | .powerState => 2
  | .tagLabels => 39
  | .tags => 8
  | .ipState => 14
  | .ipFirmwareInfo => 20
  | .productInfo => 12
  | .runtimeInfo => 24
  | .bulbLabel => 32
  | .ambientLight => 4

/-- A tag id that a tag mask may have that begins with the given bytes. -/
def Nameable (payload : List UInt8) (id : ℕ) : Prop :=
  id < 64 ∧ (8 * payload.length ≤ id ∨ ((fill payload (fun _ => 0)).mask 0).getLsbD id = true)

/-- The received bytes settle what a handler does. That is so when it reads no others. A
short power state that cannot be full power is off whatever follows. For tag labels, the
label may end early, or it does not matter as nothing is to be done about any tag id that
the mask may have. -/
def Gateway.Suffices (gw : Gateway) (payload : List UInt8) : Handler → Prop
  | .powerState => 2 ≤ payload.length ∨ ∃ x, payload = [x] ∧ x ≠ 255
  | .tagLabels =>
    39 ≤ payload.length ∨ 0 ∈ payload.drop 8 ∨
    (payload.drop 8 ≠ [] ∧ ∀ id, Nameable payload id → hasTagId gw.tagIds id = true) ∨
    ∀ id, Nameable payload id → hasTagId gw.tagIds id = true ∧ gw.tags id = none
  | handler => handler.extent ≤ payload.length

/-- Whenever a datagram is handed to a handler, its bytes settle what the handler does. -/
def Daemon.Covered (d : Daemon) (gw : Option GatewayRef) (dg : Datagram) : Prop :=
  ∀ info g, dg.Accepted info → d.receiver gw dg.peer = some g →
    (d.gw g).Suffices (dg.bytes.drop headerSize) info.handle

theorem fill_of_lt {bytes : List UInt8} {i : ℕ} (h : i < bytes.length) (rest : Buffer) :
    fill bytes rest i = bytes[i] := by simp [fill,h]

theorem fill_of_le {bytes : List UInt8} {i : ℕ} (h : bytes.length ≤ i) (rest : Buffer) :
    fill bytes rest i = rest i := by simp [fill,h]

theorem drop_fill (bytes : List UInt8) (rest : Buffer) (n : ℕ) :
    (fill bytes rest).drop n = fill (bytes.drop n) (rest.drop n) := by
  funext i
  simp [Buffer.drop,fill,List.getD_eq_getElem?_getD]

/-- The first bytes of two buffers are the same. -/
def Agree (n : ℕ) (b b' : Buffer) : Prop := ∀ i, i < n → b i = b' i

theorem agree_fill (bytes : List UInt8) (rest rest' : Buffer) :
    Agree bytes.length (fill bytes rest) (fill bytes rest') := by
  intro i hi
  rw [fill_of_lt hi,fill_of_lt hi]

namespace Agree

variable {n m : ℕ} {b b' : Buffer} (h : Agree n b b')
include h

theorem mono (hm : m ≤ n) : Agree m b b' := fun i hi => h i (by omega)

theorem window {o k : ℕ} (hk : o + k ≤ n) : b.window o k = b'.window o k := by
  apply List.map_congr_left
  intro i hi
  exact h _ (by have := List.mem_range.mp hi; omega)

theorem le {o k : ℕ} (hk : o + k ≤ n) : b.le o k = b'.le o k := by simp only [Buffer.le,h.window hk]

theorem le16 {o : ℕ} (ho : o + 2 ≤ n) : b.le16 o = b'.le16 o := by simp only [Buffer.le16,h.le ho]

theorem le32 {o : ℕ} (ho : o + 4 ≤ n) : b.le32 o = b'.le32 o := by simp only [Buffer.le32,h.le ho]

theorem le64 {o : ℕ} (ho : o + 8 ≤ n) : b.le64 o = b'.le64 o := by simp only [Buffer.le64,h.le ho]

theorem mask {o : ℕ} (ho : o + 8 ≤ n) : b.mask o = b'.mask o := by simp only [Buffer.mask,h.le ho]

theorem vector {o k : ℕ} (hk : o + k ≤ n) : b.vector o k = b'.vector o k := by
  apply Vector.ext
  intro i hi
  simpa [Buffer.vector] using h (o + i) (by omega)

theorem decodeHeader (hn : headerSize ≤ n) : decodeHeader b = decodeHeader b' := by
  simp only [headerSize] at hn
  simp only [Lifx.decodeHeader,h.le16 (o := 0) (by omega),h.le16 (o := 2) (by omega),
    h.le16 (o := 32) (by omega),h.le32 (o := 4) (by omega),h.le64 (o := 24) (by omega),
    h.vector (o := 8) (k := 8) (by omega),h.vector (o := 16) (k := 6) (by omega),
    h 22 (by omega),h 23 (by omega)]

end Agree

namespace Datagram

variable {dg : Datagram} {stale : Buffer}

theorem header_withStale (h : headerSize ≤ dg.bytes.length) (stale : Buffer) :
    decodeHeader (dg.withStale stale).buffer = dg.header :=
  (agree_fill dg.bytes stale (fun _ => 0)).decodeHeader h

theorem receive_withStale {info : PacketInfo} (h : dg.Accepted info) (stale : Buffer) :
    (dg.withStale stale).receive = .packet info dg.header := by
  have hlen : ¬ (dg.withStale stale).bytes.length < headerSize := not_lt.mpr h.hasHeader
  have hsize : ¬ dg.header.size.toNat ≠ (dg.withStale stale).bytes.length := not_not.mpr h.size
  unfold receive
  simp only [header_withStale h.hasHeader stale,if_neg hlen,if_neg hsize,if_neg h.notDiscovery,h.known,
    if_neg h.addressable]

theorem receive_discarded (h : ∀ info, ¬ dg.Accepted info) :
    (∀ stale, (dg.withStale stale).receive = .error) ∨
      ∀ stale, (dg.withStale stale).receive = .ignored := by
  by_cases hlen : dg.bytes.length < headerSize
  · left
    intro stale
    simp [receive,withStale,hlen]
  have hheader : headerSize ≤ dg.bytes.length := by omega
  have hlen' : ∀ stale, ¬ (dg.withStale stale).bytes.length < headerSize := fun _ => hlen
  by_cases hsize : dg.header.size.toNat = dg.bytes.length
  · right
    intro stale
    have hsize' : ¬ dg.header.size.toNat ≠ (dg.withStale stale).bytes.length := not_not.mpr hsize
    unfold receive
    simp only [header_withStale hheader stale,if_neg (hlen' stale),if_neg hsize']
    split
    · rfl
    · rename_i htype
      cases hinfo : getPacketInfo dg.header.packetType with
      | none => rfl
      | some info =>
        by_cases haddr : dg.header.protocol &&& protocolAddressable = 0
        · simp only [if_pos haddr]
        · exact absurd ⟨hheader,hsize,htype,hinfo,haddr⟩ (h info)
  · left
    intro stale
    have hsize' : dg.header.size.toNat ≠ (dg.withStale stale).bytes.length := hsize
    unfold receive
    simp only [header_withStale hheader stale,if_neg (hlen' stale),if_pos hsize']

end Datagram
end Lightsd.Lifx
