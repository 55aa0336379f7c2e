import Lightsd.Lifx.Receive

/-! # Received datagrams

What the checks on a datagram give, and which gateway it is handled for. A light status
is told by its handler, which no other row of the packet table has.
-/
namespace Lightsd.Lifx

theorem handle_panGateway {info : PacketInfo} (h : getPacketInfo PacketType.panGateway.code = some info) :
    info.handle = .panGateway := by
  have hinfo : getPacketInfo PacketType.panGateway.code =
      some ⟨.panGateway,5,.panGateway,.panGateway⟩ := by decide +kernel
  rw [hinfo,Option.some_inj] at h
  rw [← h]

/-- The decoder clears the last byte of a label. -/
theorem label_decodeTagLabels (b : Buffer) :
    (cString (decodeTagLabels b).label.toList).length < labelSize := by
  have hlen : (decodeTagLabels b).label.toList.length = labelSize := Vector.length_toList
  have hlast : (decodeTagLabels b).label.toList[31]? = some 0 := by
    simp [decodeTagLabels]
  have hle := List.takeWhile_prefix (· ≠ 0) (l := (decodeTagLabels b).label.toList)
  generalize (decodeTagLabels b).label.toList = l at hlen hlast hle
  by_contra hlong
  have heq : cString l = l := hle.eq_of_length (le_antisymm hle.length_le (by
    rw [hlen]
    exact not_lt.mp hlong))
  have hmem : (0 : UInt8) ∈ cString l := by
    rw [heq]
    exact List.mem_of_getElem? hlast
  have hne := List.mem_takeWhile_imp hmem
  simp at hne

/-- The datagram passes the checks and is a light status. -/
def Datagram.isLightStatus (dg : Datagram) : Bool :=
  match dg.receive with
  | .packet info _ => info.handle = .lightStatus
  | _ => false

/-- The device a datagram is about. -/
def Datagram.device (dg : Datagram) : Addr := (decodeHeader dg.buffer).deviceAddr

def Datagram.reportedPower (dg : Datagram) : UInt16 :=
  (decodeLightStatus (dg.buffer.drop headerSize)).power

theorem Datagram.receive_packet {dg : Datagram} {info : PacketInfo} {hdr : Header}
    (h : dg.receive = .packet info hdr) :
    hdr = decodeHeader dg.buffer ∧ getPacketInfo hdr.packetType = some info := by
  unfold Datagram.receive at h
  simp only at h
  split at h
  · cases h
  · split at h
    · cases h
    · split at h
      · cases h
      · split at h
        · cases h
        · rename_i info' hinfo
          split at h
          · cases h
          · cases h
            exact ⟨rfl,hinfo⟩

theorem Datagram.exists_lightStatus {dg : Datagram} (h : dg.isLightStatus = true) :
    ∃ info hdr, dg.receive = .packet info hdr ∧ info.handle = .lightStatus ∧
      hdr = decodeHeader dg.buffer ∧ hdr.packetType ≠ PacketType.panGateway.code := by
  unfold isLightStatus at h
  cases hr : dg.receive with
  | error => simp [hr] at h
  | ignored => simp [hr] at h
  | packet info hdr =>
    obtain ⟨hhdr,hinfo⟩ := receive_packet hr
    have hhandle : info.handle = .lightStatus := by simpa [hr] using h
    refine ⟨info,hdr,rfl,hhandle,hhdr,?_⟩
    intro hcode
    have hpan := handle_panGateway (hcode ▸ hinfo)
    cases hhandle.symm.trans hpan

namespace Daemon

/-- The gateway a packet goes to: the one whose socket it came on, or the one with the
peer's address. -/
def receiver (d : Daemon) (gw : Option GatewayRef) (peer : SockAddr) : Option GatewayRef :=
  match gw with
  | some g => some g
  | none => d.gatewayGet peer

end Daemon
end Lightsd.Lifx
