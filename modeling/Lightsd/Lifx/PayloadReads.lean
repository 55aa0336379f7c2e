import Lightsd.Lifx.ReceiveBuffer
import Lightsd.Lifx.PowerConfirmation

/-! # How far the handlers read

No handler reads past its extent. For the handlers that fill in a record of a bulb this is
sharp: the last byte they read can be told from the record they leave behind.
-/
namespace Lightsd.Lifx

open ByteOrder

theorem decodeTagLabels_congr {b b' : Buffer} (h : Agree 39 b b') :
    decodeTagLabels b = decodeTagLabels b' := by
  have hlabel : (b.vector 8 32).set 31 0 = (b'.vector 8 32).set 31 0 := by
    apply Vector.ext
    intro i hi
    by_cases h31 : i = 31
    · subst h31
      simp
    · have hbyte := h (8 + i) (by omega)
      simpa [Vector.getElem_set_ne _ _ (Ne.symm h31),Buffer.vector] using hbyte
  simp only [decodeTagLabels,h.mask (o := 0) (by omega),hlabel]

namespace Daemon

theorem handle_congr {handler : Handler} {pkt pkt' : Buffer} (h : Agree handler.extent pkt pkt')
    (d : Daemon) (now : Time) (g : GatewayRef) (hdr : Header) (env : Env) :
    d.handle now g handler hdr pkt env = d.handle now g handler hdr pkt' env := by
  cases handler with
  | null => rfl
  | enosys => rfl
  | panGateway => rfl
  | lightStatus =>
    have hdecode : decodeLightStatus pkt = decodeLightStatus pkt' := by
      simp only [decodeLightStatus,h.le16 (o := 0) (by decide),h.le16 (o := 2) (by decide),
        h.le16 (o := 4) (by decide),h.le16 (o := 6) (by decide),h.le16 (o := 8) (by decide),
        h.le16 (o := 10) (by decide),h.vector (o := 12) (k := 32) (by decide),
        h.mask (o := 44) (by decide)]
    simp only [handle,hdecode]
  | powerState => simp only [handle,decodePowerState,h.le16 (o := 0) (by decide)]
  | tagLabels => simp only [handle,decodeTagLabels_congr h]
  | tags => simp only [handle,decodeTags,h.mask (o := 0) (by decide)]
  | ipState => simp only [handle,decodeIpState,h.le32 (o := 0) (by decide),h.le32 (o := 4) (by decide),
      h.le32 (o := 8) (by decide),h.le16 (o := 12) (by decide)]
  | ipFirmwareInfo => simp only [handle,decodeIpFirmwareInfo,h.le64 (o := 0) (by decide),
      h.le64 (o := 8) (by decide),h.le32 (o := 16) (by decide)]
  | productInfo => simp only [handle,decodeProductInfo,h.le32 (o := 0) (by decide),
      h.le32 (o := 4) (by decide),h.le32 (o := 8) (by decide)]
  | runtimeInfo => simp only [handle,decodeRuntimeInfo,h.le64 (o := 0) (by decide),
      h.le64 (o := 8) (by decide),h.le64 (o := 16) (by decide)]
  | bulbLabel => simp only [handle,decodeBulbLabel,h.vector (o := 0) (k := 32) (by decide)]
  | ambientLight => simp only [handle,decodeAmbientLight,h.le32 (o := 0) (by decide)]

end Daemon

section LastByte
variable (b : Buffer) (o : ℕ)

theorem le_byte {n i : ℕ} (hi : i < n) : UInt8.ofNat (b.le o n / 256 ^ i) = b (o + i) := by
  have hlen : (b.window o n).length = n := by simp [Buffer.window]
  have hbytes := bytes_value (b.window o n)
  rw [hlen] at hbytes
  exact List.map_inj_left.mp hbytes i (List.mem_range.mpr hi)

theorem le_lt (n : ℕ) : b.le o n < 256 ^ n := by
  have h := value_lt (b.window o n)
  rwa [Buffer.window,List.length_map,List.length_range] at h

theorem le16_last : UInt8.ofNat ((b.le16 o).toNat / 256 ^ 1) = b (o + 1) := by
  have hlt := le_lt b o 2
  rw [Buffer.le16,UInt16.toNat_ofNat_of_lt' hlt,le_byte b o (by omega)]

theorem le32_last : UInt8.ofNat ((b.le32 o).toNat / 256 ^ 3) = b (o + 3) := by
  have hlt := le_lt b o 4
  rw [Buffer.le32,UInt32.toNat_ofNat_of_lt' hlt,le_byte b o (by omega)]

theorem le64_last : UInt8.ofNat ((b.le64 o).toNat / 256 ^ 7) = b (o + 7) := by
  have hlt := le_lt b o 8
  rw [Buffer.le64,UInt64.toNat_ofNat_of_lt' hlt,le_byte b o (by omega)]

theorem mask_toNat : (b.mask o).toNat = b.le o 8 := by
  have hlt := le_lt b o 8
  simpa [Buffer.mask] using Nat.mod_eq_of_lt hlt

theorem mask_last : UInt8.ofNat ((b.mask o).toNat / 256 ^ 7) = b (o + 7) := by
  rw [mask_toNat,le_byte b o (by omega)]

end LastByte

/-- The handlers that copy their whole payload into the record of a bulb. -/
def Handler.fillsRecord : Handler → Bool
  | .null | .enosys | .panGateway | .powerState | .tagLabels => false
  | _ => true

theorem ipState_type {code : UInt16} {info : PacketInfo} (h : getPacketInfo code = some info) :
    (info.handle = .ipState → code = PacketType.meshInfo.code ∨ code = PacketType.wifiInfo.code) ∧
    (info.handle = .ipFirmwareInfo → code = PacketType.meshFirmware.code ∨
      code = PacketType.wifiFirmwareState.code) := by
  obtain ⟨type,hfind,htable⟩ := Option.bind_eq_some_iff.mp h
  have hcode : type.code = code := by simpa using List.find?_some hfind
  rw [← hcode]
  cases type <;> cases htable <;> simp [PacketInfo.requestOnly,PacketInfo.unimplemented]

namespace Daemon

/-- With enough memory, the bulb a packet is about does not depend on the payload. -/
theorem withBulb_opened (d : Daemon) (now : Time) (g : GatewayRef) (addr : Addr) :
    ∃ d' b, (∀ f, d.withBulb now g addr {} f = f d' b) ∧
      ∀ state, d.handleLightStatus now g addr {} state =
        ((d'.setLightState now b state (d'.gw g).lastPktAt).confirmPower now b).refreshIfSlow g := by
  rcases d.getOrOpenBulb_spec g addr now true with ⟨b,-,heq⟩ | ⟨-,-,d',heq,-⟩ | ⟨-,hfalse,-⟩
  · exact ⟨d,b,fun f => by simp only [withBulb,heq],fun state => by simp only [handleLightStatus,heq]⟩
  · exact ⟨d',d.nextBulb,fun f => by simp only [withBulb,heq],
      fun state => by simp only [handleLightStatus,heq]⟩
  · cases hfalse

theorem lightStatus_state (d : Daemon) (now : Time) (g : GatewayRef) (b : BulbRef) (state : LightState)
    (receivedAt : Time) :
    ((((d.setLightState now b state receivedAt).confirmPower now b).refreshIfSlow g).bulb b).state =
      state := by
  rcases lightStatus_cases d now g b state receivedAt rfl with
    ⟨-,hset⟩ | ⟨-,-,hset⟩ | ⟨-,-,hrecord,-⟩
  · simp [hset.bulb]
  · simp [hset.bulb]
  · simp [hrecord]

/-- The last byte of the payload can be told from the record. -/
theorem handle_last {hdr : Header} {info : PacketInfo} (hinfo : getPacketInfo hdr.packetType = some info)
    (hfills : info.handle.fillsRecord = true) (d : Daemon) (now : Time) (g : GatewayRef) :
    ∃ read : Daemon → UInt8, ∀ pkt,
      read (d.handle now g info.handle hdr pkt {}) = pkt (info.handle.extent - 1) := by
  obtain ⟨hip,hfirmware⟩ := ipState_type hinfo
  obtain ⟨d',b,hwith,hstatus⟩ := d.withBulb_opened now g hdr.deviceAddr
  generalize info.handle = handler at *
  cases handler with
  | null => cases hfills
  | enosys => cases hfills
  | panGateway => cases hfills
  | powerState => cases hfills
  | tagLabels => cases hfills
  | lightStatus =>
    refine ⟨fun D => UInt8.ofNat ((D.bulb b).state.tags.toNat / 256 ^ 7),fun pkt => ?_⟩
    simp only [handle,hstatus,lightStatus_state]
    exact mask_last pkt 44
  | tags =>
    refine ⟨fun D => UInt8.ofNat ((D.bulb b).state.tags.toNat / 256 ^ 7),fun pkt => ?_⟩
    simp only [handle,hwith,(sets_setTags d' b (decodeTags pkt)).bulb,Function.update_self]
    exact mask_last pkt 0
  | ipState =>
    rcases hip rfl with htype | htype
    · refine ⟨fun D => UInt8.ofNat (((D.bulb b).ips .mcu).state.temperature.toNat / 256 ^ 1),fun pkt => ?_⟩
      simp only [handle,handleIpState,htype,hwith,if_true,modifyBulb,Function.update_self,
        Bulb.setIpState]
      exact le16_last pkt 12
    · have hne : PacketType.wifiInfo.code ≠ PacketType.meshInfo.code := by decide
      refine ⟨fun D => UInt8.ofNat (((D.bulb b).ips .wifi).state.temperature.toNat / 256 ^ 1),fun pkt => ?_⟩
      simp only [handle,handleIpState,htype,hwith,if_true,if_neg hne,modifyBulb,Function.update_self,
        Bulb.setIpState]
      exact le16_last pkt 12
  | ipFirmwareInfo =>
    rcases hfirmware rfl with htype | htype
    · refine ⟨fun D => UInt8.ofNat (((D.bulb b).ips .mcu).fwInfo.version.toNat / 256 ^ 3),fun pkt => ?_⟩
      simp only [handle,handleIpFirmwareInfo,htype,hwith,if_true,modifyBulb,Function.update_self,
        Bulb.setIpFirmwareInfo]
      exact le32_last pkt 16
    · have hne : PacketType.wifiFirmwareState.code ≠ PacketType.meshFirmware.code := by decide
      refine ⟨fun D => UInt8.ofNat (((D.bulb b).ips .wifi).fwInfo.version.toNat / 256 ^ 3),fun pkt => ?_⟩
      simp only [handle,handleIpFirmwareInfo,htype,hwith,if_true,if_neg hne,modifyBulb,
        Function.update_self,Bulb.setIpFirmwareInfo]
      exact le32_last pkt 16
  | productInfo =>
    refine ⟨fun D => UInt8.ofNat ((D.bulb b).productInfo.version.toNat / 256 ^ 3),fun pkt => ?_⟩
    simp only [handle,hwith,modifyBulb,Function.update_self,Bulb.setProductInfo]
    exact le32_last pkt 8
  | runtimeInfo =>
    refine ⟨fun D => UInt8.ofNat ((D.bulb b).runtimeInfo.downtime.toNat / 256 ^ 7),fun pkt => ?_⟩
    simp only [handle,hwith,modifyBulb,Function.update_self,Bulb.setRuntimeInfo]
    exact le64_last pkt 16
  | bulbLabel =>
    refine ⟨fun D => (D.bulb b).state.label[31],fun pkt => ?_⟩
    simp only [handle,hwith,modifyBulb,Function.update_self,Bulb.setLabel]
    simp [decodeBulbLabel,Buffer.vector,Handler.extent]
  | ambientLight =>
    refine ⟨fun D => UInt8.ofNat ((D.bulb b).ambientLight.toNat / 256 ^ 3),fun pkt => ?_⟩
    simp only [handle,hwith,modifyBulb,Function.update_self,Bulb.setAmbientLight]
    exact le32_last pkt 0

theorem handle_power (d : Daemon) (now : Time) (g : GatewayRef) (hdr : Header) :
    ∃ read : Daemon → UInt16, ∀ pkt,
      read (d.handle now g .powerState hdr pkt {}) = decodePowerState pkt := by
  obtain ⟨d',b,hwith,-⟩ := d.withBulb_opened now g hdr.deviceAddr
  refine ⟨fun D => (D.bulb b).state.power,fun pkt => ?_⟩
  simp only [handle,hwith,(sets_setPowerState d' now b (decodePowerState pkt)).bulb,Function.update_self]

end Daemon
end Lightsd.Lifx
