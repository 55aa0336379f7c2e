import Lightsd.Lifx.BulbState

/-! # Receiving packets

The handlers of the packet table, the dispatch of a decoded packet to a gateway and
the checks made on a datagram before that. A datagram is stored over what the receive
buffer held before, and the handlers read the whole payload structure of their type
out of that buffer.
-/
namespace Lightsd.Lifx

def minRefreshInterval : Time := 800

structure Datagram where
  peer : SockAddr
  bytes : List UInt8
  stale : Buffer
  fits : bytes.length ≤ maxPacketSize

def Datagram.buffer (dg : Datagram) : Buffer := fun i => dg.bytes.getD i (dg.stale i)

/-- The outcome of the checks on a datagram. -/
inductive Received
  | error
  | ignored
  | packet (info : PacketInfo) (hdr : Header)

/-- An unsupported protocol version is only worth a warning. -/
def Datagram.receive (dg : Datagram) : Received :=
  let hdr := decodeHeader dg.buffer
  if dg.bytes.length < headerSize then .error
  else if hdr.size.toNat ≠ dg.bytes.length then .error
  else if hdr.packetType = PacketType.getPanGateway.code then .ignored
  else match getPacketInfo hdr.packetType with
  | none => .ignored
  | some info =>
    if hdr.protocol &&& protocolAddressable = 0 then .ignored else .packet info hdr

/-- The datagram by which a peer sends a packet with the given payload. -/
def Datagram.sent (peer : SockAddr) (target : Target) (type : PacketType) (payload : List UInt8) :
    Datagram where
  peer := peer
  bytes := (setupHeader 0 target none (.requestOnly type payload.length)).toBytes ++
    payload.take (maxPacketSize - headerSize)
  stale := fun _ => 0
  fits := by
    simp only [List.length_append,Header.toBytes_length,List.length_take,headerSize,maxPacketSize]
    omega

namespace Daemon

/-- Run an action on the bulb a packet is about, which is opened on the gateway when
it is not known yet. -/
def withBulb (d : Daemon) (now : Time) (g : GatewayRef) (addr : Addr) (env : Env)
    (f : Daemon → BulbRef → Daemon) : Daemon :=
  match d.getOrOpenBulb g addr now env.bulbOk with
  | (d,none) => d
  | (d,some b) => f d b

theorem withBulb_cases (d : Daemon) (now : Time) (g : GatewayRef) (addr : Addr) (env : Env)
    (f : Daemon → BulbRef → Daemon) : d.withBulb now g addr env f = (d.getOrOpenBulb g addr now env.bulbOk).1 ∨
      ∃ b, (d.getOrOpenBulb g addr now env.bulbOk).2 = some b ∧
        d.withBulb now g addr env f = f (d.getOrOpenBulb g addr now env.bulbOk).1 b := by
  unfold withBulb
  obtain ⟨d',_ | b⟩ := d.getOrOpenBulb g addr now env.bulbOk
  · exact .inl rfl
  · exact .inr ⟨b,rfl,rfl⟩

/-- Compare the power of a commanded bulb with the expected one, and command it again
when they differ. -/
def confirmPower (d : Daemon) (now : Time) (b : BulbRef) : Daemon :=
  let bulb := d.bulb b
  if bulb.dirtyAt ≠ 0 ∧ bulb.lastLightStateAt > bulb.dirtyAt ∧
      (d.gw bulb.gw).lastPktAt - bulb.dirtyAt > 400 then
    if bulb.expectedPowerOn = bulb.state.power then
      d.modifyBulb b (fun bulb => { bulb with dirtyAt := 0 })
    else
      d.sendToDevice now
        (.setPowerState (if bulb.expectedPowerOn ≠ 0 then powerOn else powerOff)) b
  else d

def refreshIfSlow (d : Daemon) (g : GatewayRef) : Daemon :=
  if (d.gw g).latency < minRefreshInterval then d
  else if (d.gw g).pendingRefreshReq then d
  else d.sendGetAllLightState g

def handleLightStatus (d : Daemon) (now : Time) (g : GatewayRef) (addr : Addr) (env : Env)
    (state : LightState) : Daemon :=
  match d.getOrOpenBulb g addr now env.bulbOk with
  | (d,none) => d
  | (d,some b) =>
    let d := d.setLightState now b state (d.gw g).lastPktAt
    let d := d.confirmPower now b
    d.refreshIfSlow g

/-- One round of the loop over the tag ids of a label packet. -/
def handleTagLabel (g : GatewayRef) (env : Env) (label : List UInt8) (d : Daemon) (id : ℕ) : Daemon :=
  if label ≠ [] then (d.allocateTagId g id label (env.tagOk id) (env.siteOk id)).1
  else if ((d.gw g).tags id).isSome then d.deallocateTagId g id
  else d

def handleTagLabels (d : Daemon) (g : GatewayRef) (env : Env) (pkt : TagLabels) : Daemon :=
  (foreachTagId pkt.tags).foldl (handleTagLabel g env (cString pkt.label.toList)) d

def handleIpState (d : Daemon) (now : Time) (g : GatewayRef) (hdr : Header) (env : Env)
    (pkt : IpState) : Daemon :=
  let set (ip : BulbIpId) := d.withBulb now g hdr.deviceAddr env (fun d b =>
    d.modifyBulb b (·.setIpState ip pkt (d.gw g).lastPktAt))
  if hdr.packetType = PacketType.meshInfo.code then set .mcu
  else if hdr.packetType = PacketType.wifiInfo.code then set .wifi
  else d.fault (.unexpectedType hdr.packetType)

def handleIpFirmwareInfo (d : Daemon) (now : Time) (g : GatewayRef) (hdr : Header) (env : Env)
    (pkt : IpFirmwareInfo) : Daemon :=
  let set (ip : BulbIpId) := d.withBulb now g hdr.deviceAddr env (fun d b =>
    d.modifyBulb b (·.setIpFirmwareInfo ip pkt (d.gw g).lastPktAt))
  if hdr.packetType = PacketType.meshFirmware.code then set .mcu
  else if hdr.packetType = PacketType.wifiFirmwareState.code then set .wifi
  else d.fault (.unexpectedType hdr.packetType)

/-- The handler the packet table gives, applied to the decoded payload. -/
def handle (d : Daemon) (now : Time) (g : GatewayRef) (handler : Handler) (hdr : Header)
    (pkt : Buffer) (env : Env) : Daemon :=
  match handler with
  | .null | .enosys | .panGateway => d
  | .lightStatus => d.handleLightStatus now g hdr.deviceAddr env (decodeLightStatus pkt)
  | .powerState => d.withBulb now g hdr.deviceAddr env
      (fun d b => d.setPowerState now b (decodePowerState pkt))
  | .tagLabels => d.handleTagLabels g env (decodeTagLabels pkt)
  | .tags => d.withBulb now g hdr.deviceAddr env (fun d b => d.setTags b (decodeTags pkt))
  | .ipState => d.handleIpState now g hdr env (decodeIpState pkt)
  | .ipFirmwareInfo => d.handleIpFirmwareInfo now g hdr env (decodeIpFirmwareInfo pkt)
  | .productInfo => d.withBulb now g hdr.deviceAddr env
      (fun d b => d.modifyBulb b (·.setProductInfo (decodeProductInfo pkt)))
  | .runtimeInfo => d.withBulb now g hdr.deviceAddr env
      (fun d b => d.modifyBulb b (·.setRuntimeInfo (decodeRuntimeInfo pkt) (d.gw g).lastPktAt))
  | .bulbLabel => d.withBulb now g hdr.deviceAddr env
      (fun d b => d.modifyBulb b (·.setLabel (decodeBulbLabel pkt)))
  | .ambientLight => d.withBulb now g hdr.deviceAddr env
      (fun d b => d.modifyBulb b (·.setAmbientLight (decodeAmbientLight pkt)))

/-- Packets that are not implemented do not count as traffic of the gateway. -/
def dispatch (d : Daemon) (now : Time) (g : GatewayRef) (info : PacketInfo) (hdr : Header)
    (pkt : Buffer) (env : Env) : Daemon :=
  let d := if info.handle ≠ .enosys then d.modifyGw g (fun gw => { gw with lastPktAt := now }) else d
  d.handle now g info.handle hdr pkt env

def handlePacket (d : Daemon) (now : Time) (gw : Option GatewayRef) (peer : SockAddr)
    (info : PacketInfo) (hdr : Header) (pkt : Buffer) (env : Env) : Daemon :=
  match gw with
  | some g =>
    (d.check ((d.gw g).peer = peer) (.peerMismatch g)).dispatch now g info hdr pkt env
  | none =>
    match d.gatewayGet peer with
    | some g => d.dispatch now g info hdr pkt env
    | none =>
      if hdr.packetType = PacketType.panGateway.code ∧ env.gatewayOk then
        (d.gatewayOpen peer hdr.site now).dispatch now d.nextGw info hdr pkt env
      else d

/-- One datagram in the loop of `lgtd_lifx_wire_handle_receive`; false is the error
that makes it return. -/
def handleReceive (d : Daemon) (now : Time) (gw : Option GatewayRef) (dg : Datagram) (env : Env) :
    Daemon × Bool :=
  match dg.receive with
  | .error => (d,false)
  | .ignored => (d,true)
  | .packet info hdr =>
    (d.handlePacket now gw dg.peer info hdr (dg.buffer.drop headerSize) env,true)

end Daemon
end Lightsd.Lifx
