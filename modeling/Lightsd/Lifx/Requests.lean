import Lightsd.Lifx.PacketRing

/-! # Requests sent to the bulbs

The source passes a packet type together with an untyped payload pointer. Here the
two come as one value, so that a payload always has the size the packet table
gives its type.
-/
namespace Lightsd.Lifx

structure LightColor where
  hue : UInt16
  saturation : UInt16
  brightness : UInt16
  kelvin : UInt16
  transition : UInt32
  deriving DecidableEq

structure Waveform where
  transient : Bool
  hue : UInt16
  saturation : UInt16
  brightness : UInt16
  kelvin : UInt16
  period : UInt32
  cycles : UInt32
  skewRatio : UInt16
  waveform : UInt8
  deriving DecidableEq

inductive Request
  | getLightState
  | getInfo
  | getVersion
  | getMeshFirmware
  | getWifiFirmwareState
  | getTagLabels (tags : TagMask)
  | setTagLabels (tags : TagMask) (label : Label)
  | setPowerState (power : UInt16)
  | setTags (tags : TagMask)
  | setLightColor (color : LightColor)
  | setWaveform (waveform : Waveform)
  | setBulbLabel (label : Label)
  deriving DecidableEq

namespace Request

open ByteOrder

def info : Request → PacketInfo
  | getLightState => .requestOnly .getLightState 0
  | getInfo => .requestOnly .getInfo 0
  | getVersion => .requestOnly .getVersion 0
  | getMeshFirmware => .requestOnly .getMeshFirmware 0
  | getWifiFirmwareState => .requestOnly .getWifiFirmwareState 0
  | getTagLabels _ => .requestOnly .getTagLabels 8
  | setTagLabels .. => .requestOnly .setTagLabels 40
  | setPowerState _ => .requestOnly .setPowerState 2
  | setTags _ => .requestOnly .setTags 8
  | setLightColor _ => .requestOnly .setLightColor 13
  | setWaveform _ => .requestOnly .setWaveform 21
  | setBulbLabel _ => .requestOnly .setBulbLabel 32

/-- The encoded payload structure, or none where the source passes no payload. -/
def payload : Request → Option (List UInt8)
  | getLightState | getInfo | getVersion | getMeshFirmware | getWifiFirmwareState => none
  | getTagLabels tags => some (bytes 8 tags.toNat)
  | setTagLabels tags label => some (bytes 8 tags.toNat ++ label.toList)
  | setPowerState power => some (bytes 2 power.toNat)
  | setTags tags => some (bytes 8 tags.toNat)
  | setLightColor c => some ([0] ++ bytes 2 c.hue.toNat ++ bytes 2 c.saturation.toNat ++
      bytes 2 c.brightness.toNat ++ bytes 2 c.kelvin.toNat ++ bytes 4 c.transition.toNat)
  | setWaveform w => some ([0,if w.transient then 1 else 0] ++ bytes 2 w.hue.toNat ++
      bytes 2 w.saturation.toNat ++ bytes 2 w.brightness.toNat ++ bytes 2 w.kelvin.toNat ++
      bytes 4 w.period.toNat ++ bytes 4 w.cycles.toNat ++ bytes 2 w.skewRatio.toNat ++
      [w.waveform])
  | setBulbLabel label => some label.toList

/-- A request has the row of the packet table for its type. -/
example (r : Request) : packetTable r.info.type = some r.info := by
  cases r <;> rfl

theorem payload_sized (r : Request) : (r.payload.getD []).length = r.info.size := by
  cases r <;> simp [payload,info,PacketInfo.requestOnly]

def packet (r : Request) (clientId : UInt32) (target : Target) (site : Addr) : OutPacket :=
  ⟨r.info,setupHeader clientId target (some site) r.info,r.payload,r.payload_sized⟩

end Request

namespace Daemon

/-- Set up the header of a packet for a gateway and queue it there. -/
def enqueue (d : Daemon) (g : GatewayRef) (target : Target) (req : Request) : Daemon :=
  d.modifyGw g (fun gw => gw.enqueuePacket (req.packet d.clientId target gw.site))

def sendToSite (d : Daemon) (g : GatewayRef) (req : Request) : Daemon := d.enqueue g .site req

end Daemon
end Lightsd.Lifx
