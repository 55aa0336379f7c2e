import Lightsd.Lifx.Gateway

/-! # What the daemon knows about a bulb

The setters called by the packet handlers. A change of power is counted and makes
the daemon ask for the uptime of the bulb; a change of tags is counted on the gateway
the bulb was found on first.
-/
namespace Lightsd.Lifx

def lifxVendorId : UInt32 := 1

def getModelName (vendorId productId : UInt32) : String :=
  if vendorId ≠ lifxVendorId then "Unknown"
  else match productId with
  | 0x1 | 0x2 => "Original 1000"
  | 0x3 => "Color 650"
  | 0xa | 0xb => "White 800"
  | 0x12 => "White 900 BR30"
  | 0x14 => "Color 1000 BR30"
  | 0x16 => "Color 1000"
  | 0x1b => "A19"
  | 0x1c => "BR30"
  | 0x1d => "A19+"
  | 0x1e => "BR30+"
  | 0x1f => "Z"
  | _ => "Unknown"

def getVendorName (vendorId : UInt32) : String :=
  if vendorId = lifxVendorId then "LIFX" else "Unknown"

namespace Bulb

def setIpState (b : Bulb) (ip : BulbIpId) (state : IpState) (receivedAt : Time) : Bulb :=
  { b with
    ips := Function.update b.ips ip ({ b.ips ip with state := state, stateUpdatedAt := receivedAt }) }

def setIpFirmwareInfo (b : Bulb) (ip : BulbIpId) (info : IpFirmwareInfo) (receivedAt : Time) : Bulb :=
  { b with
    ips := Function.update b.ips ip ({ b.ips ip with fwInfo := info, fwInfoUpdatedAt := receivedAt }) }

def setProductInfo (b : Bulb) (info : ProductInfo) : Bulb :=
  { b with
    productInfo := info
    vendor := some (getVendorName info.vendorId)
    model := some (getModelName info.vendorId info.productId) }

def setRuntimeInfo (b : Bulb) (info : RuntimeInfo) (receivedAt : Time) : Bulb :=
  { b with runtimeInfo := info, runtimeInfoUpdatedAt := receivedAt }

def setLabel (b : Bulb) (label : Label) : Bulb := { b with state := { b.state with label := label } }

def setAmbientLight (b : Bulb) (illuminance : UInt32) : Bulb := { b with ambientLight := illuminance }

end Bulb

namespace Daemon

/-- Count a change of power and ask for the runtime information of the bulb. -/
def notePower (d : Daemon) (now : Time) (b : BulbRef) (power : UInt16) : Daemon :=
  if power ≠ (d.bulb b).state.power then
    (d.statsAdd .bulbsPoweredOn (if power = powerOn then 1 else -1)).sendToDevice now .getInfo b
  else d

def setLightState (d : Daemon) (now : Time) (b : BulbRef) (state : LightState) (receivedAt : Time) :
    Daemon :=
  let d := d.notePower now b state.power
  let d := d.updateTagRefcounts (d.bulb b).gw (d.bulb b).state.tags state.tags
  d.modifyBulb b (fun bulb => { bulb with lastLightStateAt := receivedAt, state := state })

def setPowerState (d : Daemon) (now : Time) (b : BulbRef) (power : UInt16) : Daemon :=
  (d.notePower now b power).modifyBulb b
    (fun bulb => { bulb with state := { bulb.state with power := power } })

def setTags (d : Daemon) (b : BulbRef) (tags : TagMask) : Daemon :=
  (d.updateTagRefcounts (d.bulb b).gw (d.bulb b).state.tags tags).modifyBulb b
    (fun bulb => { bulb with state := { bulb.state with tags := tags } })

def fetchWifiFwInfoTimeout : Time := 20000

def resendIf (test : Bool) (now : Time) (req : Request) (b : BulbRef) (d : Daemon) : Daemon :=
  if test then d.sendToDevice now req b else d

/-- The persistent timer started for each bulb, which looks the bulb up again by its
address each time. -/
def fetchHardwareInfo (d : Daemon) (now : Time) (addr : Addr) : Daemon :=
  match d.bulbGet addr with
  | none => d
  | some b =>
    let d := resendIf ((d.bulb b).productInfo.vendorId = 0) now .getVersion b d
    let d := resendIf (((d.bulb b).ips .mcu).fwInfo.version = 0) now .getMeshFirmware b d
    resendIf (((d.bulb b).ips .wifi).fwInfo.version = 0 &&
      now - ((d.bulb b).ips .mcu).stateUpdatedAt < fetchWifiFwInfoTimeout) now
      .getWifiFirmwareState b d

end Daemon
end Lightsd.Lifx
