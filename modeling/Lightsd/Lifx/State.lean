import Lightsd.Lifx.WireProto

/-! # The state of the daemon

Gateways, bulbs and tags are heap objects named by references; the global lists
hold the references of the live objects, so an object is freed exactly when its
reference leaves its global list. References are never reused. Failed assertions
and uses of freed objects do not stop the model, they are recorded in `faults`.
-/
namespace Lightsd.Lifx

abbrev GatewayRef := ℕ
abbrev BulbRef := ℕ
abbrev TagRef := ℕ
abbrev Time := UInt64

/-- A socket address as the bytes the kernel reports. -/
abbrev SockAddr := List UInt8

def ringSize : ℕ := 16
def maxTags : ℕ := 64
def labelSize : ℕ := 32

/-- A slot of the packet ring. A slot whose packet has been written completely has
its type reset to zero, which is no packet type. -/
structure Message where
  type : Option PacketType
  size : ℤ
  deriving DecidableEq

/-- A packet handed to the queue of a gateway. The payload, when there is one, is
the structure the packet table gives the size of; there is none only for types
without a payload. -/
structure OutPacket where
  info : PacketInfo
  hdr : Header
  pkt : Option (List UInt8)
  sized : (pkt.getD []).length = info.size

structure Gateway where
  bulbs : List BulbRef := []
  peer : SockAddr := []
  site : Addr := Vector.replicate 6 0
  tagIds : TagMask := 0
  tags : ℕ → Option TagRef := fun _ => none
  tagRefcounts : ℕ → UInt8 := fun _ => 0
  lastReqAt : Time := 0
  nextReqAt : Time := 0
  lastPktAt : Time := 0
  pktRing : ℕ → Message := fun _ => ⟨none,0⟩
  pktRingHead : ℕ := 0
  pktRingTail : ℕ := 0
  pktRingFull : Bool := false
  socketEvPending : Bool := false
  writeBuf : List UInt8 := []
  pendingRefreshReq : Bool := false
  /-- Every packet handed to the queue so far, dropped ones included. -/
  enqueued : List OutPacket := []

inductive BulbIpId
  | mcu | wifi
  deriving DecidableEq

structure BulbIp where
  state : IpState := ⟨0,0,0,0⟩
  stateUpdatedAt : Time := 0
  fwInfo : IpFirmwareInfo := ⟨0,0,0⟩
  fwInfoUpdatedAt : Time := 0
  deriving DecidableEq

def LightState.zero : LightState := ⟨0,0,0,0,0,0,Vector.replicate 32 0,0⟩

structure Bulb where
  lastLightStateAt : Time := 0
  runtimeInfoUpdatedAt : Time := 0
  dirtyAt : Time := 0
  expectedPowerOn : UInt16 := 0
  addr : Addr := Vector.replicate 6 0
  ambientLight : UInt32 := 0
  model : Option String := none
  vendor : Option String := none
  gw : GatewayRef := 0
  state : LightState := .zero
  ips : BulbIpId → BulbIp := fun _ => {}
  productInfo : ProductInfo := ⟨0,0,0⟩
  runtimeInfo : RuntimeInfo := ⟨0,0,0⟩

structure Site where
  tagId : ℕ
  gw : GatewayRef
  deriving DecidableEq

structure Tag where
  label : List UInt8 := []
  sites : List Site := []
  deriving DecidableEq

/-- The counters of the daemon. They are ints in the source and are not bounded here. -/
structure Stats where
  gateways : ℤ := 0
  bulbs : ℤ := 0
  bulbsPoweredOn : ℤ := 0
  deriving DecidableEq

/-- Violations of the source's own assertions, and uses of freed objects. -/
inductive Fault
  | negativeCounter
  | zeroRefcount (gw : GatewayRef) (id : ℕ)
  | recount (bulb : BulbRef) (id : ℕ)
  | bulbStillListed (bulb : BulbRef)
  | peerMismatch (gw : GatewayRef)
  | longLabel (label : List UInt8)
  | siteTagId (tag : TagRef) (gw : GatewayRef) (id : ℕ)
  | sitesLeft (tag : TagRef)
  | freedTag (tag : TagRef)
  | routedTag (tag : TagRef) (gw : GatewayRef) (id : ℕ)
  | nullTag (gw : GatewayRef) (id : ℕ)
  | missingTagId (tag : TagRef) (gw : GatewayRef)
  | unexpectedType (code : UInt16)
  deriving DecidableEq

structure Daemon where
  clientId : UInt32 := 1
  gateways : List GatewayRef := []
  gw : GatewayRef → Gateway := fun _ => {}
  nextGw : GatewayRef := 0
  bulbs : List BulbRef := []
  bulb : BulbRef → Bulb := fun _ => {}
  nextBulb : BulbRef := 0
  tags : List TagRef := []
  tag : TagRef → Tag := fun _ => {}
  nextTag : TagRef := 0
  counters : Stats := {}
  faults : List Fault := []

namespace Daemon

def modifyGw (d : Daemon) (r : GatewayRef) (f : Gateway → Gateway) : Daemon :=
  { d with gw := Function.update d.gw r (f (d.gw r)) }

def modifyBulb (d : Daemon) (r : BulbRef) (f : Bulb → Bulb) : Daemon :=
  { d with bulb := Function.update d.bulb r (f (d.bulb r)) }

def modifyTag (d : Daemon) (r : TagRef) (f : Tag → Tag) : Daemon :=
  { d with tag := Function.update d.tag r (f (d.tag r)) }

def fault (d : Daemon) (f : Fault) : Daemon := { d with faults := d.faults ++ [f] }

/-- An assertion of the source. -/
def check (d : Daemon) (cond : Bool) (f : Fault) : Daemon := if cond then d else d.fault f

end Daemon
end Lightsd.Lifx
