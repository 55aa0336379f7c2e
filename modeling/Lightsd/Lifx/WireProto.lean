import Lightsd.Library.ByteOrder
import Lightsd.Lifx.PacketTypes

/-! # LIFX wire format

Packet headers, packet payloads and their byte layout on a little-endian host.
A received payload is read out of the receive buffer at the offsets of the packed
structures, whatever the number of bytes that were actually received: the buffer
is a total function on offsets.
-/
namespace Lightsd.Lifx

open ByteOrder

/-- Bytes of a memory area, by offset. -/
abbrev Buffer := ℕ → UInt8

abbrev Addr := Vector UInt8 6
abbrev Label := Vector UInt8 32
abbrev TagMask := BitVec 64

def powerOff : UInt16 := 0
def powerOn : UInt16 := 0xffff

namespace Buffer

def window (b : Buffer) (offset n : ℕ) : List UInt8 := (List.range n).map (fun i => b (offset + i))

/-- Little-endian value of the `n` bytes at an offset. -/
def le (b : Buffer) (offset n : ℕ) : ℕ := value (b.window offset n)

def le16 (b : Buffer) (offset : ℕ) : UInt16 := UInt16.ofNat (b.le offset 2)
def le32 (b : Buffer) (offset : ℕ) : UInt32 := UInt32.ofNat (b.le offset 4)
def le64 (b : Buffer) (offset : ℕ) : UInt64 := UInt64.ofNat (b.le offset 8)
def mask (b : Buffer) (offset : ℕ) : TagMask := BitVec.ofNat 64 (b.le offset 8)
def vector (b : Buffer) (offset n : ℕ) : Vector UInt8 n := Vector.ofFn (fun i => b (offset + i.val))
def drop (b : Buffer) (n : ℕ) : Buffer := fun i => b (n + i)

end Buffer

def headerSize : ℕ := 36
def maxPacketSize : ℕ := 4096

def protocolV1 : BitVec 16 := 0x400
def protocolVersionMask : BitVec 16 := 0x0fff
def protocolAddressable : BitVec 16 := 0x1000
def protocolTagged : BitVec 16 := 0x2000
def flagResRequired : UInt8 := 1

structure Header where
  size : UInt16
  protocol : BitVec 16
  source : UInt32
  target : Vector UInt8 8
  site : Addr
  flags : UInt8
  seqn : UInt8
  atTime : UInt64
  packetType : UInt16
  deriving DecidableEq

namespace Header

/-- The target field holds a device address or the bytes of a tag mask. -/
def deviceAddr (h : Header) : Addr := Vector.ofFn (fun i : Fin 6 => h.target[i.val])

def toBytes (h : Header) : List UInt8 :=
  bytes 2 h.size.toNat ++ bytes 2 h.protocol.toNat ++ bytes 4 h.source.toNat ++
  h.target.toList ++ h.site.toList ++ [h.flags,h.seqn] ++
  bytes 8 h.atTime.toNat ++ bytes 2 h.packetType.toNat ++ [0,0]

@[simp] theorem toBytes_length (h : Header) : h.toBytes.length = headerSize := by
  simp [toBytes,headerSize]

end Header

def decodeHeader (b : Buffer) : Header where
  size := b.le16 0
  protocol := (b.le16 2).toBitVec
  source := b.le32 4
  target := b.vector 8 8
  site := b.vector 16 6
  flags := b 22
  seqn := b 23
  atTime := b.le64 24
  packetType := b.le16 32

/-- What a packet is addressed to. -/
inductive Target
  | site
  | tags (mask : TagMask)
  | device (addr : Addr)
  | allDevices
  deriving DecidableEq

def Target.bytes : Target → Vector UInt8 8
  | .tags mask => Vector.ofFn (fun i : Fin 8 => UInt8.ofNat (mask.toNat / 256 ^ i.val))
  | .device addr => Vector.ofFn (fun i : Fin 8 => if h : i.val < 6 then addr[i.val] else 0)
  | .site | .allDevices => Vector.replicate 8 0

def Target.tagged : Target → Bool
  | .device _ => false
  | _ => true

/-- The header of an outgoing packet. No site is given only for discovery, which
is addressed to all devices. -/
def setupHeader (clientId : UInt32) (target : Target) (site : Option Addr) (info : PacketInfo) :
    Header where
  size := UInt16.ofNat (info.size + headerSize)
  protocol := protocolV1 ||| protocolAddressable ||| (if target.tagged then protocolTagged else 0)
  source := clientId
  target := target.bytes
  site := site.getD (Vector.replicate 6 0)
  flags := flagResRequired
  seqn := 0
  atTime := 0
  packetType := info.type.code

structure PanGateway where
  serviceType : UInt8
  port : UInt32
  deriving DecidableEq

structure LightState where
  hue : UInt16
  saturation : UInt16
  brightness : UInt16
  kelvin : UInt16
  dim : UInt16
  power : UInt16
  label : Label
  tags : TagMask
  deriving DecidableEq

structure TagLabels where
  tags : TagMask
  label : Label
  deriving DecidableEq

/-- Floating point fields are kept as their 32-bit patterns. -/
structure IpState where
  signalStrength : UInt32
  txBytes : UInt32
  rxBytes : UInt32
  temperature : UInt16
  deriving DecidableEq

structure IpFirmwareInfo where
  builtAt : UInt64
  installedAt : UInt64
  version : UInt32
  deriving DecidableEq

structure ProductInfo where
  vendorId : UInt32
  productId : UInt32
  version : UInt32
  deriving DecidableEq

structure RuntimeInfo where
  time : UInt64
  uptime : UInt64
  downtime : UInt64
  deriving DecidableEq

def decodePanGateway (b : Buffer) : PanGateway := ⟨b 0,b.le32 1⟩

/-- Any power level but full power is pulled down to off. -/
def clampPower (power : UInt16) : UInt16 := if power ≠ powerOn then powerOff else power

theorem clampPower_cases (power : UInt16) : clampPower power = powerOff ∨ clampPower power = powerOn := by
  unfold clampPower
  by_cases h : power = powerOn
  · right
    simp [h]
  · left
    simp [h]

def decodeLightStatus (b : Buffer) : LightState where
  hue := b.le16 0
  saturation := b.le16 2
  brightness := b.le16 4
  kelvin := b.le16 6
  dim := b.le16 8
  power := clampPower (b.le16 10)
  label := b.vector 12 32
  tags := b.mask 44

def decodePowerState (b : Buffer) : UInt16 := clampPower (b.le16 0)

theorem labelEnd_lt : 31 < 32 := by decide

/-- The last byte of the label is overwritten so that the label is a C string. -/
def decodeTagLabels (b : Buffer) : TagLabels where
  tags := b.mask 0
  label := (b.vector 8 32).set 31 0 labelEnd_lt

def decodeTags (b : Buffer) : TagMask := b.mask 0
def decodeIpState (b : Buffer) : IpState := ⟨b.le32 0,b.le32 4,b.le32 8,b.le16 12⟩
def decodeIpFirmwareInfo (b : Buffer) : IpFirmwareInfo := ⟨b.le64 0,b.le64 8,b.le32 16⟩
def decodeProductInfo (b : Buffer) : ProductInfo := ⟨b.le32 0,b.le32 4,b.le32 8⟩
def decodeRuntimeInfo (b : Buffer) : RuntimeInfo := ⟨b.le64 0,b.le64 8,b.le64 16⟩
def decodeBulbLabel (b : Buffer) : Label := b.vector 0 32
def decodeAmbientLight (b : Buffer) : UInt32 := b.le32 0

/-- The characters of a C string stored in a byte array. -/
def cString (bytes : List UInt8) : List UInt8 := bytes.takeWhile (· ≠ 0)

end Lightsd.Lifx
