import Lightsd.Library.ByteOrder
import Lightsd.Lifx.Requests

/-! # The wire format on either kind of host

The structures of the wire format as they lie in the memory of a host of either byte
order, with the conversions and the protocol masks that the preprocessor selects for it.
The value of a field is the number the host sees; the target of a header is a union, so
it is kept as the bytes in memory.
-/
namespace Lightsd.Lifx

open ByteOrder

/-- A memory area that holds the given bytes. -/
def bufferOf (bs : List UInt8) : Buffer := fun i => bs.getD i 0

/-- The memory of a number, as an array field. -/
def storeVector (o : Order) (n x : ℕ) : Vector UInt8 n := ⟨(o.store n x).toArray,by simp⟩

/-- `htole16` and `le16toh`, which are the same function. -/
def convert16 (o : Order) (x : UInt16) : UInt16 := UInt16.ofNat (o.convert 2 x.toNat)
def convert32 (o : Order) (x : UInt32) : UInt32 := UInt32.ofNat (o.convert 4 x.toNat)
def convert64 (o : Order) (x : UInt64) : UInt64 := UInt64.ofNat (o.convert 8 x.toNat)

def protocolVersionMaskOn : Order → BitVec 16
  | .big => 0xff0f
  | .little => 0x0fff

def protocolFlagsMaskOn : Order → BitVec 16
  | .big => 0x00f0
  | .little => 0xf000

def protocolAddressableOn : Order → BitVec 16
  | .big => 0x0010
  | .little => 0x1000

def protocolTaggedOn : Order → BitVec 16
  | .big => 0x0020
  | .little => 0x2000

def flagAckRequired : UInt8 := 2

/-- The flags that `lgtd_lifx_wire_encode_header` is called with. -/
structure HeaderFlags where
  addressable : Bool := false
  tagged : Bool := false
  ackRequired : Bool := false
  resRequired : Bool := false

namespace Header

/-- The structure as it lies in memory. -/
def memory (o : Order) (h : Header) : List UInt8 :=
  o.store 2 h.size.toNat ++ o.store 2 h.protocol.toNat ++ o.store 4 h.source.toNat ++
  h.target.toList ++ h.site.toList ++ [h.flags,h.seqn] ++
  o.store 8 h.atTime.toNat ++ o.store 2 h.packetType.toNat ++ [0,0]

/-- The structure that some memory holds. -/
def ofMemory (o : Order) (b : Buffer) : Header where
  size := UInt16.ofNat (o.load (b.window 0 2))
  protocol := BitVec.ofNat 16 (o.load (b.window 2 2))
  source := UInt32.ofNat (o.load (b.window 4 4))
  target := b.vector 8 8
  site := b.vector 16 6
  flags := b 22
  seqn := b 23
  atTime := UInt64.ofNat (o.load (b.window 24 8))
  packetType := UInt16.ofNat (o.load (b.window 32 2))

/-- The tags of the target, as the host sees them. -/
def tagsOn (o : Order) (h : Header) : TagMask := BitVec.ofNat 64 (o.load h.target.toList)

end Header

def convertTarget (o : Order) (target : Vector UInt8 8) : Vector UInt8 8 :=
  storeVector o 8 (o.convert 8 (o.load target.toList))

def encodeHeaderOn (o : Order) (h : Header) (flags : HeaderFlags) : Header :=
  let protocol : BitVec 16 := (convert16 o (UInt16.ofBitVec protocolV1)).toBitVec
  let protocol := if flags.addressable then protocol ||| protocolAddressableOn o else protocol
  let protocol := if flags.tagged then protocol ||| protocolTaggedOn o else protocol
  let hdrFlags := if flags.ackRequired then h.flags ||| flagAckRequired else h.flags
  { h with
    size := convert16 o h.size
    protocol := protocol
    target := if flags.tagged then convertTarget o h.target else h.target
    flags := if flags.resRequired then hdrFlags ||| flagResRequired else hdrFlags
    atTime := convert64 o h.atTime
    packetType := convert16 o h.packetType
    source := convert32 o h.source }

def decodeHeaderOn (o : Order) (h : Header) : Header :=
  let protocol : BitVec 16 :=
    (convert16 o (UInt16.ofBitVec (h.protocol &&& protocolVersionMaskOn o))).toBitVec |||
      (h.protocol &&& protocolFlagsMaskOn o)
  { h with
    size := convert16 o h.size
    protocol := protocol
    target := if protocol &&& protocolTaggedOn o ≠ 0 then convertTarget o h.target else h.target
    atTime := convert64 o h.atTime
    packetType := convert16 o h.packetType
    source := convert32 o h.source }

/-- The header of an outgoing packet, before its fields are converted. -/
def plainHeader (clientId : UInt32) (site : Option Addr) (info : PacketInfo)
    (target : Vector UInt8 8) : Header where
  size := UInt16.ofNat (info.size + headerSize)
  protocol := 0
  source := clientId
  target := target
  site := site.getD (Vector.replicate 6 0)
  flags := 0
  seqn := 0
  atTime := 0
  packetType := info.type.code

def setupHeaderOn (o : Order) (clientId : UInt32) (target : Target) (site : Option Addr)
    (info : PacketInfo) : Header :=
  match target with
  | .site | .allDevices =>
    encodeHeaderOn o (plainHeader clientId site info (Vector.replicate 8 0))
      { addressable := true, resRequired := true, tagged := true }
  | .tags mask =>
    encodeHeaderOn o (plainHeader clientId site info (storeVector o 8 mask.toNat))
      { addressable := true, resRequired := true, tagged := true }
  | .device addr =>
    encodeHeaderOn o (plainHeader clientId site info (Target.device addr).bytes)
      { addressable := true, resRequired := true }

/-! The payload structures with byte order conversions that the daemon sends. -/

def encodeTagsOn (o : Order) (tags : TagMask) : TagMask := BitVec.ofNat 64 (o.convert 8 tags.toNat)

def decodeTagsOn (o : Order) (tags : TagMask) : TagMask := BitVec.ofNat 64 (o.convert 8 tags.toNat)

def tagsMemory (o : Order) (tags : TagMask) : List UInt8 := o.store 8 tags.toNat

def tagsOfMemory (o : Order) (b : Buffer) : TagMask := BitVec.ofNat 64 (o.load (b.window 0 8))

namespace TagLabels

def encodeOn (o : Order) (pkt : TagLabels) : TagLabels := { pkt with tags := encodeTagsOn o pkt.tags }

def decodeOn (o : Order) (pkt : TagLabels) : TagLabels :=
  { tags := decodeTagsOn o pkt.tags, label := pkt.label.set 31 0 labelEnd_lt }

def memory (o : Order) (pkt : TagLabels) : List UInt8 := tagsMemory o pkt.tags ++ pkt.label.toList

def ofMemory (o : Order) (b : Buffer) : TagLabels := ⟨tagsOfMemory o b,b.vector 8 32⟩

end TagLabels

namespace LightColor

def encodeOn (o : Order) (c : LightColor) : LightColor where
  hue := convert16 o c.hue
  saturation := convert16 o c.saturation
  brightness := convert16 o c.brightness
  kelvin := convert16 o c.kelvin
  transition := convert32 o c.transition

def memory (o : Order) (stream : UInt8) (c : LightColor) : List UInt8 :=
  [stream] ++ o.store 2 c.hue.toNat ++ o.store 2 c.saturation.toNat ++
  o.store 2 c.brightness.toNat ++ o.store 2 c.kelvin.toNat ++ o.store 4 c.transition.toNat

end LightColor

namespace Waveform

def encodeOn (o : Order) (w : Waveform) : Waveform :=
  { w with
    hue := convert16 o w.hue
    saturation := convert16 o w.saturation
    brightness := convert16 o w.brightness
    kelvin := convert16 o w.kelvin
    period := convert32 o w.period
    cycles := convert32 o w.cycles
    skewRatio := convert16 o w.skewRatio }

def memory (o : Order) (stream : UInt8) (w : Waveform) : List UInt8 :=
  [stream,if w.transient then 1 else 0] ++ o.store 2 w.hue.toNat ++ o.store 2 w.saturation.toNat ++
  o.store 2 w.brightness.toNat ++ o.store 2 w.kelvin.toNat ++ o.store 4 w.period.toNat ++
  o.store 4 w.cycles.toNat ++ o.store 2 w.skewRatio.toNat ++ [w.waveform]

end Waveform
end Lightsd.Lifx
