import Lightsd.Core.PrintedTexts

/-! # The text of the states of bulbs

What the command that reads light states prints: an object for each bulb, up to the names
of its tags, is put together in a buffer of a fixed size and written if it fits, the tags
are written after it one by one. Labels are copied as they are.
-/
namespace Lightsd.Core.Jsonrpc

open Lifx

/-- The verbosity of the daemon, and what its functions find around them. -/
structure Setting where
  now : Time
  debug : Bool
  printer : Printer

section Bulbs

def ipName : BulbIpId → List UInt8
  | .mcu => ascii "mcu"
  | .wifi => ascii "wifi"

def firmwareVersion (version : UInt32) : List UInt8 :=
  numberText 10 (version.toNat / 2 ^ 16) ++ ascii "." ++ numberText 10 (version.toNat % 2 ^ 16)

variable (set : Setting)

def ipText (ip : BulbIpId) (info : BulbIp) : List UInt8 :=
  if set.debug then
    ascii ",\"" ++ ipName ip ++ ascii "\":\x7b\"firmware_built_at\":\"" ++
      timestampText info.fwInfo.builtAt ++ ascii "\",\"firmware_installed_at\":\"" ++
      timestampText info.fwInfo.installedAt ++ ascii "\",\"firmware_version\":\"" ++
      firmwareVersion info.fwInfo.version ++ ascii "\",\"signal_strength\":" ++
      set.printer.float info.state.signalStrength ++ ascii ",\"tx_bytes\":" ++
      numberText 10 info.state.txBytes.toNat ++ ascii ",\"rx_bytes\":" ++
      numberText 10 info.state.rxBytes.toNat ++ ascii ",\"temperature\":" ++
      numberText 10 info.state.temperature.toNat ++ ascii "\x7d"
  else
    ascii ",\"" ++ ipName ip ++ ascii "\":\x7b\"firmware_version\":\"" ++
      firmwareVersion info.fwInfo.version ++ ascii "\"\x7d"

def infoText (b : Bulb) : List UInt8 :=
  if set.debug then
    ascii ",\"product_info\":\x7b\"vendor_id\":\"" ++ numberText 16 b.productInfo.vendorId.toNat ++
      ascii "\",\"product_id\":\"" ++ numberText 16 b.productInfo.productId.toNat ++
      ascii "\",\"version\":" ++ numberText 10 b.productInfo.version.toNat ++
      ascii "\x7d,\"runtime_info\":\x7b\"time\":\"" ++ timestampText b.runtimeInfo.time ++
      ascii "\",\"uptime\":" ++ numberText 10 (nsecsToSecs b.runtimeInfo.uptime) ++
      ascii ",\"downtime\":" ++ numberText 10 (nsecsToSecs b.runtimeInfo.downtime) ++ ascii "\x7d\x7d"
  else ascii "\x7d"

def stringOrNull : Option String → List UInt8
  | some v => ascii "\"" ++ ascii v ++ ascii "\""
  | none => ascii "null"

/-- The label of a bulb, or its address if it has none. -/
def bulbLabel (b : Bulb) : List UInt8 :=
  match cString b.state.label.toList with
  | [] => b.addr.toList.flatMap hexByte
  | label => label

/-- What is put together in the buffer. -/
def bulbText (gw : Gateway) (b : Bulb) : List UInt8 :=
  ascii "\x7b\"_lifx\":\x7b\"addr\":\"" ++ macText b.addr ++ ascii "\",\"gateway\":\x7b\"site\":\"" ++
    macText gw.site ++ ascii "\",\"url\":\"tcp://" ++ peerText set.printer gw.peer ++
    ascii "\",\"latency\":" ++ numberText 10 gw.latency.toNat ++ ascii "\x7d" ++
    ipText set .mcu (b.ips .mcu) ++ ipText set .wifi (b.ips .wifi) ++ infoText set b ++
    ascii ",\"_model\":" ++ stringOrNull b.model ++ ascii ",\"_vendor\":" ++ stringOrNull b.vendor ++
    ascii ",\"hsbk\":[" ++ uint16RangeToFloatString b.state.hue 0 360 16 ++ ascii "," ++
    uint16RangeToFloatString b.state.saturation 0 1 16 ++ ascii "," ++
    uint16RangeToFloatString b.state.brightness 0 1 16 ++ ascii "," ++
    numberText 10 b.state.kelvin.toNat ++ ascii "],\"power\":" ++
    (if b.state.power = powerOn then ascii "true" else ascii "false") ++
    ascii ",\"label\":\"" ++ bulbLabel b ++ ascii "\",\"tags\":["

def bufferSize : ℕ := 2048

end Bulbs
end Lightsd.Core.Jsonrpc

namespace Lightsd.Lifx.Daemon

open Lightsd.Core Jsonrpc

/-- The ids of the tags of a bulb that its gateway knows. -/
def knownTagIds (d : Daemon) (b : BulbRef) : List ℕ :=
  (foreachTagId (d.bulb b).state.tags).filter (hasTagId (d.gw (d.bulb b).gw).tagIds)

def tagLabelText (d : Daemon) (g : GatewayRef) (id : ℕ) : List UInt8 :=
  match (d.gw g).tags id with
  | some t => (d.tag t).label
  | none => []

/-- The names of the tags of a bulb. -/
def tagsText (d : Daemon) (b : BulbRef) : List UInt8 :=
  [44].intercalate ((d.knownTagIds b).map (fun id =>
    ascii "\"" ++ d.tagLabelText (d.bulb b).gw id ++ ascii "\""))

/-- What is written for the bulbs of a list. A bulb that does not fit is left out. -/
def lightStates (set : Setting) (d : Daemon) : List BulbRef → List UInt8
  | [] => []
  | b :: bs =>
    let text := bulbText set (d.gw (d.bulb b).gw) (d.bulb b)
    if bufferSize ≤ text.length then d.lightStates set bs
    else text ++ d.tagsText b ++ (if bs = [] then ascii "]\x7d" else ascii "]\x7d,") ++ d.lightStates set bs

/-- A null pointer where there should be a tag. -/
def checkTagPointers (set : Setting) (d : Daemon) : List BulbRef → Daemon
  | [] => d
  | b :: bs =>
    if bufferSize ≤ (bulbText set (d.gw (d.bulb b).gw) (d.bulb b)).length then d.checkTagPointers set bs
    else
      let g := (d.bulb b).gw
      ((d.knownTagIds b).foldl (fun d id => d.check ((d.gw g).tags id).isSome (.nullTag g id)) d).checkTagPointers
        set bs

end Lightsd.Lifx.Daemon
