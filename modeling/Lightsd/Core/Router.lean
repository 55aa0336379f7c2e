import Lightsd.Lifx.BulbTable
import Lightsd.Lifx.Requests
import Lightsd.Lifx.Tagging

/-! # The router

A target is everything, a tag, a hardware address or a label. The router sends a
request to the devices a list of targets stands for; `targetsToDevices` is the list of
these devices. Commanding the power of a bulb also notes on the bulb which power is
expected and since when.
-/
namespace Lightsd.Core

open Lifx

/-- The text of a target, without its terminating zero. -/
abbrev TargetName := List UInt8

/-- The power a request commands, if it does. -/
def Request.power? : Request → Option UInt16
  | .setPowerState power => some power
  | _ => none

def Bulb.expectPower (now : Time) (req : Request) (b : Bulb) : Bulb :=
  match Request.power? req with
  | some power => { b with dirtyAt := now, expectedPowerOn := power }
  | none => b

def isXDigit (c : UInt8) : Bool :=
  (48 ≤ c && c ≤ 57) || (65 ≤ c && c ≤ 70) || (97 ≤ c && c ≤ 102)

def xDigitValue (c : UInt8) : ℕ :=
  if c ≤ 57 then c.toNat - 48 else if c ≤ 70 then c.toNat - 55 else c.toNat - 87

/-- An optional `0x` counts as a prefix only when a digit follows it. -/
def skipHexMarker : List UInt8 → List UInt8
  | 48 :: x :: c :: cs => if (x == 120 || x == 88) && isXDigit c then c :: cs else 48 :: x :: c :: cs
  | s => s

/-- `strtoull` in base 16 on a text that starts with a digit: the number read, without
its 64-bit limit, and the text behind it. -/
def strtoull (s : List UInt8) : ℕ × List UInt8 :=
  let s := skipHexMarker s
  ((s.takeWhile isXDigit).foldl (fun n c => 16 * n + xDigitValue c) 0,s.dropWhile isXDigit)

/-- The last six of the eight bytes of a number in network order. -/
def addrOfNumber (n : ℕ) : Addr :=
  #v[.ofNat (n / 2 ^ 40),.ofNat (n / 2 ^ 32),.ofNat (n / 2 ^ 24),.ofNat (n / 2 ^ 16),
    .ofNat (n / 2 ^ 8),.ofNat n]

end Lightsd.Core

namespace Lightsd.Lifx.Daemon

open Lightsd.Core

/-- Note on a bulb what a request commands. -/
def expectPower (d : Daemon) (now : Time) (req : Request) (b : BulbRef) : Daemon :=
  d.modifyBulb b (Bulb.expectPower now req)

def broadcastTo (now : Time) (req : Request) (d : Daemon) (g : GatewayRef) : Daemon :=
  let d := d.enqueue g .allDevices req
  (d.gw g).bulbs.foldl (expectPower · now req ·) d

def broadcast (d : Daemon) (now : Time) (req : Request) : Daemon :=
  d.gateways.foldl (broadcastTo now req) d

def sendToDevice (d : Daemon) (now : Time) (req : Request) (b : BulbRef) : Daemon :=
  let d := d.enqueue (d.bulb b).gw (.device (d.bulb b).addr) req
  d.expectPower now req b

def expectPowerIfTagged (now : Time) (req : Request) (id : ℕ) (d : Daemon) (b : BulbRef) : Daemon :=
  if hasTagId (d.bulb b).state.tags id then d.expectPower now req b else d

def sendToSiteOfTag (now : Time) (req : Request) (t : TagRef) (d : Daemon) (site : Site) : Daemon :=
  let d := d.check ((d.gw site.gw).tags site.tagId = some t) (.routedTag t site.gw site.tagId)
  let d := d.enqueue site.gw (.tags (tagIdToValue site.tagId)) req
  (d.gw site.gw).bulbs.foldl (expectPowerIfTagged now req site.tagId) d

def sendToTag (d : Daemon) (now : Time) (req : Request) (t : TagRef) : Daemon :=
  (d.tag t).sites.foldl (sendToSiteOfTag now req t) d

def sendIfLabelled (now : Time) (req : Request) (label : List UInt8) (d : Daemon) (b : BulbRef) :
    Daemon :=
  if (d.bulb b).hasLabel label then
    (d.enqueue (d.bulb b).gw (.device (d.bulb b).addr) req).expectPower now req b
  else d

def sendToLabel (d : Daemon) (now : Time) (req : Request) (label : List UInt8) : Daemon :=
  d.bulbs.foldl (sendIfLabelled now req label) d

def deviceAddrToDevice (d : Daemon) (deviceAddr : List UInt8) : Option BulbRef :=
  let (device,rest) := strtoull deviceAddr
  if rest = [] ∧ device < 2 ^ 64 then d.bulbGet (addrOfNumber device) else none

/-- One round of the loop of `lgtd_router_send`. -/
def sendToTarget (now : Time) (req : Request) (s : Daemon × Bool) (target : TargetName) :
    Daemon × Bool :=
  let (d,rv) := s
  if target = [42] then (d.broadcast now req,rv)
  else match target with
  | [] => (d,false)
  | c :: cs =>
    if c = 35 then
      match d.findTag cs with
      | some t => (d.sendToTag now req t,rv)
      | none => (d,false)
    else if isXDigit c then
      match d.deviceAddrToDevice target with
      | some b => (d.sendToDevice now req b,rv)
      | none => (d.sendToLabel now req target,rv)
    else (d.sendToLabel now req target,rv)

def routerSend (d : Daemon) (now : Time) (targets : List TargetName) (req : Request) :
    Daemon × Bool :=
  targets.foldl (sendToTarget now req) (d,true)

def insertDeviceIfNotInList (devices : List BulbRef) (b : BulbRef) : List BulbRef :=
  if b ∈ devices then devices else b :: devices

def insertTagged (d : Daemon) (devices : List BulbRef) (t : TagRef) : List BulbRef :=
  (d.tag t).sites.foldl (fun devices site =>
    (d.gw site.gw).bulbs.foldl (fun devices b =>
      if hasTagId (d.bulb b).state.tags site.tagId then insertDeviceIfNotInList devices b
      else devices) devices) devices

def insertLabelled (d : Daemon) (devices : List BulbRef) (label : List UInt8) : List BulbRef :=
  d.bulbs.foldl (fun devices b =>
    if (d.bulb b).hasLabel label then insertDeviceIfNotInList devices b else devices) devices

/-- The loop of `lgtd_router_targets_to_devices`. The target that stands for
everything replaces what was found so far and ends the loop. -/
def collectDevices (d : Daemon) (devices : List BulbRef) : List TargetName → List BulbRef
  | [] => devices
  | target :: targets =>
    if target = [42] then d.bulbs.foldl (fun devices b => b :: devices) []
    else match target with
    | [] => d.collectDevices devices targets
    | c :: cs =>
      if c = 35 then
        match d.findTag cs with
        | some t => d.collectDevices (d.insertTagged devices t) targets
        | none => d.collectDevices devices targets
      else if isXDigit c then
        match d.deviceAddrToDevice target with
        | some b => d.collectDevices (insertDeviceIfNotInList devices b) targets
        | none => d.collectDevices (d.insertLabelled devices target) targets
      else d.collectDevices (d.insertLabelled devices target) targets

def targetsToDevices (d : Daemon) (targets : List TargetName) : List BulbRef :=
  d.collectDevices [] targets

end Lightsd.Lifx.Daemon
