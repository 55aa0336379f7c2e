import Lightsd.Lifx.Receive

/-! # The commands of a client

Memory allocations of commands succeed here. The replies are what the client is told.
-/
namespace Lightsd.Core

open Lifx

inductive Reply
  | result (ok : Bool)
  | couldNotAllocateTag
  deriving DecidableEq

/-- A text copied into a zeroed label of 32 bytes. -/
def padLabel (label : List UInt8) : Lifx.Label := Vector.ofFn (fun i => label.getD i.val 0)

/-- The value of a tag id after it went through an int. -/
def intTagValue (id : ℕ) : TagMask := ((tagIdToValue id).setWidth 32).signExtend 64

end Lightsd.Core

namespace Lightsd.Lifx.Daemon

open Lightsd.Core

def sendResult (s : Daemon × Bool) : Daemon × Reply := (s.1,.result s.2)

def protoPowerOn (d : Daemon) (now : Time) (targets : List TargetName) : Daemon × Reply :=
  sendResult (d.routerSend now targets (.setPowerState powerOn))

def protoPowerOff (d : Daemon) (now : Time) (targets : List TargetName) : Daemon × Reply :=
  sendResult (d.routerSend now targets (.setPowerState powerOff))

def protoPowerToggle (d : Daemon) (now : Time) (targets : List TargetName) : Daemon × Reply :=
  let d := (d.targetsToDevices targets).foldl (fun d b =>
    d.sendToDevice now (.setPowerState (~~~(d.bulb b).state.power)) b) d
  (d,.result true)

def protoSetLightFromHsbk (d : Daemon) (now : Time) (targets : List TargetName) (color : LightColor) :
    Daemon × Reply :=
  sendResult (d.routerSend now targets (.setLightColor color))

def protoSetWaveform (d : Daemon) (now : Time) (targets : List TargetName) (waveform : Waveform) :
    Daemon × Reply :=
  sendResult (d.routerSend now targets (.setWaveform waveform))

def protoSetLabel (d : Daemon) (now : Time) (targets : List TargetName) (label : List UInt8) :
    Daemon × Reply :=
  sendResult (d.routerSend now targets (.setBulbLabel (padLabel label)))

/-- The first loop of `lgtd_proto_tag`: an id for the tag on the gateway of every
device. It stops at a gateway without a free id. -/
def allocateOnGateways (t : TagRef) (label : List UInt8) : Daemon → List BulbRef → Daemon × Bool
  | d, [] => (d,true)
  | d, b :: bs =>
    let g := (d.bulb b).gw
    match (d.gw g).getTagId t with
    | some _ => allocateOnGateways t label d bs
    | none =>
      let (d,tagId) := d.allocateTagId g (-1) label true true
      if tagId = -1 then (d,false) else allocateOnGateways t label d bs

def sendTagLabels (d : Daemon) (t : TagRef) (label : List UInt8) : Daemon :=
  (d.tag t).sites.foldl (fun d site =>
    d.sendToSite site.gw (.setTagLabels (tagIdToValue site.tagId)
      (padLabel (label.take (labelSize - 1))))) d

def sendSetTags (now : Time) (t : TagRef) (d : Daemon) (b : BulbRef) : Daemon :=
  match (d.gw (d.bulb b).gw).getTagId t with
  | none => d.fault (.missingTagId t (d.bulb b).gw)
  | some id =>
    if (d.bulb b).state.tags &&& intTagValue id = 0 then
      d.sendToDevice now (.setTags ((d.bulb b).state.tags ||| intTagValue id)) b
    else d

def abandonTag (d : Daemon) (t : TagRef) : Daemon :=
  if (d.tag t).sites.isEmpty then d.deallocateTag t
  else (d.tag t).sites.foldl (fun d site => d.deallocateTagId site.gw site.tagId) d

def protoTag (d : Daemon) (now : Time) (targets : List TargetName) (label : List UInt8) :
    Daemon × Reply :=
  let devices := d.targetsToDevices targets
  match d.findOrAllocateTag label true with
  | (d,none) => (d,.couldNotAllocateTag)
  | (d,some t) =>
    match allocateOnGateways t label d devices with
    | (d,true) => (devices.foldl (sendSetTags now t) (d.sendTagLabels t label),.result true)
    | (d,false) => (d.abandonTag t,.couldNotAllocateTag)

def sendUnsetTags (now : Time) (t : TagRef) (d : Daemon) (b : BulbRef) : Daemon :=
  match (d.gw (d.bulb b).gw).getTagId t with
  | none => d
  | some id =>
    if (d.bulb b).state.tags &&& intTagValue id = 0 then d
    else d.sendToDevice now (.setTags ((d.bulb b).state.tags &&& ~~~intTagValue id)) b

def protoUntag (d : Daemon) (now : Time) (targets : List TargetName) (label : List UInt8) :
    Daemon × Reply :=
  match d.findTag label with
  | none => (d,.result true)
  | some t => ((d.targetsToDevices targets).foldl (sendUnsetTags now t) d,.result true)

end Lightsd.Lifx.Daemon
