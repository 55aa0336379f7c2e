import Lightsd.Core.Router

/-! # Gateways

Opening and closing gateways, the bulbs behind them, the reference counts of tag ids
and the table that maps tag ids to tags. Loops over lists that shrink while they run
are folds over the list as it is when the loop starts.
-/
namespace Lightsd.Lifx

/-- Which allocations succeed while an event is handled. -/
structure Env where
  gatewayOk : Bool := true
  bulbOk : Bool := true
  tagOk : ℕ → Bool := fun _ => true
  siteOk : ℕ → Bool := fun _ => true

namespace Gateway

def latency (gw : Gateway) : Time :=
  if gw.lastReqAt < gw.lastPktAt then gw.lastPktAt - gw.lastReqAt else 0

def setRefcount (gw : Gateway) (id : ℕ) (n : UInt8) : Gateway :=
  { gw with tagRefcounts := Function.update gw.tagRefcounts id n }

def removeBulb (gw : Gateway) (b : BulbRef) : Gateway := { gw with bulbs := gw.bulbs.erase b }

def insertBulb (gw : Gateway) (b : BulbRef) : Gateway := { gw with bulbs := b :: gw.bulbs }

def setTag (gw : Gateway) (id : ℕ) (t : TagRef) : Gateway :=
  { gw with tagIds := gw.tagIds ||| tagIdToValue id, tags := Function.update gw.tags id (some t) }

def clearTag (gw : Gateway) (id : ℕ) : Gateway :=
  { gw with tagIds := gw.tagIds &&& ~~~tagIdToValue id, tags := Function.update gw.tags id none }

def getTagId (gw : Gateway) (t : TagRef) : Option ℕ :=
  (foreachTagId gw.tagIds).find? (fun id => gw.tags id = some t)

end Gateway

namespace Daemon

def addTagRef (g : GatewayRef) (d : Daemon) (id : ℕ) : Daemon :=
  if (d.gw g).tagRefcounts id ≠ 255 then
    d.modifyGw g (fun gw => gw.setRefcount id (gw.tagRefcounts id + 1))
  else d

def releaseTagRef (g : GatewayRef) (d : Daemon) (id : ℕ) : Daemon :=
  let d := d.check (0 < (d.gw g).tagRefcounts id) (.zeroRefcount g id)
  d.modifyGw g (fun gw => gw.setRefcount id (gw.tagRefcounts id - 1))

/-- A tag id that is no longer used is deleted on the bulbs of the site. -/
def dropTagRef (g : GatewayRef) (d : Daemon) (id : ℕ) : Daemon :=
  let d := releaseTagRef g d id
  if (d.gw g).tagRefcounts id = 0 then
    d.sendToSite g
      (.setTagLabels (~~~((d.gw g).tagIds &&& ~~~tagIdToValue id)) (Vector.replicate 32 0))
  else d

def updateTagRefcounts (d : Daemon) (g : GatewayRef) (bulbTags pktTags : TagMask) : Daemon :=
  let changes := bulbTags ^^^ pktTags
  let addedTags := changes &&& pktTags
  let removedTags := changes &&& bulbTags
  let d := (foreachTagId addedTags).foldl (addTagRef g) d
  (foreachTagId removedTags).foldl (dropTagRef g) d

def removeAndCloseBulb (d : Daemon) (g : GatewayRef) (b : BulbRef) : Daemon :=
  let d := (foreachTagId (d.bulb b).state.tags).foldl (releaseTagRef g) d
  let d := d.modifyGw g (·.removeBulb b)
  d.bulbClose b

def releaseTag (g : GatewayRef) (d : Daemon) (id : ℕ) : Daemon :=
  match (d.gw g).tags id with
  | some t => d.decref t g
  | none => d

def gatewayClose (d : Daemon) (g : GatewayRef) : Daemon :=
  let d := d.statsAdd .gateways (-1)
  let d := { d with gateways := d.gateways.erase g }
  let d := (List.range maxTags).foldl (releaseTag g) d
  (d.gw g).bulbs.foldl (removeAndCloseBulb · g ·) d

def gatewayCloseAll (d : Daemon) : Daemon := d.gateways.foldl gatewayClose d

def gatewayGet (d : Daemon) (peer : SockAddr) : Option GatewayRef :=
  d.gateways.find? (fun g => (d.gw g).peer = peer)

def gatewayOpen (d : Daemon) (peer : SockAddr) (site : Addr) (receivedAt : Time) : Daemon :=
  let d := { d with
    gw := Function.update d.gw d.nextGw (.opened peer site receivedAt)
    nextGw := d.nextGw + 1
    gateways := d.nextGw :: d.gateways }
  d.statsAdd .gateways 1

def getOrOpenBulb (d : Daemon) (g : GatewayRef) (addr : Addr) (now : Time) (bulbOk : Bool) :
    Daemon × Option BulbRef :=
  match d.bulbGet addr with
  | some b => (d,some b)
  | none =>
    if bulbOk then
      ((d.bulbOpen g addr now).modifyGw g (·.insertBulb d.nextBulb),some d.nextBulb)
    else (d,none)

def sendGetAllLightState (d : Daemon) (g : GatewayRef) : Daemon :=
  let d := d.sendToSite g .getLightState
  let d := d.sendToSite g (.getTagLabels (BitVec.allOnes 64))
  d.modifyGw g (fun gw => { gw with pendingRefreshReq := true })

/-- Without an id, the first free one is taken. -/
def allocateTagId (d : Daemon) (g : GatewayRef) (tagId : ℤ) (label : List UInt8)
    (tagOk siteOk : Bool) : Daemon × ℤ :=
  let tagId := if tagId = -1 then bitscan64Forward (~~~(d.gw g).tagIds) else tagId
  if tagId = -1 then (d,-1)
  else if hasTagId (d.gw g).tagIds tagId.toNat then (d,tagId)
  else
    match d.incref label g tagId.toNat tagOk siteOk with
    | (d,none) => (d,-1)
    | (d,some t) => (d.modifyGw g (·.setTag tagId.toNat t),tagId)

def deallocateTagId (d : Daemon) (g : GatewayRef) (id : ℕ) : Daemon :=
  if hasTagId (d.gw g).tagIds id then
    let d := match (d.gw g).tags id with
      | some t => d.decref t g
      | none => d.fault (.nullTag g id)
    d.modifyGw g (·.clearTag id)
  else d

end Daemon
end Lightsd.Lifx
