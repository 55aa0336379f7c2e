import Lightsd.Core.RouterRules
import Lightsd.Lifx.Receive

/-! # Two views of the state

The devices the daemon knows with what is counted about them, and the tags it knows
with the ids they have on the gateways. Sending packets, noting times and storing
what bulbs report about themselves shows in neither view.
-/
namespace Lightsd.Lifx

namespace Fault

def isRefcount : Fault → Bool
  | zeroRefcount .. | recount .. | bulbStillListed _ => true
  | _ => false

def isTagging : Fault → Bool
  | siteTagId .. | sitesLeft _ | freedTag _ | nullTag .. | longLabel _ => true
  | _ => false

end Fault

/-- Gateways and bulbs, their statistics and the reference counts of tag ids. -/
structure Devices where
  gateways : List GatewayRef
  nextGw : GatewayRef
  peer : GatewayRef → SockAddr
  members : GatewayRef → List BulbRef
  refcounts : GatewayRef → ℕ → UInt8
  bulbs : List BulbRef
  nextBulb : BulbRef
  addr : BulbRef → Addr
  owner : BulbRef → GatewayRef
  power : BulbRef → UInt16
  tags : BulbRef → TagMask
  counters : Stats
  statsOk : Prop
  refcountsOk : Prop

/-- Tags, their sites and the tag tables of the gateways. -/
structure Tagging where
  gateways : List GatewayRef
  nextGw : GatewayRef
  tagIds : GatewayRef → TagMask
  table : GatewayRef → ℕ → Option TagRef
  tags : List TagRef
  nextTag : TagRef
  tag : TagRef → Tag
  ok : Prop

namespace Daemon

def devices (d : Daemon) : Devices where
  gateways := d.gateways
  nextGw := d.nextGw
  peer := fun g => (d.gw g).peer
  members := fun g => (d.gw g).bulbs
  refcounts := fun g => (d.gw g).tagRefcounts
  bulbs := d.bulbs
  nextBulb := d.nextBulb
  addr := fun b => (d.bulb b).addr
  owner := fun b => (d.bulb b).gw
  power := fun b => (d.bulb b).state.power
  tags := fun b => (d.bulb b).state.tags
  counters := d.counters
  statsOk := Fault.negativeCounter ∉ d.faults
  refcountsOk := ∀ f ∈ d.faults, ¬ f.isRefcount

def tagging (d : Daemon) : Tagging where
  gateways := d.gateways
  nextGw := d.nextGw
  tagIds := fun g => (d.gw g).tagIds
  table := fun g => (d.gw g).tags
  tags := d.tags
  nextTag := d.nextTag
  tag := d.tag
  ok := ∀ f ∈ d.faults, ¬ f.isTagging

/-- Nothing that either view shows has changed. -/
structure Silent (d d' : Daemon) : Prop where
  devices : d'.devices = d.devices
  tagging : d'.tagging = d.tagging

namespace Silent

theorem refl (d : Daemon) : Silent d d := ⟨rfl,rfl⟩

theorem trans {d d' d'' : Daemon} (h : Silent d d') (h' : Silent d' d'') : Silent d d'' :=
  ⟨h'.devices.trans h.devices,h'.tagging.trans h.tagging⟩

theorem foldl {α : Type} {f : Daemon → α → Daemon} (hf : ∀ d x, Silent d (f d x)) (d : Daemon)
    (l : List α) : Silent d (l.foldl f d) := Runs.foldl_related refl trans (fun d x _ => hf d x) d

end Silent

/-- An update of a heap cell does not show in a field it keeps. -/
theorem update_keeps {α β : Type} (π : α → β) {heap : ℕ → α} {r : ℕ} {x : α} (h : π x = π (heap r)) :
    (fun i => π (Function.update heap r x i)) = fun i => π (heap i) := by
  funext i
  by_cases hi : i = r
  · subst hi
    rw [Function.update_self,h]
  · rw [Function.update_of_ne hi]

theorem devices_modifyGw_of_eq {d : Daemon} {g : GatewayRef} {f : Gateway → Gateway}
    (hb : (f (d.gw g)).bulbs = (d.gw g).bulbs) (hp : (f (d.gw g)).peer = (d.gw g).peer)
    (hr : (f (d.gw g)).tagRefcounts = (d.gw g).tagRefcounts) :
    (d.modifyGw g f).devices = d.devices := by
  simp only [devices,modifyGw,update_keeps Gateway.bulbs hb,update_keeps Gateway.peer hp,
    update_keeps Gateway.tagRefcounts hr]

theorem tagging_modifyGw_of_eq {d : Daemon} {g : GatewayRef} {f : Gateway → Gateway}
    (hi : (f (d.gw g)).tagIds = (d.gw g).tagIds) (ht : (f (d.gw g)).tags = (d.gw g).tags) :
    (d.modifyGw g f).tagging = d.tagging := by
  simp only [tagging,modifyGw,update_keeps Gateway.tagIds hi,update_keeps Gateway.tags ht]

theorem silent_modifyGw {d : Daemon} {g : GatewayRef} {f : Gateway → Gateway}
    (hb : (f (d.gw g)).bulbs = (d.gw g).bulbs) (hp : (f (d.gw g)).peer = (d.gw g).peer)
    (hr : (f (d.gw g)).tagRefcounts = (d.gw g).tagRefcounts)
    (hi : (f (d.gw g)).tagIds = (d.gw g).tagIds) (ht : (f (d.gw g)).tags = (d.gw g).tags) :
    Silent d (d.modifyGw g f) :=
  ⟨devices_modifyGw_of_eq hb hp hr,tagging_modifyGw_of_eq hi ht⟩

theorem silent_modifyBulb {d : Daemon} {b : BulbRef} {f : Bulb → Bulb}
    (ha : (f (d.bulb b)).addr = (d.bulb b).addr) (hg : (f (d.bulb b)).gw = (d.bulb b).gw)
    (hp : (f (d.bulb b)).state.power = (d.bulb b).state.power)
    (ht : (f (d.bulb b)).state.tags = (d.bulb b).state.tags) : Silent d (d.modifyBulb b f) := by
  constructor
  · simp only [devices,modifyBulb,update_keeps Bulb.addr ha,update_keeps Bulb.gw hg,
      update_keeps (fun x : Bulb => x.state.power) hp,
      update_keeps (fun x : Bulb => x.state.tags) ht]
  · rfl

/-- A change of a bulb that neither view shows. -/
structure Report (f : Bulb → Bulb) : Prop where
  addr : ∀ b, (f b).addr = b.addr
  gw : ∀ b, (f b).gw = b.gw
  power : ∀ b, (f b).state.power = b.state.power
  tags : ∀ b, (f b).state.tags = b.state.tags

theorem Report.silent {f : Bulb → Bulb} (h : Report f) (d : Daemon) (b : BulbRef) :
    Silent d (d.modifyBulb b f) := silent_modifyBulb (h.addr _) (h.gw _) (h.power _) (h.tags _)

theorem report_setIpState (ip : BulbIpId) (state : IpState) (receivedAt : Time) :
    Report (·.setIpState ip state receivedAt) :=
  ⟨fun _ => rfl,fun _ => rfl,fun _ => rfl,fun _ => rfl⟩

theorem report_setIpFirmwareInfo (ip : BulbIpId) (info : IpFirmwareInfo) (receivedAt : Time) :
    Report (·.setIpFirmwareInfo ip info receivedAt) :=
  ⟨fun _ => rfl,fun _ => rfl,fun _ => rfl,fun _ => rfl⟩

theorem report_setProductInfo (info : ProductInfo) : Report (·.setProductInfo info) :=
  ⟨fun _ => rfl,fun _ => rfl,fun _ => rfl,fun _ => rfl⟩

theorem report_setRuntimeInfo (info : RuntimeInfo) (receivedAt : Time) :
    Report (·.setRuntimeInfo info receivedAt) :=
  ⟨fun _ => rfl,fun _ => rfl,fun _ => rfl,fun _ => rfl⟩

theorem report_setLabel (label : Label) : Report (·.setLabel label) :=
  ⟨fun _ => rfl,fun _ => rfl,fun _ => rfl,fun _ => rfl⟩

theorem report_setAmbientLight (illuminance : UInt32) : Report (·.setAmbientLight illuminance) :=
  ⟨fun _ => rfl,fun _ => rfl,fun _ => rfl,fun _ => rfl⟩

theorem devices_fault {d : Daemon} {f : Fault} (hn : f ≠ .negativeCounter) (hr : f.isRefcount = false) :
    (d.fault f).devices = d.devices := by
  simp [devices,fault,or_imp,forall_and,hn.symm,hr]

theorem tagging_fault {d : Daemon} {f : Fault} (ht : f.isTagging = false) :
    (d.fault f).tagging = d.tagging := by
  simp [tagging,fault,or_imp,forall_and,ht]

theorem devices_check {d : Daemon} {c : Bool} {f : Fault} (hn : f ≠ .negativeCounter)
    (hr : f.isRefcount = false) : (d.check c f).devices = d.devices := by
  cases c with
  | false => exact devices_fault hn hr
  | true => rfl

theorem tagging_check {d : Daemon} {c : Bool} {f : Fault} (ht : f.isTagging = false) :
    (d.check c f).tagging = d.tagging := by
  cases c with
  | false => exact tagging_fault ht
  | true => rfl

theorem silent_check {d : Daemon} {c : Bool} {f : Fault} (hn : f ≠ .negativeCounter)
    (hr : f.isRefcount = false) (ht : f.isTagging = false) : Silent d (d.check c f) :=
  ⟨devices_check hn hr,tagging_check ht⟩

theorem silent_ite {d d' d'' : Daemon} {p : Prop} [Decidable p] (h' : Silent d d')
    (h'' : Silent d d'') : Silent d (if p then d' else d'') := by
  split
  · exact h'
  · exact h''

theorem enqueuePacket_keeps (gw : Gateway) (p : OutPacket) :
    (gw.enqueuePacket p).bulbs = gw.bulbs ∧ (gw.enqueuePacket p).peer = gw.peer ∧
    (gw.enqueuePacket p).tagRefcounts = gw.tagRefcounts ∧
    (gw.enqueuePacket p).tagIds = gw.tagIds ∧ (gw.enqueuePacket p).tags = gw.tags := by
  unfold Gateway.enqueuePacket
  split <;> exact ⟨rfl,rfl,rfl,rfl,rfl⟩

theorem silent_enqueue (d : Daemon) (g : GatewayRef) (target : Target) (req : Request) :
    Silent d (d.enqueue g target req) := by
  obtain ⟨hb,hp,hr,hi,ht⟩ := enqueuePacket_keeps (d.gw g)
    (req.packet d.clientId target (d.gw g).site)
  exact silent_modifyGw hb hp hr hi ht

theorem silent_sendToSite (d : Daemon) (g : GatewayRef) (req : Request) :
    Silent d (d.sendToSite g req) := silent_enqueue d g .site req

theorem expectPower_keeps (now : Time) (req : Request) (b : Bulb) :
    (Core.Bulb.expectPower now req b).addr = b.addr ∧ (Core.Bulb.expectPower now req b).gw = b.gw ∧
    (Core.Bulb.expectPower now req b).state = b.state := by
  unfold Core.Bulb.expectPower
  split <;> exact ⟨rfl,rfl,rfl⟩

theorem silent_expectPower (d : Daemon) (now : Time) (req : Request) (b : BulbRef) :
    Silent d (d.expectPower now req b) := by
  obtain ⟨ha,hg,hs⟩ := expectPower_keeps now req (d.bulb b)
  exact silent_modifyBulb ha hg (by rw [hs]) (by rw [hs])

theorem silent_router (now : Time) (req : Request) : RouterRule now req Silent where
  refl := Silent.refl
  trans := Silent.trans
  check := fun _ _ _ _ _ => silent_check (by simp) rfl rfl
  enqueue := fun d g target => silent_enqueue d g target req
  expectPower := fun d b => silent_expectPower d now req b

theorem silent_sendToDevice (d : Daemon) (now : Time) (req : Request) (b : BulbRef) :
    Silent d (d.sendToDevice now req b) := (silent_router now req).sendToDevice d b

theorem silent_routerSend (d : Daemon) (now : Time) (targets : List Core.TargetName) (req : Request) :
    Silent d (d.routerSend now targets req).1 := (silent_router now req).routerSend d targets

theorem silent_sendGetAllLightState (d : Daemon) (g : GatewayRef) :
    Silent d (d.sendGetAllLightState g) := by
  have hs := (silent_sendToSite d g .getLightState).trans
    (silent_sendToSite _ g (.getTagLabels (BitVec.allOnes 64)))
  unfold sendGetAllLightState
  exact hs.trans (silent_modifyGw rfl rfl rfl rfl rfl)

theorem silent_refreshIfSlow (d : Daemon) (g : GatewayRef) : Silent d (d.refreshIfSlow g) :=
  silent_ite (Silent.refl d) (silent_ite (Silent.refl d) (silent_sendGetAllLightState d g))

theorem silent_confirmPower (d : Daemon) (now : Time) (b : BulbRef) :
    Silent d (d.confirmPower now b) :=
  silent_ite (silent_ite (silent_modifyBulb rfl rfl rfl rfl) (silent_sendToDevice d now _ b))
    (Silent.refl d)

theorem silent_resendIf (test : Bool) (now : Time) (req : Request) (b : BulbRef) (d : Daemon) :
    Silent d (resendIf test now req b d) :=
  silent_ite (silent_sendToDevice d now req b) (Silent.refl d)

theorem silent_fetchHardwareInfo (d : Daemon) (now : Time) (addr : Addr) :
    Silent d (d.fetchHardwareInfo now addr) := by
  unfold fetchHardwareInfo
  split
  · exact Silent.refl d
  · exact ((silent_resendIf _ now _ _ d).trans (silent_resendIf _ now _ _ _)).trans
      (silent_resendIf _ now _ _ _)

theorem written_keeps (gw : Gateway) (now : Time) (r : WriteResult) :
    (gw.written now r).bulbs = gw.bulbs ∧ (gw.written now r).peer = gw.peer ∧
    (gw.written now r).tagRefcounts = gw.tagRefcounts ∧
    (gw.written now r).tagIds = gw.tagIds ∧ (gw.written now r).tags = gw.tags :=
  ⟨rfl,rfl,rfl,rfl,rfl⟩

theorem silent_written {d : Daemon} {g : GatewayRef} {now : Time} {r : WriteResult} {gw : Gateway}
    (h : (d.gw g).writeEvent now r = some gw) : Silent d (d.modifyGw g (fun _ => gw)) := by
  have hgw : gw = (d.gw g).written now r := by
    cases r with
    | error => cases h
    | wrote k =>
      cases h
      rfl
    | eagain =>
      cases h
      rfl
  subst hgw
  obtain ⟨hb,hp,hr,hi,ht⟩ := written_keeps (d.gw g) now r
  exact silent_modifyGw hb hp hr hi ht

end Daemon
end Lightsd.Lifx
