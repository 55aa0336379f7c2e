import Lightsd.Lifx.DevicePartition
import Lightsd.Lifx.Discovery

/-! # How the daemon changes the registry of devices

Every packet, every closing and every pass of the watchdog is a sequence of elementary
operations, after which the tags of one bulb may be set.
-/
namespace Lightsd.Lifx

namespace Devices

def Transition (r r' : Devices) : Prop :=
  ∃ mid, Ops r mid ∧ (r' = mid ∨ ∃ b tags, b ∈ mid.bulbs ∧ r' = mid.setTags b tags)

theorem Transition.refl (r : Devices) : Transition r r := ⟨r,Relation.ReflTransGen.refl,Or.inl rfl⟩

theorem Transition.of_ops {r r' : Devices} (h : Ops r r') : Transition r r' := ⟨r',h,Or.inl rfl⟩

theorem Transition.after {r r₁ r₂ : Devices} (h : Ops r r₁) (h' : Transition r₁ r₂) :
    Transition r r₂ := by
  obtain ⟨mid,hmid,hlast⟩ := h'
  exact ⟨mid,h.trans hmid,hlast⟩

theorem Transition.partition {r r' : Devices} (hp : r.Partition) (h : Transition r r') :
    r'.Partition := by
  obtain ⟨mid,hmid,hlast⟩ := h
  have hpmid := hp.ops hmid
  rcases hlast with rfl | ⟨b,tags,_,rfl⟩
  · exact hpmid
  · exact hpmid.setTags b tags

/-- Closing the bulbs of a gateway one by one leaves its list empty. -/
theorem ops_closeBulbs {r : Devices} {g : GatewayRef} {l : List BulbRef} (hp : r.Partition)
    (hg : g ∈ r.gateways) (hl : r.members g = l) :
    Ops r (l.foldl (fun r b => r.closeBulb g b) r) ∧
    (l.foldl (fun r b => r.closeBulb g b) r).members g = [] ∧
    g ∈ (l.foldl (fun r b => r.closeBulb g b) r).gateways := by
  induction l generalizing r with
  | nil => exact ⟨Relation.ReflTransGen.refl,hl,hg⟩
  | cons b l ih =>
    have hb : b ∈ r.members g := hl ▸ List.mem_cons_self
    have hop : r.Op (r.closeBulb g b) := by
      have howner := hp.member_owner hg hb
      have hclose := Op.closeBulb (r := r) b (hp.member_bulb hg hb)
      rwa [howner] at hclose
    have hmem : (r.closeBulb g b).members g = l := by
      rw [closeBulb_eq]
      simp only [Function.update_self,hl,List.erase_cons_head]
    have hgw : g ∈ (r.closeBulb g b).gateways := by
      rw [closeBulb_eq]
      exact hg
    obtain ⟨hops,hempty,hlive⟩ := ih (hp.op hop) hgw hmem
    exact ⟨Relation.ReflTransGen.head hop hops,hempty,hlive⟩

theorem ops_closeGateway {r : Devices} {g : GatewayRef} (hp : r.Partition) (hg : g ∈ r.gateways) :
    Ops r (r.closeGateway g) := by
  obtain ⟨hops,hempty,hlive⟩ := ops_closeBulbs hp hg rfl
  exact hops.tail (Op.dropGateway g hlive hempty)

theorem closeGateway_gateways {r : Devices} {g : GatewayRef} :
    (r.closeGateway g).gateways = r.gateways.erase g := by
  have hkeeps : ∀ (l : List BulbRef) (r : Devices),
      (l.foldl (fun r b => r.closeBulb g b) r).gateways = r.gateways := by
    intro l
    induction l with
    | nil => exact fun r => rfl
    | cons b l ih =>
      intro r
      rw [List.foldl_cons,ih,closeBulb_eq]
  simp only [closeGateway,dropGateway,count,hkeeps]

end Devices

namespace Daemon

open Devices

/-- A pass over the bulb table that closes some of the bulbs. -/
theorem ops_closeSome {f : Daemon → BulbRef → Daemon}
    (hf : ∀ d b, f d b = d ∨ f d b = d.removeAndCloseBulb (d.bulb b).gw b) {l : List BulbRef}
    {d : Daemon} (hp : d.devices.Partition) (hl : l.Nodup) (hmem : ∀ b ∈ l, b ∈ d.bulbs) :
    Ops d.devices (l.foldl f d).devices := by
  induction l generalizing d with
  | nil => exact Relation.ReflTransGen.refl
  | cons b l ih =>
    obtain ⟨hb,hl⟩ := List.nodup_cons.mp hl
    rw [List.foldl_cons]
    rcases hf d b with heq | heq
    · rw [heq]
      exact ih hp hl (fun x hx => hmem x (List.mem_cons_of_mem _ hx))
    · have hdev : (f d b).devices = d.devices.closeBulb (d.devices.owner b) b := by
        rw [heq,devices_removeAndCloseBulb]
        rfl
      have hop : d.devices.Op (f d b).devices := by
        rw [hdev]
        exact Op.closeBulb b (hmem b List.mem_cons_self)
      have hbulbs : (f d b).bulbs = d.bulbs.erase b := by
        have hproj := congrArg Devices.bulbs hdev
        rwa [closeBulb_eq] at hproj
      refine Relation.ReflTransGen.head hop (ih (hp.op hop) hl (fun x hx => ?_))
      have hne : x ≠ b := fun e => hb (e ▸ hx)
      rw [hbulbs,List.mem_erase_of_ne hne]
      exact hmem x (List.mem_cons_of_mem _ hx)

theorem gatewayClose_gateways (d : Daemon) (g : GatewayRef) :
    (d.gatewayClose g).gateways = d.gateways.erase g := by
  have hdev := devices_gatewayClose d g
  generalize d.gatewayClose g = d' at hdev ⊢
  exact (congrArg Devices.gateways hdev).trans closeGateway_gateways

/-- A pass over the gateways that closes some of them. -/
theorem ops_closeSomeGateways {f : Daemon → GatewayRef → Daemon}
    (hf : ∀ d g, f d g = d ∨ f d g = d.gatewayClose g) {l : List GatewayRef}
    {d : Daemon} (hp : d.devices.Partition) (hl : l.Nodup) (hmem : ∀ g ∈ l, g ∈ d.gateways) :
    Ops d.devices (l.foldl f d).devices := by
  induction l generalizing d with
  | nil => exact Relation.ReflTransGen.refl
  | cons g l ih =>
    obtain ⟨hg,hl⟩ := List.nodup_cons.mp hl
    rw [List.foldl_cons]
    rcases hf d g with heq | heq
    · rw [heq]
      exact ih hp hl (fun x hx => hmem x (List.mem_cons_of_mem _ hx))
    · have hdev : (f d g).devices = d.devices.closeGateway g := by
        rw [heq,devices_gatewayClose]
      have hops : Ops d.devices (f d g).devices := by
        rw [hdev]
        exact ops_closeGateway hp (hmem g List.mem_cons_self)
      have hgws : (f d g).gateways = d.gateways.erase g := by
        rw [heq,gatewayClose_gateways]
      refine hops.trans (ih (hp.ops hops) hl (fun x hx => ?_))
      have hne : x ≠ g := fun e => hg (e ▸ hx)
      rw [hgws,List.mem_erase_of_ne hne]
      exact hmem x (List.mem_cons_of_mem _ hx)

theorem ops_gatewayClose {d : Daemon} {g : GatewayRef} (hp : d.devices.Partition)
    (hg : g ∈ d.gateways) : Ops d.devices (d.gatewayClose g).devices := by
  rw [devices_gatewayClose]
  exact ops_closeGateway hp hg

theorem ops_gatewayCloseAll {d : Daemon} (hp : d.devices.Partition) :
    Ops d.devices d.gatewayCloseAll.devices :=
  ops_closeSomeGateways (fun _ _ => Or.inr rfl) hp hp.gateways_nodup (fun _ hg => hg)

theorem watchdogBulb_cases (now : Time) (d : Daemon) (b : BulbRef) :
    watchdogBulb now d b = d ∨ watchdogBulb now d b = d.removeAndCloseBulb (d.bulb b).gw b := by
  unfold watchdogBulb
  split
  · exact Or.inr rfl
  · exact Or.inl rfl

theorem watchdogGateway_cases (now : Time) (d : Daemon) (g : GatewayRef) :
    watchdogGateway now d g = d ∨ watchdogGateway now d g = d.gatewayClose g := by
  unfold watchdogGateway
  split
  · exact Or.inr rfl
  · exact Or.inl rfl

theorem ops_watchdog {d : Daemon} (now : Time) (hp : d.devices.Partition) :
    Ops d.devices (d.watchdog now).devices := by
  have hbulbs := ops_closeSome (watchdogBulb_cases now) hp hp.bulbs_nodup (fun _ hb => hb)
  have hp' := hp.ops hbulbs
  exact hbulbs.trans (ops_closeSomeGateways (watchdogGateway_cases now) hp' hp'.gateways_nodup (fun _ hg => hg))

theorem mem_of_bulbGet {d : Daemon} {addr : Addr} {b : BulbRef} (h : d.bulbGet addr = some b) :
    b ∈ d.bulbs := List.mem_of_find?_eq_some h

theorem new_of_bulbGet {d : Daemon} {addr : Addr} (h : d.bulbGet addr = none) :
    ∀ b ∈ d.devices.bulbs, d.devices.addr b ≠ addr := by
  intro b hb
  have hne := List.find?_eq_none.mp h b hb
  exact of_decide_eq_false (Bool.eq_false_iff.mpr hne)

theorem mem_of_gatewayGet {d : Daemon} {peer : SockAddr} {g : GatewayRef}
    (h : d.gatewayGet peer = some g) : g ∈ d.gateways := List.mem_of_find?_eq_some h

theorem new_of_gatewayGet {d : Daemon} {peer : SockAddr} (h : d.gatewayGet peer = none) :
    ∀ g ∈ d.devices.gateways, d.devices.peer g ≠ peer := by
  intro g hg
  have hne := List.find?_eq_none.mp h g hg
  exact of_decide_eq_false (Bool.eq_false_iff.mpr hne)

theorem mem_openBulb {d : Daemon} (hp : d.devices.Partition) {g : GatewayRef} {addr : Addr}
    (h : d.bulbGet addr = none) : d.nextBulb ∈ (d.devices.openBulb g addr).bulbs :=
  (hp.insertBulb_perm (new_of_bulbGet h)).mem_iff.mpr List.mem_cons_self

/-- What the lookup of a bulb does, and that the bulb it gives is in the table. -/
theorem getOrOpenBulb_cases {d : Daemon} {g : GatewayRef} (addr : Addr) (now : Time) (ok : Bool)
    (hp : d.devices.Partition) (hg : g ∈ d.gateways) :
    Ops d.devices (d.getOrOpenBulb g addr now ok).1.devices ∧
    (d.getOrOpenBulb g addr now ok).1.tagging = d.tagging ∧
    ∀ b, (d.getOrOpenBulb g addr now ok).2 = some b → b ∈ (d.getOrOpenBulb g addr now ok).1.bulbs := by
  unfold getOrOpenBulb
  cases h : d.bulbGet addr with
  | some b =>
    refine ⟨Relation.ReflTransGen.refl,rfl,?_⟩
    rintro _ ⟨⟩
    exact mem_of_bulbGet h
  | none =>
    cases ok with
    | false =>
      refine ⟨Relation.ReflTransGen.refl,rfl,?_⟩
      rintro _ ⟨⟩
    | true =>
      have hdev := devices_openBulb d g addr now
      refine ⟨?_,tagging_openBulb d g addr now,?_⟩
      · simp only [if_true,hdev]
        exact Relation.ReflTransGen.single (Op.openBulb g addr hg (new_of_bulbGet h))
      · rintro _ ⟨⟩
        have hmem := mem_openBulb (g := g) hp h
        rwa [← hdev] at hmem

theorem transition_withBulb {d : Daemon} {now : Time} {g : GatewayRef} {addr : Addr} {env : Env}
    {f : Daemon → BulbRef → Daemon} (hp : d.devices.Partition) (hg : g ∈ d.gateways)
    (hf : ∀ d b, b ∈ d.bulbs → Transition d.devices (f d b).devices) :
    Transition d.devices (d.withBulb now g addr env f).devices := by
  obtain ⟨hops,_,hmem⟩ := getOrOpenBulb_cases addr now env.bulbOk hp hg
  rcases d.withBulb_cases now g addr env f with heq | ⟨b,hb,heq⟩
  · rw [heq]
    exact Transition.of_ops hops
  · rw [heq]
    exact (hf _ b (hmem b hb)).after hops

theorem transition_setLightState {d : Daemon} {now : Time} {b : BulbRef} {state : LightState}
    {receivedAt : Time} (hb : b ∈ d.bulbs) (hpower : state.power = powerOff ∨ state.power = powerOn) :
    Transition d.devices (d.setLightState now b state receivedAt).devices := by
  rw [devices_setLightState]
  refine ⟨_,Relation.ReflTransGen.single (Op.setPower b state.power hb hpower),
    Or.inr ⟨b,state.tags,?_,rfl⟩⟩
  rw [setPower_eq]
  exact hb

theorem transition_handleLightStatus {d : Daemon} {now : Time} {g : GatewayRef} {addr : Addr}
    {env : Env} {state : LightState} (hp : d.devices.Partition) (hg : g ∈ d.gateways)
    (hpower : state.power = powerOff ∨ state.power = powerOn) :
    Transition d.devices (d.handleLightStatus now g addr env state).devices := by
  obtain ⟨hops,_,hmem⟩ := getOrOpenBulb_cases addr now env.bulbOk hp hg
  unfold handleLightStatus
  generalize d.getOrOpenBulb g addr now env.bulbOk = s at hops hmem
  obtain ⟨d',o⟩ := s
  cases o with
  | none => exact Transition.of_ops hops
  | some b =>
    simp only
    rw [(silent_refreshIfSlow _ g).devices,(silent_confirmPower _ now b).devices]
    exact (transition_setLightState (hmem b rfl) hpower).after hops

theorem transition_report {d : Daemon} {now : Time} {g : GatewayRef} {addr : Addr} {env : Env}
    {f : Daemon → Bulb → Bulb} (hp : d.devices.Partition) (hg : g ∈ d.gateways)
    (hf : ∀ d, Report (f d)) :
    Transition d.devices (d.withBulb now g addr env (fun d b => d.modifyBulb b (f d))).devices := by
  refine transition_withBulb hp hg (fun d b _ => ?_)
  rw [((hf d).silent d b).devices]
  exact Transition.refl _

theorem transition_handleIpState {d : Daemon} {now : Time} {g : GatewayRef} {hdr : Header}
    {env : Env} {pkt : IpState} (hp : d.devices.Partition) (hg : g ∈ d.gateways) :
    Transition d.devices (d.handleIpState now g hdr env pkt).devices := by
  unfold handleIpState
  split
  · exact transition_report hp hg (fun d => report_setIpState _ _ _)
  · split
    · exact transition_report hp hg (fun d => report_setIpState _ _ _)
    · rw [devices_fault (by simp) rfl]
      exact Transition.refl _

theorem transition_handleIpFirmwareInfo {d : Daemon} {now : Time} {g : GatewayRef} {hdr : Header}
    {env : Env} {pkt : IpFirmwareInfo} (hp : d.devices.Partition) (hg : g ∈ d.gateways) :
    Transition d.devices (d.handleIpFirmwareInfo now g hdr env pkt).devices := by
  unfold handleIpFirmwareInfo
  split
  · exact transition_report hp hg (fun d => report_setIpFirmwareInfo _ _ _)
  · split
    · exact transition_report hp hg (fun d => report_setIpFirmwareInfo _ _ _)
    · rw [devices_fault (by simp) rfl]
      exact Transition.refl _

theorem transition_handle {d : Daemon} {now : Time} {g : GatewayRef} {handler : Handler}
    {hdr : Header} {pkt : Buffer} {env : Env} (hp : d.devices.Partition) (hg : g ∈ d.gateways) :
    Transition d.devices (d.handle now g handler hdr pkt env).devices := by
  cases handler with
  | null => exact Transition.refl _
  | enosys => exact Transition.refl _
  | panGateway => exact Transition.refl _
  | lightStatus => exact transition_handleLightStatus hp hg (clampPower_cases _)
  | powerState =>
    refine transition_withBulb hp hg (fun d b hb => ?_)
    rw [devices_setPowerState]
    exact Transition.of_ops (Relation.ReflTransGen.single
      (Op.setPower b _ hb (clampPower_cases _)))
  | tagLabels =>
    have hsame : (d.handleTagLabels g env (decodeTagLabels pkt)).devices = d.devices :=
      devices_tags.handleTagLabels (Set.mem_univ _) d g env
    rw [handle,hsame]
    exact Transition.refl _
  | tags =>
    refine transition_withBulb hp hg (fun d b hb => ?_)
    rw [devices_setTags]
    exact ⟨_,Relation.ReflTransGen.refl,Or.inr ⟨b,_,hb,rfl⟩⟩
  | ipState => exact transition_handleIpState hp hg
  | ipFirmwareInfo => exact transition_handleIpFirmwareInfo hp hg
  | productInfo => exact transition_report hp hg (fun d => report_setProductInfo _)
  | runtimeInfo => exact transition_report hp hg (fun d => report_setRuntimeInfo _ _)
  | bulbLabel => exact transition_report hp hg (fun d => report_setLabel _)
  | ambientLight => exact transition_report hp hg (fun d => report_setAmbientLight _)

theorem silent_noteTraffic (d : Daemon) (now : Time) (g : GatewayRef) (info : PacketInfo) :
    Silent d (if info.handle ≠ .enosys then
      d.modifyGw g (fun gw => { gw with lastPktAt := now }) else d) :=
  silent_ite (silent_modifyGw rfl rfl rfl rfl rfl) (Silent.refl d)

/-- A handler runs after its packet has been noted. -/
theorem exists_dispatch (d : Daemon) (now : Time) (g : GatewayRef) (info : PacketInfo) (hdr : Header) (pkt : Buffer)
    (env : Env) : ∃ d', Silent d d' ∧ d.dispatch now g info hdr pkt env = d'.handle now g info.handle hdr pkt env :=
  ⟨_,silent_noteTraffic d now g info,rfl⟩

theorem transition_dispatch {d : Daemon} {now : Time} {g : GatewayRef} {info : PacketInfo}
    {hdr : Header} {pkt : Buffer} {env : Env} (hp : d.devices.Partition) (hg : g ∈ d.gateways) :
    Transition d.devices (d.dispatch now g info hdr pkt env).devices := by
  obtain ⟨d',hsilent,heq⟩ := exists_dispatch d now g info hdr pkt env
  have hgw : d'.gateways = d.gateways := congrArg Devices.gateways hsilent.devices
  rw [heq]
  rw [← hsilent.devices] at hp ⊢
  exact transition_handle hp (hgw ▸ hg)

theorem transition_handlePacket {d : Daemon} {now : Time} {gw : Option GatewayRef}
    {peer : SockAddr} {info : PacketInfo} {hdr : Header} {pkt : Buffer} {env : Env}
    (hp : d.devices.Partition) (hg : ∀ g, gw = some g → g ∈ d.gateways) :
    Transition d.devices (d.handlePacket now gw peer info hdr pkt env).devices := by
  unfold handlePacket
  cases gw with
  | some g =>
    have hsilent : Silent d (d.check ((d.gw g).peer = peer) (.peerMismatch g)) :=
      silent_check (by simp) rfl rfl
    simp only
    generalize d.check ((d.gw g).peer = peer) (.peerMismatch g) = d' at hsilent
    have hgw : d'.gateways = d.gateways := congrArg Devices.gateways hsilent.devices
    rw [← hsilent.devices] at hp ⊢
    exact transition_dispatch hp (hgw ▸ hg g rfl)
  | none =>
    cases hget : d.gatewayGet peer with
    | some g => exact transition_dispatch hp (mem_of_gatewayGet hget)
    | none =>
      simp only
      split
      · have hdev := devices_gatewayOpen d peer hdr.site now
        have hop : d.devices.Op (d.gatewayOpen peer hdr.site now).devices := by
          rw [hdev]
          exact Op.openGateway peer (new_of_gatewayGet hget)
        have hmem : d.nextGw ∈ (d.gatewayOpen peer hdr.site now).gateways := by
          have hgws := congrArg Devices.gateways hdev
          have hcons : d.nextGw ∈ (d.devices.openGateway peer).gateways := List.mem_cons_self
          rwa [← hgws] at hcons
        exact (transition_dispatch (hp.op hop) hmem).after (Relation.ReflTransGen.single hop)
      · exact Transition.refl _

theorem transition_handleReceive {d : Daemon} (now : Time) (gw : Option GatewayRef)
    (dg : Datagram) (env : Env) (hp : d.devices.Partition) (hg : ∀ g, gw = some g → g ∈ d.gateways) :
    Transition d.devices (d.handleReceive now gw dg env).1.devices ∧
    ((d.handleReceive now gw dg env).2 = false → (d.handleReceive now gw dg env).1 = d) := by
  unfold handleReceive
  cases dg.receive with
  | error => exact ⟨Transition.refl _,fun _ => rfl⟩
  | ignored => exact ⟨Transition.refl _,fun _ => rfl⟩
  | packet info hdr => exact ⟨transition_handlePacket hp hg,fun h => by cases h⟩

end Daemon
end Lightsd.Lifx
