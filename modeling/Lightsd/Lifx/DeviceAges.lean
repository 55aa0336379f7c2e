import Lightsd.Lifx.DeviceTransitions
import Lightsd.Lifx.PowerConfirmation

/-! # When devices were last heard of

A bulb is dated by its last light status and a gateway by its last packet. Packets date
devices with the time they are received at, and nothing else does. A pass of the watchdog
leaves exactly the devices that are not overdue, where a bulb goes with its gateway.
-/
namespace Lightsd.Lifx

namespace Devices

variable {r : Devices}

theorem closeBulbs_bulbs (g : GatewayRef) (l : List BulbRef) (r : Devices) :
    (l.foldl (fun r b => r.closeBulb g b) r).bulbs = r.bulbs.diff l := by
  induction l generalizing r with
  | nil => rfl
  | cons b l ih => rw [List.foldl_cons,ih,closeBulb_eq,List.diff_cons]

theorem closeGateway_bulbs (g : GatewayRef) : (r.closeGateway g).bulbs = r.bulbs.diff (r.members g) :=
  closeBulbs_bulbs g (r.members g) r

/-- The bulbs of a gateway are closed with it. -/
theorem mem_closeGateway_bulbs (hp : r.Partition) {g : GatewayRef} (hg : g ∈ r.gateways) (b : BulbRef) :
    b ∈ (r.closeGateway g).bulbs ↔ b ∈ r.bulbs ∧ r.owner b ≠ g := by
  rw [closeGateway_bulbs,hp.bulbs_nodup.mem_sdiff_iff,hp.mem_members g hg b]
  tauto

end Devices

namespace Daemon

open Lightsd.Core Devices

/-- No device has been dated. -/
structure Undated (d d' : Daemon) : Prop where
  bulb : ∀ b, (d'.bulb b).lastLightStateAt = (d.bulb b).lastLightStateAt
  gw : ∀ g, (d'.gw g).lastPktAt = (d.gw g).lastPktAt

/-- Each device is dated now, or it was there before and keeps its date. -/
structure Dated (now : Time) (d d' : Daemon) : Prop where
  bulb : ∀ b ∈ d'.bulbs, (d'.bulb b).lastLightStateAt = now ∨
    b ∈ d.bulbs ∧ (d'.bulb b).lastLightStateAt = (d.bulb b).lastLightStateAt
  gw : ∀ g ∈ d'.gateways, (d'.gw g).lastPktAt = now ∨
    g ∈ d.gateways ∧ (d'.gw g).lastPktAt = (d.gw g).lastPktAt

theorem undated_of_quiet {d d' : Daemon} (h : Quiet d d') : Undated d d' :=
  ⟨fun b => by rw [h.bulb],lastPktAt_of_traffic h.traffic⟩

theorem undated_router (now : Time) (req : Request) : RouterRule now req Undated where
  refl := fun _ => ⟨fun _ => rfl,fun _ => rfl⟩
  trans := fun h h' => ⟨fun b => (h'.bulb b).trans (h.bulb b),fun g => (h'.gw g).trans (h.gw g)⟩
  check := fun d c _ _ _ => undated_of_quiet (quiet_check d c _)
  enqueue := fun _ _ _ => ⟨fun _ => rfl,
    fun x => congrFun (update_keeps Gateway.lastPktAt (enqueuePacket_logs _ _).2) x⟩
  expectPower := fun d b => by
    refine ⟨fun x => congrFun (update_keeps Bulb.lastLightStateAt ?_) x,fun _ => rfl⟩
    unfold Bulb.expectPower
    split <;> rfl

namespace Dated

variable {now : Time} {d d' d'' : Daemon}

theorem refl (d : Daemon) : Dated now d d := ⟨fun _ hb => .inr ⟨hb,rfl⟩,fun _ hg => .inr ⟨hg,rfl⟩⟩

theorem trans (h : Dated now d d') (h' : Dated now d' d'') : Dated now d d'' := by
  refine ⟨fun b hb => ?_,fun g hg => ?_⟩
  · rcases h'.bulb b hb with hnow | ⟨hb',heq⟩
    · exact .inl hnow
    · rw [heq]
      exact h.bulb b hb'
  · rcases h'.gw g hg with hnow | ⟨hg',heq⟩
    · exact .inl hnow
    · rw [heq]
      exact h.gw g hg'

theorem of_undated (h : Undated d d') (hb : d'.bulbs ⊆ d.bulbs) (hg : d'.gateways ⊆ d.gateways) :
    Dated now d d' :=
  ⟨fun b hmem => .inr ⟨hb hmem,h.bulb b⟩,fun g hmem => .inr ⟨hg hmem,h.gw g⟩⟩

/-- What does not show in the registry of devices does not add any. -/
theorem of_silent (h : Undated d d') (hdev : d'.devices = d.devices) : Dated now d d' := by
  have hb : d'.bulbs = d.bulbs := congrArg Devices.bulbs hdev
  have hg : d'.gateways = d.gateways := congrArg Devices.gateways hdev
  exact of_undated h (fun _ hmem => hb ▸ hmem) (fun _ hmem => hg ▸ hmem)

theorem of_sets {b : BulbRef} {bulb : Bulb} (h : Sets b bulb d d')
    (hlast : bulb.lastLightStateAt = now ∨ bulb.lastLightStateAt = (d.bulb b).lastLightStateAt)
    (hb : d'.bulbs = d.bulbs) (hg : d'.gateways = d.gateways) : Dated now d d' := by
  refine ⟨fun x hx => ?_,fun g hmem => .inr ⟨hg ▸ hmem,lastPktAt_of_traffic h.traffic g⟩⟩
  rw [hb] at hx
  by_cases hxb : x = b
  · subst hxb
    simpa [h.bulb,hx] using hlast
  · exact .inr ⟨hx,by rw [h.bulb,Function.update_of_ne hxb]⟩

end Dated

section Packets
variable {now : Time} {d : Daemon} {g : GatewayRef} {addr : Addr} {env : Env}

theorem mem_insertBulb {addr : BulbRef → Addr} {x b : BulbRef} {l : List BulbRef}
    (h : b ∈ insertBulb addr x l) : b = x ∨ b ∈ l := by
  induction l with
  | nil => exact .inl (List.mem_singleton.mp h)
  | cons y l ih =>
    unfold insertBulb at h
    split at h
    · exact .inr h
    · split at h
      · exact List.mem_cons.mp h
      · rcases List.mem_cons.mp h with rfl | h
        · exact .inr List.mem_cons_self
        · exact (ih h).imp_right (List.mem_cons_of_mem y)

/-- A bulb that is looked up may be new. The gateways are as they were. -/
theorem dated_getOrOpenBulb (d : Daemon) (g : GatewayRef) (addr : Addr) (now : Time) (ok : Bool) :
    Dated now d (d.getOrOpenBulb g addr now ok).1 ∧
    ∀ x, ((d.getOrOpenBulb g addr now ok).1.gw x).lastPktAt = (d.gw x).lastPktAt := by
  rcases getOrOpenBulb_spec d g addr now ok with ⟨b,-,heq⟩ | ⟨hnone,hok,d',heq,hset⟩ | ⟨-,-,heq⟩
  · rw [heq]
    exact ⟨.refl d,fun _ => rfl⟩
  · have hdev := devices_openBulb d g addr now
    have hd' : d' = (d.bulbOpen g addr now).modifyGw g (·.insertBulb d.nextBulb) := by
      simp only [getOrOpenBulb,hnone,hok,if_true,Prod.mk.injEq] at heq
      exact heq.1.symm
    rw [← hd'] at hdev
    rw [heq]
    refine ⟨⟨fun b hb => ?_,fun x hx => ?_⟩,lastPktAt_of_traffic hset.traffic⟩
    · have hb : b ∈ (d.devices.openBulb g addr).bulbs := by rwa [← hdev]
      by_cases hnew : b = d.nextBulb
      · exact .inl (by rw [hset.bulb,hnew,Function.update_self])
      · refine .inr ⟨(mem_insertBulb hb).resolve_left hnew,?_⟩
        rw [hset.bulb,Function.update_of_ne hnew]
    · have hx : x ∈ (d.devices.openBulb g addr).gateways := by rwa [← hdev]
      exact .inr ⟨hx,lastPktAt_of_traffic hset.traffic x⟩
  · rw [heq]
    exact ⟨.refl d,fun _ => rfl⟩

theorem dated_withBulb {f : Daemon → BulbRef → Daemon} (hf : ∀ d b, Dated now d (f d b)) :
    Dated now d (d.withBulb now g addr env f) := by
  obtain ⟨hopen,-⟩ := dated_getOrOpenBulb d g addr now env.bulbOk
  rcases d.withBulb_cases now g addr env f with heq | ⟨b,-,heq⟩
  · rwa [heq]
  · rw [heq]
    exact hopen.trans (hf _ b)

theorem dated_report {f : Daemon → Bulb → Bulb} (hf : ∀ d, Report (f d))
    (hlast : ∀ d b, (f d b).lastLightStateAt = b.lastLightStateAt) :
    Dated now d (d.withBulb now g addr env (fun d b => d.modifyBulb b (f d))) := by
  refine dated_withBulb (fun d b => ?_)
  have hdev := ((hf d).silent d b).devices
  exact .of_sets (sets_modifyBulb d b (f d)) (.inr (hlast d _)) (congrArg Devices.bulbs hdev)
    (congrArg Devices.gateways hdev)

theorem dated_confirmPower (d : Daemon) (now : Time) (b : BulbRef) : Dated now d (d.confirmPower now b) := by
  refine .of_silent ?_ (silent_confirmPower d now b).devices
  have hclear : Undated d (d.modifyBulb b (fun bulb => { bulb with dirtyAt := 0 })) :=
    ⟨fun x => congrFun (update_keeps (r := b) Bulb.lastLightStateAt (by rfl)) x,fun _ => rfl⟩
  unfold confirmPower
  simp only
  split
  · split
    · exact hclear
    · exact (undated_router now _).sendToDevice d b
  · exact (undated_router now .getInfo).refl d

theorem dated_setLightState (d : Daemon) (now : Time) (b : BulbRef) (state : LightState) :
    Dated now d (d.setLightState now b state now) := by
  have hdev := devices_setLightState d now b state now
  rw [setPower_eq] at hdev
  exact .of_sets (sets_setLightState d now b state now) (.inl rfl) (congrArg Devices.bulbs hdev)
    (congrArg Devices.gateways hdev)

theorem dated_handleLightStatus {state : LightState} (hnow : (d.gw g).lastPktAt = now) :
    Dated now d (d.handleLightStatus now g addr env state) := by
  obtain ⟨hopen,hgw⟩ := dated_getOrOpenBulb d g addr now env.bulbOk
  unfold handleLightStatus
  generalize d.getOrOpenBulb g addr now env.bulbOk = s at hopen hgw
  obtain ⟨d',o⟩ := s
  cases o with
  | none => exact hopen
  | some b =>
    have hreceived : (d'.gw g).lastPktAt = now := (hgw g).trans hnow
    simp only [hreceived]
    refine hopen.trans ((dated_setLightState d' now b state).trans ((dated_confirmPower _ now b).trans ?_))
    exact .of_silent (undated_of_quiet (quiet_refreshIfSlow _ g)) (silent_refreshIfSlow _ g).devices

theorem dated_setPowerState (d : Daemon) (b : BulbRef) (power : UInt16) :
    Dated now d (d.setPowerState now b power) := by
  have hdev := devices_setPowerState d now b power
  rw [setPower_eq] at hdev
  exact .of_sets (sets_setPowerState d now b power) (.inr rfl) (congrArg Devices.bulbs hdev)
    (congrArg Devices.gateways hdev)

theorem dated_setTags (d : Daemon) (b : BulbRef) (tags : TagMask) : Dated now d (d.setTags b tags) := by
  have hdev := devices_setTags d b tags
  exact .of_sets (sets_setTags d b tags) (.inr rfl) (congrArg Devices.bulbs hdev)
    (congrArg Devices.gateways hdev)

theorem lastLightStateAt_setLabel (b : Bulb) (label : Label) :
    (b.setLabel label).lastLightStateAt = b.lastLightStateAt := rfl

theorem dated_fault (d : Daemon) (f : Fault) : Dated now d (d.fault f) :=
  .of_undated (undated_of_quiet (quiet_fault d f)) (List.Subset.refl _) (List.Subset.refl _)

theorem dated_handle {handler : Handler} {hdr : Header} {pkt : Buffer}
    (hnow : handler = .lightStatus → (d.gw g).lastPktAt = now) :
    Dated now d (d.handle now g handler hdr pkt env) := by
  cases handler with
  | null | enosys | panGateway => exact .refl d
  | lightStatus => exact dated_handleLightStatus (hnow rfl)
  | powerState => exact dated_withBulb (fun d b => dated_setPowerState d b _)
  | tagLabels =>
    exact .of_silent (undated_of_quiet (quiet_tags.handleTagLabels (Set.mem_univ _) d g env))
      (devices_tags.handleTagLabels (Set.mem_univ _) d g env)
  | tags => exact dated_withBulb (fun d b => dated_setTags d b _)
  | ipState =>
    simp only [handle,handleIpState]
    split
    · exact dated_report (fun d => report_setIpState _ _ _) (fun _ _ => rfl)
    · split
      · exact dated_report (fun d => report_setIpState _ _ _) (fun _ _ => rfl)
      · exact dated_fault d _
  | ipFirmwareInfo =>
    simp only [handle,handleIpFirmwareInfo]
    split
    · exact dated_report (fun d => report_setIpFirmwareInfo _ _ _) (fun _ _ => rfl)
    · split
      · exact dated_report (fun d => report_setIpFirmwareInfo _ _ _) (fun _ _ => rfl)
      · exact dated_fault d _
  | productInfo => exact dated_report (fun d => report_setProductInfo _) (fun _ _ => rfl)
  | runtimeInfo => exact dated_report (fun d => report_setRuntimeInfo _ _) (fun _ _ => rfl)
  | bulbLabel => exact dated_report (fun d => report_setLabel _) (fun _ b => lastLightStateAt_setLabel b _)
  | ambientLight => exact dated_report (fun d => report_setAmbientLight _) (fun _ _ => rfl)

theorem dated_dispatch {info : PacketInfo} {hdr : Header} {pkt : Buffer} :
    Dated now d (d.dispatch now g info hdr pkt env) := by
  have hnote : Dated now d (d.modifyGw g (fun gw => { gw with lastPktAt := now })) := by
    refine ⟨fun b hb => .inr ⟨hb,rfl⟩,fun x hx => ?_⟩
    by_cases hxg : x = g
    · exact .inl (by simp [modifyGw,hxg])
    · exact .inr ⟨hx,by simp [modifyGw,hxg]⟩
  unfold dispatch
  simp only
  split
  · exact hnote.trans (dated_handle (fun _ => by simp [modifyGw]))
  · rename_i henosys
    refine dated_handle (fun hstatus => ?_)
    simp [hstatus] at henosys

theorem dated_gatewayOpen (d : Daemon) (peer : SockAddr) (site : Addr) (now : Time) :
    Dated now d (d.gatewayOpen peer site now) := by
  have hquiet := quiet_statsAdd { d with
    gw := Function.update d.gw d.nextGw (.opened peer site now)
    nextGw := d.nextGw + 1
    gateways := d.nextGw :: d.gateways } .gateways 1
  have hdev := devices_gatewayOpen d peer site now
  refine ⟨fun b hb => ?_,fun g hg => ?_⟩
  · have hb : b ∈ (d.devices.openGateway peer).bulbs := by rwa [← hdev]
    exact .inr ⟨hb,by rw [show (d.gatewayOpen peer site now).bulb = d.bulb from hquiet.bulb]⟩
  · have hg : g ∈ (d.devices.openGateway peer).gateways := by rwa [← hdev]
    have hpkt := lastPktAt_of_traffic hquiet.traffic g
    by_cases hnew : g = d.nextGw
    · exact .inl (hpkt.trans (by simp [hnew,Gateway.opened]))
    · exact .inr ⟨(List.mem_cons.mp hg).resolve_left hnew,hpkt.trans (by simp [hnew])⟩

theorem dated_handleReceive {gw : Option GatewayRef} {dg : Datagram} :
    Dated now d (d.handleReceive now gw dg env).1 := by
  unfold handleReceive
  cases dg.receive with
  | error | ignored => exact .refl d
  | packet info hdr =>
    simp only [handlePacket]
    cases gw with
    | some g =>
      have hcheck : Dated now d (d.check ((d.gw g).peer = dg.peer) (.peerMismatch g)) := by
        unfold check
        split
        · exact .refl d
        · exact dated_fault d _
      exact hcheck.trans dated_dispatch
    | none =>
      cases d.gatewayGet dg.peer with
      | some g => exact dated_dispatch
      | none =>
        simp only
        split
        · exact (dated_gatewayOpen d dg.peer hdr.site now).trans dated_dispatch
        · exact .refl d

end Packets

section Closing
variable {now : Time} {d : Daemon}

/-- A device that was last heard of too long ago. -/
def TimedOut (now last : Time) : Prop := deviceTimeout ≤ lag now last

instance (now last : Time) : Decidable (TimedOut now last) := inferInstanceAs (Decidable (_ ≤ _))

theorem removeAndCloseBulb_tables (d : Daemon) (g : GatewayRef) (b : BulbRef) :
    (d.removeAndCloseBulb g b).bulbs = d.bulbs.erase b ∧ (d.removeAndCloseBulb g b).gateways = d.gateways := by
  have hdev := devices_removeAndCloseBulb d g b
  rw [closeBulb_eq] at hdev
  exact ⟨congrArg Devices.bulbs hdev,congrArg Devices.gateways hdev⟩

/-- The first loop closes the overdue bulbs among those it visits. -/
theorem mem_watchdogBulbs {l : List BulbRef} (hd : d.bulbs.Nodup) :
    (∀ b, b ∈ (l.foldl (watchdogBulb now) d).bulbs ↔
      b ∈ d.bulbs ∧ ¬ (b ∈ l ∧ TimedOut now (d.bulb b).lastLightStateAt)) ∧
    (l.foldl (watchdogBulb now) d).gateways = d.gateways := by
  induction l generalizing d with
  | nil => simp
  | cons x l ih =>
    rw [List.foldl_cons]
    by_cases hx : TimedOut now (d.bulb x).lastLightStateAt
    · have hstep : watchdogBulb now d x = d.removeAndCloseBulb (d.bulb x).gw x := if_pos hx
      obtain ⟨hbulbs,hgws⟩ := removeAndCloseBulb_tables d (d.bulb x).gw x
      have hsame := (quiet_removeAndCloseBulb d (d.bulb x).gw x).bulb
      rw [hstep]
      obtain ⟨hmem,hrest⟩ := ih (hbulbs ▸ hd.erase x)
      refine ⟨fun b => ?_,hrest.trans hgws⟩
      rw [hmem b,hbulbs,hsame,hd.mem_erase_iff,List.mem_cons]
      by_cases hb : b = x
      · simp [hb,hx]
      · simp [hb]
    · have hstep : watchdogBulb now d x = d := if_neg hx
      rw [hstep]
      obtain ⟨hmem,hrest⟩ := ih hd
      refine ⟨fun b => ?_,hrest⟩
      rw [hmem b,List.mem_cons]
      by_cases hb : b = x
      · simp [hb,hx]
      · simp [hb]

theorem gatewayClose_bulbs (hp : d.devices.Partition) {g : GatewayRef} (hg : g ∈ d.gateways) (b : BulbRef) :
    b ∈ (d.gatewayClose g).bulbs ↔ b ∈ d.bulbs ∧ (d.bulb b).gw ≠ g := by
  have hdev := devices_gatewayClose d g
  generalize d.gatewayClose g = d' at hdev ⊢
  have hbulbs : d'.bulbs = (d.devices.closeGateway g).bulbs := congrArg Devices.bulbs hdev
  rw [hbulbs]
  exact mem_closeGateway_bulbs hp hg b

/-- The second loop closes the overdue gateways among those it visits, with their bulbs. -/
theorem mem_watchdogGateways {l : List GatewayRef} (hp : d.devices.Partition) (hl : l.Nodup)
    (hmem : ∀ g ∈ l, g ∈ d.gateways) :
    (∀ g, g ∈ (l.foldl (watchdogGateway now) d).gateways ↔
      g ∈ d.gateways ∧ ¬ (g ∈ l ∧ TimedOut now (d.gw g).lastPktAt)) ∧
    ∀ b, b ∈ (l.foldl (watchdogGateway now) d).bulbs ↔
      b ∈ d.bulbs ∧ ¬ ((d.bulb b).gw ∈ l ∧ TimedOut now (d.gw (d.bulb b).gw).lastPktAt) := by
  induction l generalizing d with
  | nil => simp
  | cons x l ih =>
    obtain ⟨hxl,hl⟩ := List.nodup_cons.mp hl
    have hx := hmem x List.mem_cons_self
    rw [List.foldl_cons]
    by_cases hover : TimedOut now (d.gw x).lastPktAt
    · have hstep : watchdogGateway now d x = d.gatewayClose x := if_pos hover
      have hgws := gatewayClose_gateways d x
      have hbulbs := gatewayClose_bulbs hp hx
      have hquiet := quiet_gatewayClose d x
      rw [hstep]
      have hlive : ∀ g ∈ l, g ∈ (d.gatewayClose x).gateways := by
        intro g hg
        have hne : g ≠ x := fun h => hxl (h ▸ hg)
        rw [hgws,List.mem_erase_of_ne hne]
        exact hmem g (List.mem_cons_of_mem x hg)
      obtain ⟨hg,hb⟩ := ih (hp.ops (ops_gatewayClose hp hx)) hl hlive
      refine ⟨fun g => ?_,fun b => ?_⟩
      · have herase : g ∈ d.gateways.erase x ↔ g ≠ x ∧ g ∈ d.gateways := hp.gateways_nodup.mem_erase_iff
        rw [hg g,hgws,lastPktAt_of_traffic hquiet.traffic,herase,List.mem_cons]
        by_cases hgx : g = x
        · simp [hgx,hover]
        · simp [hgx]
      · rw [hb b,hbulbs b,lastPktAt_of_traffic hquiet.traffic,hquiet.bulb,List.mem_cons]
        by_cases hbx : (d.bulb b).gw = x
        · simp [hbx,hover]
        · simp [hbx]
    · have hstep : watchdogGateway now d x = d := if_neg hover
      rw [hstep]
      obtain ⟨hg,hb⟩ := ih hp hl (fun g hg => hmem g (List.mem_cons_of_mem x hg))
      refine ⟨fun g => ?_,fun b => ?_⟩
      · rw [hg g,List.mem_cons]
        by_cases hgx : g = x
        · simp [hgx,hover]
        · simp [hgx]
      · rw [hb b,List.mem_cons]
        by_cases hbx : (d.bulb b).gw = x
        · simp [hbx,hover]
        · simp [hbx]

/-- What a pass of the watchdog leaves. -/
theorem mem_watchdog (now : Time) (hp : d.devices.Partition) :
    (∀ g, g ∈ (d.watchdog now).gateways ↔ g ∈ d.gateways ∧ ¬ TimedOut now (d.gw g).lastPktAt) ∧
    ∀ b, b ∈ (d.watchdog now).bulbs ↔ b ∈ d.bulbs ∧ ¬ TimedOut now (d.bulb b).lastLightStateAt ∧
      ¬ TimedOut now (d.gw (d.bulb b).gw).lastPktAt := by
  obtain ⟨hbulbs,hgws⟩ := @mem_watchdogBulbs now d d.bulbs hp.bulbs_nodup
  have hquiet : Quiet d (d.bulbs.foldl (watchdogBulb now) d) :=
    Quiet.foldl (fun d b => .ite (quiet_removeAndCloseBulb d _ b) (.refl d)) d _
  have hclosing : ∀ d b, watchdogBulb now d b = d ∨
      watchdogBulb now d b = d.removeAndCloseBulb (d.bulb b).gw b :=
    fun _ _ => (ite_eq_or_eq _ _ _).symm
  have hp' : (d.bulbs.foldl (watchdogBulb now) d).devices.Partition :=
    hp.ops (ops_closeSome hclosing hp hp.bulbs_nodup (fun _ hb => hb))
  unfold watchdog
  generalize d.bulbs.foldl (watchdogBulb now) d = d' at hbulbs hgws hquiet hp' ⊢
  obtain ⟨hg,hb⟩ := @mem_watchdogGateways now d' d'.gateways hp' hp'.gateways_nodup (fun _ h => h)
  refine ⟨fun g => ?_,fun b => ?_⟩
  · have hg := hg g
    simp only [hgws,lastPktAt_of_traffic hquiet.traffic] at hg ⊢
    rw [hg]
    tauto
  · have hb := hb b
    simp only [hgws,hbulbs b,lastPktAt_of_traffic hquiet.traffic,hquiet.bulb] at hb ⊢
    rw [hb]
    have howner : b ∈ d.bulbs → (d.bulb b).gw ∈ d.gateways := hp.owner_mem b
    tauto

theorem dated_watchdog (now : Time) (hp : d.devices.Partition) : Dated now d (d.watchdog now) := by
  obtain ⟨hg,hb⟩ := mem_watchdog now hp
  exact .of_undated (undated_of_quiet (quiet_watchdog d now)) (fun b hmem => ((hb b).mp hmem).1)
    (fun g hmem => ((hg g).mp hmem).1)

theorem dated_gatewayClose (now : Time) (d : Daemon) (g : GatewayRef) : Dated now d (d.gatewayClose g) := by
  have hdev := devices_gatewayClose d g
  have hgws := gatewayClose_gateways d g
  refine .of_undated (undated_of_quiet (quiet_gatewayClose d g)) ?_ ?_
  · generalize d.gatewayClose g = d' at hdev ⊢
    have hbulbs : d'.bulbs = d.bulbs.diff (d.gw g).bulbs :=
      (congrArg Devices.bulbs hdev).trans (closeGateway_bulbs g)
    rw [hbulbs]
    exact List.diff_subset _ _
  · rw [hgws]
    exact fun _ h => List.mem_of_mem_erase h

theorem dated_gatewayCloseAll (now : Time) (d : Daemon) : Dated now d d.gatewayCloseAll := by
  have hall : ∀ (l : List GatewayRef) d, Dated now d (l.foldl gatewayClose d) := by
    intro l
    induction l with
    | nil => exact .refl
    | cons g l ih =>
      intro d
      rw [List.foldl_cons]
      exact (dated_gatewayClose now d g).trans (ih (d.gatewayClose g))
  exact hall d.gateways d

end Closing

end Daemon
end Lightsd.Lifx
