import Lightsd.Core.DeviceRuns
import Lightsd.Lifx.LightStatus

/-! # Which events touch the notes of power commands

Commands other than those for power, lost gateways, timers and all packets but the light
status leave the note of the last power command on every bulb as it is, or close the bulb
with it. A light status has the effect described for it.
-/
namespace Lightsd.Lifx.Daemon

open Lightsd.Core

theorem quiet_sendTagLabels (d : Daemon) (t : TagRef) (label : List UInt8) :
    Quiet d (d.sendTagLabels t label) :=
  Quiet.foldl (fun d (site : Site) => quiet_sendToSite rfl d site.gw) d _

theorem quiet_sendSetTags (now : Time) (t : TagRef) (d : Daemon) (b : BulbRef) :
    Quiet d (sendSetTags now t d b) := by
  unfold sendSetTags
  split
  · exact quiet_fault d _
  · exact .ite (quiet_sendToDevice rfl d now b) (.refl d)

theorem quiet_sendUnsetTags (now : Time) (t : TagRef) (d : Daemon) (b : BulbRef) :
    Quiet d (sendUnsetTags now t d b) := by
  unfold sendUnsetTags
  split
  · exact .refl d
  · exact .ite (.refl d) (quiet_sendToDevice rfl d now b)

theorem quiet_protoTag (d : Daemon) (now : Time) (targets : List TargetName) (label : List UInt8) :
    Quiet d (d.protoTag now targets label).1 :=
  quiet_tags.protoTag (Set.mem_univ _) (fun d t => quiet_sendTagLabels d t label) (quiet_sendSetTags now) d
    targets

theorem quiet_protoUntag (d : Daemon) (now : Time) (targets : List TargetName) (label : List UInt8) :
    Quiet d (d.protoUntag now targets label).1 := by
  unfold protoUntag
  split
  · exact .refl d
  · exact Quiet.foldl (quiet_sendUnsetTags now _) d _

theorem calm_gatewayOpen (d : Daemon) (peer : SockAddr) (site : Addr) (now : Time) :
    Calm now d (d.gatewayOpen peer site now) := by
  have hopen : Calm now d { d with
      gw := Function.update d.gw d.nextGw (.opened peer site now)
      nextGw := d.nextGw + 1
      gateways := d.nextGw :: d.gateways } := by
    refine ⟨fun b => Or.inr ⟨rfl,rfl⟩,fun g => ?_⟩
    by_cases hg : g = d.nextGw
    · exact Or.inl (by simp [hg,Gateway.opened])
    · exact Or.inr (by simp [hg])
  exact hopen.trans (Calm.of_quiet now (quiet_statsAdd _ .gateways 1))

theorem calm_dispatch {d : Daemon} {now : Time} {g : GatewayRef} {info : PacketInfo} {hdr : Header}
    {pkt : Buffer} {env : Env} (h : info.handle ≠ .lightStatus) :
    Calm now d (d.dispatch now g info hdr pkt env) := by
  have hnote : Calm now d (d.modifyGw g (fun gw => { gw with lastPktAt := now })) := by
    refine ⟨fun b => Or.inr ⟨rfl,rfl⟩,fun x => ?_⟩
    by_cases hx : x = g
    · exact Or.inl (by simp [modifyGw,hx])
    · exact Or.inr (by simp [modifyGw,hx])
  unfold dispatch
  simp only
  split
  · exact hnote.trans (calm_handle h)
  · exact calm_handle h

theorem calm_handleReceive {d : Daemon} {now : Time} {gw : Option GatewayRef} {dg : Datagram}
    {env : Env} (h : dg.isLightStatus = false) : Calm now d (d.handleReceive now gw dg env).1 := by
  unfold handleReceive
  cases hr : dg.receive with
  | error => exact Calm.refl now d
  | ignored => exact Calm.refl now d
  | packet info hdr =>
    have hh : info.handle ≠ .lightStatus := by simpa [Datagram.isLightStatus,hr] using h
    simp only [handlePacket]
    cases gw with
    | some g => exact (Calm.of_quiet now (quiet_check d _ _)).trans (calm_dispatch hh)
    | none =>
      cases d.gatewayGet dg.peer with
      | some g => exact calm_dispatch hh
      | none =>
        simp only
        split
        · exact (calm_gatewayOpen d dg.peer hdr.site now).trans (calm_dispatch hh)
        · exact Calm.refl now d

end Lightsd.Lifx.Daemon

namespace Lightsd.Core

open Lifx Lifx.Daemon Runs

def Command.isPower : Command → Bool
  | .powerOn _ | .powerOff _ | .powerToggle _ => true
  | _ => false

def Event.isPower : Event → Bool
  | .command _ cmd => cmd.isPower
  | _ => false

/-- The reading of the clock an event is handled with. -/
def Event.time? : Event → Option Time
  | .broadcastReceive now _ _ | .gatewayReceive _ now _ _ | .gatewayWrite _ now _
  | .hardwareInfo now _ | .watchdog now | .command now _ => some now
  | .gatewayLost _ | .refresh _ | .closeAll | .deallocateTagId .. => none

/-- The gateway of the socket, the time and the datagram of a received packet. -/
def Event.received? : Event → Option (Option GatewayRef × Time × Datagram)
  | .broadcastReceive now dg _ => some (none,now,dg)
  | .gatewayReceive g now dg _ => some (some g,now,dg)
  | _ => none

theorem Command.quiet_run {now : Time} {d : Daemon} {cmd : Command} (h : cmd.isPower = false) :
    Quiet d (cmd.run now d).1 := by
  cases cmd with
  | powerOn | powerOff | powerToggle => cases h
  | setLightFromHsbk targets color => exact (quiet_router rfl now).routerSend d targets
  | setWaveform targets waveform => exact (quiet_router rfl now).routerSend d targets
  | tag targets label => exact quiet_protoTag d now targets label
  | untag targets label => exact quiet_protoUntag d now targets label
  | setLabel targets label => exact (quiet_router rfl now).routerSend d targets

/-- Events that are no power command and no light status. -/
theorem Event.calm {d : Daemon} {e : Event} (clock : Time) (hp : e.isPower = false)
    (hs : ∀ r ∈ e.received?, r.2.2.isLightStatus = false) :
    Calm (e.time?.getD clock) d (e.apply d) := by
  cases e with
  | broadcastReceive now dg env => exact calm_handleReceive (hs _ rfl)
  | gatewayReceive g now dg env =>
    have hcalm : Calm now d (d.handleReceive now (some g) dg env).1 := calm_handleReceive (hs _ rfl)
    simp only [Event.apply,socketRead]
    generalize d.handleReceive now (some g) dg env = r at hcalm
    obtain ⟨d',ok⟩ := r
    cases ok with
    | true => exact hcalm
    | false => exact hcalm.trans (Calm.of_quiet now (quiet_gatewayClose d' g))
  | gatewayLost g => exact Calm.of_quiet _ (quiet_gatewayClose d g)
  | gatewayWrite g now r =>
    simp only [Event.apply,socketWrite]
    cases hw : (d.gw g).writeEvent now r with
    | some gw => exact Calm.of_quiet _ (quiet_written hw)
    | none => exact Calm.of_quiet _ (quiet_gatewayClose d g)
  | refresh g => exact Calm.of_quiet _ (quiet_sendGetAllLightState d g)
  | hardwareInfo now addr => exact Calm.of_quiet _ (quiet_fetchHardwareInfo d now addr)
  | watchdog now => exact Calm.of_quiet _ (quiet_watchdog d now)
  | closeAll => exact Calm.of_quiet _ (quiet_gatewayCloseAll d)
  | deallocateTagId g id => exact Calm.of_quiet _ (quiet_tags.deallocateTagId d g id)
  | command now cmd => exact Calm.of_quiet _ (Command.quiet_run hp)

/-- A light status has its effect, or none when it does not come from a known gateway. -/
theorem Event.lightStatus {d : Daemon} {e : Event} {gw : Option GatewayRef} {now : Time} {dg : Datagram}
    (he : e.received? = some (gw,now,dg)) (hs : dg.isLightStatus = true) :
    e.time? = some now ∧ (d.receiver gw dg.peer = none → e.apply d = d) ∧
    ∀ g, d.receiver gw dg.peer = some g → StatusEffect d now g dg.device dg.reportedPower (e.apply d) := by
  cases e with
  | broadcastReceive now dg env =>
    cases he
    exact ⟨rfl,(handleReceive_lightStatus hs).2⟩
  | gatewayReceive g now dg env =>
    cases he
    have hreceive := @handleReceive_lightStatus d now (some g) dg env hs
    refine ⟨rfl,?_⟩
    simp only [Event.apply,socketRead]
    generalize d.handleReceive now (some g) dg env = r at hreceive
    obtain ⟨d',ok⟩ := r
    obtain ⟨hok,heffect⟩ := hreceive
    simp only at hok
    subst hok
    exact heffect
  | gatewayLost | gatewayWrite | refresh | hardwareInfo | watchdog | closeAll | deallocateTagId
  | command => cases he

end Lightsd.Core
