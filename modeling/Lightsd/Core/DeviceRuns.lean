import Lightsd.Core.Events
import Lightsd.Lifx.DeviceTransitions

/-! # The registry of devices over whole runs

Commands of clients leave the registry of devices alone; every other event is a
transition of it. So the partition of the bulb table holds in every state of every run
of the daemon.
-/
namespace Lightsd.Lifx.Daemon

open Lightsd.Core

theorem silent_protoPowerToggle (d : Daemon) (now : Time) (targets : List TargetName) :
    Silent d (d.protoPowerToggle now targets).1 :=
  Silent.foldl (fun d b => silent_sendToDevice d now _ b) d _

theorem silent_sendTagLabels (d : Daemon) (t : TagRef) (label : List UInt8) :
    Silent d (d.sendTagLabels t label) :=
  Silent.foldl (fun d (site : Site) => silent_sendToSite d site.gw _) d _

theorem silent_sendSetTags (now : Time) (t : TagRef) (d : Daemon) (b : BulbRef) :
    Silent d (sendSetTags now t d b) := by
  unfold sendSetTags
  split
  · exact ⟨devices_fault (by simp) rfl,tagging_fault rfl⟩
  · exact silent_ite (silent_sendToDevice d now _ b) (Silent.refl d)

theorem silent_sendUnsetTags (now : Time) (t : TagRef) (d : Daemon) (b : BulbRef) :
    Silent d (sendUnsetTags now t d b) := by
  unfold sendUnsetTags
  split
  · exact Silent.refl d
  · exact silent_ite (Silent.refl d) (silent_sendToDevice d now _ b)

theorem silent_protoUntag (d : Daemon) (now : Time) (targets : List TargetName) (label : List UInt8) :
    Silent d (d.protoUntag now targets label).1 := by
  unfold protoUntag
  split
  · exact Silent.refl d
  · exact Silent.foldl (silent_sendUnsetTags now _) d _

theorem devices_protoTag (d : Daemon) (now : Time) (targets : List TargetName) (label : List UInt8) :
    (d.protoTag now targets label).1.devices = d.devices :=
  devices_tags.protoTag (Set.mem_univ _) (fun d t => (silent_sendTagLabels d t label).devices)
    (fun t d b => (silent_sendSetTags now t d b).devices) d targets

theorem transition_socketRead {d : Daemon} {g : GatewayRef} (now : Time) (dg : Datagram) (env : Env)
    (hp : d.devices.Partition) (hg : g ∈ d.gateways) :
    Devices.Transition d.devices (d.socketRead g now dg env).devices := by
  obtain ⟨htrans,hfail⟩ := transition_handleReceive now (some g) dg env hp
    (fun g' hg' => Option.some_inj.mp hg' ▸ hg)
  unfold socketRead
  generalize d.handleReceive now (some g) dg env = s at htrans hfail
  obtain ⟨d',ok⟩ := s
  cases ok with
  | true => exact htrans
  | false =>
    rw [show d' = d from hfail rfl]
    exact Devices.Transition.of_ops (ops_gatewayClose hp hg)

theorem transition_socketWrite {d : Daemon} {g : GatewayRef} (now : Time) (r : WriteResult)
    (hp : d.devices.Partition) (hg : g ∈ d.gateways) :
    Devices.Transition d.devices (d.socketWrite g now r).devices := by
  unfold socketWrite
  cases hw : (d.gw g).writeEvent now r with
  | some gw =>
    simp only
    rw [(silent_written hw).devices]
    exact Devices.Transition.refl _
  | none => exact Devices.Transition.of_ops (ops_gatewayClose hp hg)

end Lightsd.Lifx.Daemon

namespace Lightsd.Core

open Lifx Lifx.Daemon Lifx.Devices Runs

theorem Command.silent_run (now : Time) (d : Daemon) {cmd : Command} (h : ∀ targets label, cmd ≠ .tag targets label) :
    Silent d (cmd.run now d).1 := by
  cases cmd with
  | powerOn targets => exact silent_routerSend d now targets _
  | powerOff targets => exact silent_routerSend d now targets _
  | powerToggle targets => exact silent_protoPowerToggle d now targets
  | setLightFromHsbk targets color => exact silent_routerSend d now targets _
  | setWaveform targets waveform => exact silent_routerSend d now targets _
  | tag targets label => exact absurd rfl (h targets label)
  | untag targets label => exact silent_protoUntag d now targets label
  | setLabel targets label => exact silent_routerSend d now targets _

theorem Command.devices_run (now : Time) (d : Daemon) (cmd : Command) :
    (cmd.run now d).1.devices = d.devices := by
  cases cmd with
  | tag targets label => exact devices_protoTag d now targets label
  | _ => exact (Command.silent_run now d (by simp)).devices

theorem Event.transition {d : Daemon} {e : Event} (hp : d.devices.Partition) (he : e.Enabled d) :
    Transition d.devices (e.apply d).devices := by
  have hsilent : ∀ {d' : Daemon}, d'.devices = d.devices → Transition d.devices d'.devices :=
    fun h => h ▸ Transition.refl _
  cases e with
  | broadcastReceive now dg env =>
    exact (transition_handleReceive now none dg env hp (fun g hg => by cases hg)).1
  | gatewayReceive g now dg env => exact transition_socketRead now dg env hp he.1
  | gatewayLost g =>
    change Transition d.devices (d.gatewayClose g).devices
    exact Transition.of_ops (ops_gatewayClose hp he)
  | gatewayWrite g now r => exact transition_socketWrite now r hp he
  | refresh g => exact hsilent (silent_sendGetAllLightState d g).devices
  | hardwareInfo now addr => exact hsilent (silent_fetchHardwareInfo d now addr).devices
  | watchdog now => exact Transition.of_ops (ops_watchdog now hp)
  | closeAll => exact Transition.of_ops (ops_gatewayCloseAll hp)
  | deallocateTagId g id => exact hsilent (devices_tags.deallocateTagId d g id)
  | command now cmd => exact hsilent (cmd.devices_run now d)

theorem partition_started (clientId : UInt32) : (started clientId).devices.Partition :=
  ⟨List.nodup_nil,nofun,nofun,List.nodup_nil,nofun,nofun,nofun,nofun,nofun,fun _ _ => rfl⟩

theorem partition_step {d : Daemon} {e : Event} (hp : d.devices.Partition)
    (he : daemonSystem.enabled d e) : (daemonSystem.step d e).devices.Partition :=
  (Event.transition hp he).partition hp

theorem always_partition {clientId : UInt32} {es : List Event}
    (hl : daemonSystem.Legal (started clientId) es) :
    daemonSystem.Always (fun d => d.devices.Partition) (started clientId) es :=
  hl.always (fun _ _ hp he => partition_step hp he) (partition_started clientId)

/-- The bulb table is the disjoint union of the bulb lists of the live gateways, each
bulb being in the list of the gateway it points back to; peers and addresses are
unique. -/
structure Partitioned (d : Daemon) : Prop where
  peers : (d.gateways.map (fun g => (d.gw g).peer)).Nodup
  addrs : (d.bulbs.map (fun b => (d.bulb b).addr)).Nodup
  union : d.bulbs.Perm (d.gateways.flatMap (fun g => (d.gw g).bulbs))
  disjoint : d.gateways.Pairwise (fun g g' => (d.gw g).bulbs.Disjoint (d.gw g').bulbs)
  owner : ∀ b ∈ d.bulbs, (d.bulb b).gw ∈ d.gateways ∧
    ∀ g ∈ d.gateways, b ∈ (d.gw g).bulbs ↔ (d.bulb b).gw = g

theorem partitioned_of {d : Daemon} (hp : d.devices.Partition) : Partitioned d where
  peers := hp.gateways_nodup.map_on hp.peers
  addrs := hp.bulbs_nodup.map_on hp.addrs
  union := hp.bulbs_perm
  disjoint := by
    refine hp.gateways_nodup.imp_of_mem ?_
    intro g g' hg hg' hne b hb hb'
    exact hne ((hp.member_owner hg hb).symm.trans (hp.member_owner hg' hb'))
  owner := by
    intro b hb
    refine ⟨hp.owner_mem b hb,fun g hg => ?_⟩
    rw [show b ∈ (d.gw g).bulbs ↔ b ∈ d.bulbs ∧ (d.bulb b).gw = g from hp.mem_members g hg b]
    exact and_iff_right hb

/-- In every state the daemon can reach, each bulb belongs to exactly one live
gateway. -/
theorem registry_partitioned (clientId : UInt32) (es : List Event)
    (hl : daemonSystem.Legal (started clientId) es) :
    daemonSystem.Always Partitioned (started clientId) es :=
  (always_partition hl).mono (fun _ hp => partitioned_of hp)

/-- Two gateways appear, a bulb with two tag ids reports through both, and the first
gateway is lost. -/
def handoverRun : List Event :=
  let light := List.replicate 10 0 ++ [255,255] ++ List.replicate 32 0 ++ [3,0,0,0,0,0,0,0]
  let addr : Addr := #v[1,2,3,4,5,6]
  [.broadcastReceive 1 (.sent [1] .allDevices .panGateway (List.replicate 5 0)) {},
   .broadcastReceive 2 (.sent [2] .allDevices .panGateway (List.replicate 5 0)) {},
   .gatewayReceive 0 3 (.sent [1] (.device addr) .lightStatus light) {},
   .gatewayReceive 1 4 (.sent [2] (.device addr) .lightStatus light) {},
   .gatewayLost 0]

/-- The address of the bulb. -/
def handoverAddr : Addr := #v[1,2,3,4,5,6]

theorem registry_partitioned_handover :
    (daemonSystem.exec (started 7) (handoverRun.take 4)).bulbs = [0] ∧
    daemonSystem.Always Partitioned (started 7) handoverRun :=
  ⟨by decide +kernel,registry_partitioned 7 handoverRun (by decide +kernel)⟩

end Lightsd.Core
