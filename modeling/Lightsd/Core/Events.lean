import Lightsd.Core.Proto
import Lightsd.Library.Runs
import Lightsd.Lifx.Discovery

/-! # The event loop

The callbacks the event loop can run, as steps of a system. The clock is read once
for each event. Losing a gateway restarts discovery, which only sends a broadcast
packet and leaves the state alone.
-/
namespace Lightsd.Lifx.Daemon

/-- The `EV_READ` part of the socket callback of a gateway, for one datagram. -/
def socketRead (d : Daemon) (g : GatewayRef) (now : Time) (dg : Datagram) (env : Env) : Daemon :=
  match d.handleReceive now (some g) dg env with
  | (d,true) => d
  | (d,false) => d.gatewayClose g

/-- The `EV_WRITE` part of the socket callback of a gateway. -/
def socketWrite (d : Daemon) (g : GatewayRef) (now : Time) (r : WriteResult) : Daemon :=
  match (d.gw g).writeEvent now r with
  | some gw => d.modifyGw g (fun _ => gw)
  | none => d.gatewayClose g

end Lightsd.Lifx.Daemon

namespace Lightsd.Core

open Lifx Runs

inductive Command
  | powerOn (targets : List TargetName)
  | powerOff (targets : List TargetName)
  | powerToggle (targets : List TargetName)
  | setLightFromHsbk (targets : List TargetName) (color : LightColor)
  | setWaveform (targets : List TargetName) (waveform : Waveform)
  | tag (targets : List TargetName) (label : List UInt8)
  | untag (targets : List TargetName) (label : List UInt8)
  | setLabel (targets : List TargetName) (label : List UInt8)

def Command.run (now : Time) (d : Daemon) : Command → Daemon × Reply
  | powerOn targets => d.protoPowerOn now targets
  | powerOff targets => d.protoPowerOff now targets
  | powerToggle targets => d.protoPowerToggle now targets
  | setLightFromHsbk targets color => d.protoSetLightFromHsbk now targets color
  | setWaveform targets waveform => d.protoSetWaveform now targets waveform
  | tag targets label => d.protoTag now targets label
  | untag targets label => d.protoUntag now targets label
  | setLabel targets label => d.protoSetLabel now targets label

inductive Event
  | broadcastReceive (now : Time) (dg : Datagram) (env : Env)
  | gatewayReceive (g : GatewayRef) (now : Time) (dg : Datagram) (env : Env)
  | gatewayLost (g : GatewayRef)
  | gatewayWrite (g : GatewayRef) (now : Time) (r : WriteResult)
  | refresh (g : GatewayRef)
  | hardwareInfo (now : Time) (addr : Addr)
  | watchdog (now : Time)
  | closeAll
  | deallocateTagId (g : GatewayRef) (id : ℕ)
  | command (now : Time) (cmd : Command)

namespace Event

/-- The socket of a gateway exists as long as the gateway does, and is connected to
its peer. -/
def Enabled (d : Daemon) : Event → Prop
  | gatewayReceive g _ dg _ => g ∈ d.gateways ∧ dg.peer = (d.gw g).peer
  | gatewayLost g | gatewayWrite g _ _ | refresh g => g ∈ d.gateways
  | deallocateTagId g id => g ∈ d.gateways ∧ id < maxTags
  | _ => True

instance (d : Daemon) : DecidablePred (Enabled d)
  | gatewayReceive .. => inferInstanceAs (Decidable (_ ∧ _))
  | gatewayLost g | gatewayWrite g _ _ | refresh g => inferInstanceAs (Decidable (g ∈ d.gateways))
  | deallocateTagId .. => inferInstanceAs (Decidable (_ ∧ _))
  | broadcastReceive .. | hardwareInfo .. | watchdog .. | closeAll | command .. => isTrue trivial

def apply (d : Daemon) : Event → Daemon
  | broadcastReceive now dg env => (d.handleReceive now none dg env).1
  | gatewayReceive g now dg env => d.socketRead g now dg env
  | gatewayLost g => d.gatewayClose g
  | gatewayWrite g now r => d.socketWrite g now r
  | refresh g => d.sendGetAllLightState g
  | hardwareInfo now addr => d.fetchHardwareInfo now addr
  | watchdog now => d.watchdog now
  | closeAll => d.gatewayCloseAll
  | deallocateTagId g id => d.deallocateTagId g id
  | command now cmd => (cmd.run now d).1

end Event

def daemonSystem : System Daemon Event where
  enabled := Event.Enabled
  step := Event.apply

instance (d : Daemon) (e : Event) : Decidable (daemonSystem.enabled d e) :=
  inferInstanceAs (Decidable (Event.Enabled d e))

/-- The daemon right after its start. -/
def started (clientId : UInt32) : Daemon := { clientId := clientId }

end Lightsd.Core
