import Lightsd.Lifx.Datagrams
import Lightsd.Lifx.TagLabels

/-! # Packets and the registry of tags

Only the handler of label packets touches the registry of tags. A datagram keeps the
registry sound exactly when the label packet it delivers, if any, is acceptable to the
gateway it is delivered to.
-/
namespace Lightsd.Lifx

/-- The label packet in a datagram. -/
def Datagram.tagLabels? (dg : Datagram) : Option TagLabels :=
  match dg.receive with
  | .packet info _ =>
    if info.handle = .tagLabels then some (decodeTagLabels (dg.buffer.drop headerSize)) else none
  | _ => none

namespace Daemon

open Tagging

theorem tagging_getOrOpenBulb (d : Daemon) (g : GatewayRef) (addr : Addr) (now : Time) (ok : Bool) :
    (d.getOrOpenBulb g addr now ok).1.tagging = d.tagging := by
  unfold getOrOpenBulb
  cases d.bulbGet addr with
  | some b => rfl
  | none =>
    cases ok with
    | true => exact tagging_openBulb d g addr now
    | false => rfl

theorem tagging_withBulb {d : Daemon} {now : Time} {g : GatewayRef} {addr : Addr} {env : Env}
    {f : Daemon → BulbRef → Daemon} (hf : ∀ d b, (f d b).tagging = d.tagging) :
    (d.withBulb now g addr env f).tagging = d.tagging := by
  have hopen := tagging_getOrOpenBulb d g addr now env.bulbOk
  rcases d.withBulb_cases now g addr env f with heq | ⟨b,-,heq⟩
  · rw [heq,hopen]
  · rw [heq,hf,hopen]

theorem tagging_setLightState (d : Daemon) (now : Time) (b : BulbRef) (state : LightState)
    (receivedAt : Time) : (d.setLightState now b state receivedAt).tagging = d.tagging :=
  (tagging_updateTagRefcounts (d.notePower now b state.power) _ _ _).trans (tagging_notePower d now b _)

theorem tagging_setPowerState (d : Daemon) (now : Time) (b : BulbRef) (power : UInt16) :
    (d.setPowerState now b power).tagging = d.tagging := tagging_notePower d now b power

theorem tagging_setTags (d : Daemon) (b : BulbRef) (tags : TagMask) :
    (d.setTags b tags).tagging = d.tagging := tagging_updateTagRefcounts d _ _ _

theorem tagging_handleLightStatus (d : Daemon) (now : Time) (g : GatewayRef) (addr : Addr) (env : Env)
    (state : LightState) : (d.handleLightStatus now g addr env state).tagging = d.tagging := by
  have hopen := tagging_getOrOpenBulb d g addr now env.bulbOk
  unfold handleLightStatus
  generalize d.getOrOpenBulb g addr now env.bulbOk = s at hopen
  obtain ⟨d',o⟩ := s
  cases o with
  | none => exact hopen
  | some b =>
    simp only
    rw [(silent_refreshIfSlow _ g).tagging,(silent_confirmPower _ now b).tagging,tagging_setLightState]
    exact hopen

theorem tagging_handleIpState (d : Daemon) (now : Time) (g : GatewayRef) (hdr : Header) (env : Env)
    (pkt : IpState) : (d.handleIpState now g hdr env pkt).tagging = d.tagging := by
  unfold handleIpState
  split
  · exact tagging_withBulb (fun _ _ => rfl)
  · split
    · exact tagging_withBulb (fun _ _ => rfl)
    · exact tagging_fault rfl

theorem tagging_handleIpFirmwareInfo (d : Daemon) (now : Time) (g : GatewayRef) (hdr : Header)
    (env : Env) (pkt : IpFirmwareInfo) :
    (d.handleIpFirmwareInfo now g hdr env pkt).tagging = d.tagging := by
  unfold handleIpFirmwareInfo
  split
  · exact tagging_withBulb (fun _ _ => rfl)
  · split
    · exact tagging_withBulb (fun _ _ => rfl)
    · exact tagging_fault rfl

theorem tagging_handle {d : Daemon} {now : Time} {g : GatewayRef} {handler : Handler} {hdr : Header}
    {pkt : Buffer} {env : Env} (h : handler ≠ .tagLabels) :
    (d.handle now g handler hdr pkt env).tagging = d.tagging := by
  cases handler with
  | null => rfl
  | enosys => rfl
  | panGateway => rfl
  | lightStatus => exact tagging_handleLightStatus d now g _ env _
  | powerState => exact tagging_withBulb (fun d b => tagging_setPowerState d now b _)
  | tagLabels => exact (h rfl).elim
  | tags => exact tagging_withBulb (fun d b => tagging_setTags d b _)
  | ipState => exact tagging_handleIpState d now g hdr env _
  | ipFirmwareInfo => exact tagging_handleIpFirmwareInfo d now g hdr env _
  | productInfo => exact tagging_withBulb (fun _ _ => rfl)
  | runtimeInfo => exact tagging_withBulb (fun _ _ => rfl)
  | bulbLabel => exact tagging_withBulb (fun _ _ => rfl)
  | ambientLight => exact tagging_withBulb (fun _ _ => rfl)

theorem tagging_dispatch {d : Daemon} {now : Time} {g : GatewayRef} {info : PacketInfo}
    {hdr : Header} {pkt : Buffer} {env : Env} (h : info.handle ≠ .tagLabels) :
    (d.dispatch now g info hdr pkt env).tagging = d.tagging :=
  (tagging_handle h).trans (silent_noteTraffic d now g info).tagging

/-- What the dispatch of a label packet to a gateway does to the registry of tags. -/
theorem sound_dispatch {d : Daemon} {now : Time} {g : GatewayRef} {info : PacketInfo}
    {hdr : Header} {pkt : Buffer} {env : Env} (hinfo : info.handle = .tagLabels)
    (htagOk : ∀ i, env.tagOk i = true) (hsiteOk : ∀ i, env.siteOk i = true)
    (h : d.tagging.Sound) (hg : g ∈ d.gateways) :
    (d.tagging.Acceptable g (decodeTagLabels pkt) →
      (d.dispatch now g info hdr pkt env).tagging.Sound) ∧
    (¬ d.tagging.Acceptable g (decodeTagLabels pkt) →
      ∃ t id, .siteTagId t g id ∈ (d.dispatch now g info hdr pkt env).faults) := by
  obtain ⟨d',hsilent,heq⟩ := exists_dispatch d now g info hdr pkt env
  have hgws : d'.gateways = d.gateways := congrArg Devices.gateways hsilent.devices
  rw [heq,hinfo]
  rw [← hsilent.tagging] at h ⊢
  exact sound_handleTagLabels (label_decodeTagLabels pkt) htagOk hsiteOk h (hgws ▸ hg)

theorem sound_handlePacket {d : Daemon} {now : Time} {gw : Option GatewayRef} {peer : SockAddr}
    {info : PacketInfo} {hdr : Header} {pkt : Buffer} {env : Env}
    (hinfo : getPacketInfo hdr.packetType = some info) (htagOk : ∀ i, env.tagOk i = true)
    (hsiteOk : ∀ i, env.siteOk i = true) (h : d.tagging.Sound)
    (hg : ∀ g, gw = some g → g ∈ d.gateways) :
    ((info.handle = .tagLabels → ∀ g, d.receiver gw peer = some g →
        d.tagging.Acceptable g (decodeTagLabels pkt)) →
      (d.handlePacket now gw peer info hdr pkt env).tagging.Sound) ∧
    (∀ g, info.handle = .tagLabels → d.receiver gw peer = some g →
      ¬ d.tagging.Acceptable g (decodeTagLabels pkt) →
      ∃ t id, .siteTagId t g id ∈ (d.handlePacket now gw peer info hdr pkt env).faults) := by
  unfold handlePacket
  cases gw with
  | some g =>
    have hsilent : Silent d (d.check ((d.gw g).peer = peer) (.peerMismatch g)) :=
      silent_check (by simp) rfl rfl
    simp only [receiver]
    generalize d.check ((d.gw g).peer = peer) (.peerMismatch g) = d' at hsilent
    have hgws : d'.gateways = d.gateways := congrArg Devices.gateways hsilent.devices
    rw [← hsilent.tagging] at h ⊢
    by_cases hlabels : info.handle = .tagLabels
    · obtain ⟨hsound,hfault⟩ := sound_dispatch hlabels htagOk
        hsiteOk h (hgws ▸ hg g rfl)
      refine ⟨fun hacc => hsound (hacc hlabels g rfl),?_⟩
      rintro _ _ ⟨⟩ hnot
      exact hfault hnot
    · refine ⟨fun _ => ?_,fun _ hl => (hlabels hl).elim⟩
      rw [tagging_dispatch hlabels]
      exact h
  | none =>
    simp only [receiver]
    cases hget : d.gatewayGet peer with
    | some g =>
      by_cases hlabels : info.handle = .tagLabels
      · obtain ⟨hsound,hfault⟩ := sound_dispatch hlabels htagOk
          hsiteOk h (mem_of_gatewayGet hget)
        refine ⟨fun hacc => hsound (hacc hlabels g rfl),?_⟩
        rintro _ _ ⟨⟩ hnot
        exact hfault hnot
      · refine ⟨fun _ => ?_,fun _ hl => (hlabels hl).elim⟩
        simp only
        rw [tagging_dispatch hlabels]
        exact h
    | none =>
      refine ⟨fun _ => ?_,fun _ _ hnone => by cases hnone⟩
      simp only
      split
      · rename_i hopen
        rw [hopen.1] at hinfo
        have hother : info.handle ≠ .tagLabels := by
          rw [handle_panGateway hinfo]
          decide
        rw [tagging_dispatch hother,tagging_gatewayOpen]
        exact h.openGateway
      · exact h

/-- What a datagram does to the registry of tags. -/
theorem sound_handleReceive {d : Daemon} (now : Time) (gw : Option GatewayRef) (dg : Datagram)
    (env : Env) (htagOk : ∀ i, env.tagOk i = true) (hsiteOk : ∀ i, env.siteOk i = true)
    (h : d.tagging.Sound) (hg : ∀ g, gw = some g → g ∈ d.gateways) :
    ((∀ g pkt, d.receiver gw dg.peer = some g → dg.tagLabels? = some pkt →
        d.tagging.Acceptable g pkt) →
      (d.handleReceive now gw dg env).1.tagging.Sound) ∧
    (∀ g pkt, d.receiver gw dg.peer = some g → dg.tagLabels? = some pkt →
      ¬ d.tagging.Acceptable g pkt →
      ∃ t id, .siteTagId t g id ∈ (d.handleReceive now gw dg env).1.faults) := by
  unfold handleReceive Datagram.tagLabels?
  cases hrecv : dg.receive with
  | error => exact ⟨fun _ => h,fun _ _ _ hnone => by cases hnone⟩
  | ignored => exact ⟨fun _ => h,fun _ _ _ hnone => by cases hnone⟩
  | packet info hdr =>
    obtain ⟨hsound,hfault⟩ := sound_handlePacket ((Datagram.receive_packet hrecv).2) htagOk hsiteOk h hg
    refine ⟨fun hacc => hsound (fun hlabels g hrec => hacc g _ hrec (if_pos hlabels)),?_⟩
    intro g pkt hrec hpkt hnot
    simp only [Option.ite_none_right_eq_some,Option.some_inj] at hpkt
    obtain ⟨hlabels,rfl⟩ := hpkt
    exact hfault g hlabels hrec hnot

end Daemon
end Lightsd.Lifx
