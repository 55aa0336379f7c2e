import Lightsd.Lifx.BulbRecords

/-! # Confirming the power of a bulb

What a light status does to the note of the last power command on its bulb: nothing,
or the note is cleared, or the command is sent again. The time that has passed is the
difference of two unsigned clock readings, one of them taken on the gateway the bulb
was opened on. Every other packet leaves the notes alone.
-/
namespace Lightsd.Lifx.Daemon

open Lightsd.Core

/-- The guard of the source on a light status of a commanded bulb. -/
def Overdue (bulb : Bulb) (lastPktAt : Time) : Prop :=
  bulb.dirtyAt ≠ 0 ∧ bulb.lastLightStateAt > bulb.dirtyAt ∧ lastPktAt - bulb.dirtyAt > 400

/-- The power a command is sent again with. -/
def resentPower (expected : UInt16) : UInt16 := if expected ≠ 0 then powerOn else powerOff

theorem resentPower_eq {p : UInt16} (h : p = powerOn ∨ p = powerOff) : resentPower p = p := by
  rcases h with rfl | rfl <;> decide

theorem confirmPower_cases (d : Daemon) (now : Time) (b : BulbRef) :
    (¬ Overdue (d.bulb b) (d.gw (d.bulb b).gw).lastPktAt ∧ d.confirmPower now b = d) ∨
    (Overdue (d.bulb b) (d.gw (d.bulb b).gw).lastPktAt ∧
      (d.bulb b).expectedPowerOn = (d.bulb b).state.power ∧
      d.confirmPower now b = d.modifyBulb b (fun bulb => { bulb with dirtyAt := 0 })) ∨
    (Overdue (d.bulb b) (d.gw (d.bulb b).gw).lastPktAt ∧
      (d.bulb b).expectedPowerOn ≠ (d.bulb b).state.power ∧
      d.confirmPower now b =
        d.sendToDevice now (.setPowerState (resentPower (d.bulb b).expectedPowerOn)) b) := by
  unfold confirmPower
  simp only
  split
  · rename_i hover
    split
    · rename_i heq
      exact Or.inr (Or.inl ⟨hover,heq,rfl⟩)
    · rename_i hne
      exact Or.inr (Or.inr ⟨hover,hne,rfl⟩)
  · rename_i hover
    exact Or.inl ⟨hover,rfl⟩

/-- A power command on one bulb: the note on the bulb and the packet on its gateway. -/
theorem bulb_sendPower (d : Daemon) (now : Time) (power : UInt16) (b : BulbRef) :
    (d.sendToDevice now (.setPowerState power) b).bulb =
      Function.update d.bulb b { d.bulb b with dirtyAt := now, expectedPowerOn := power } := rfl

theorem traffic_sendPower (d : Daemon) (now : Time) (power : UInt16) (b : BulbRef) :
    (d.sendToDevice now (.setPowerState power) b).traffic =
      Function.update d.traffic (d.bulb b).gw ((d.gw (d.bulb b).gw).lastPktAt,
        powerCommands (d.gw (d.bulb b).gw) ++ [(Request.setPowerState power).packet d.clientId
          (.device (d.bulb b).addr) (d.gw (d.bulb b).gw).site]) := by
  obtain ⟨hlog,hpkt⟩ := enqueuePacket_logs (d.gw (d.bulb b).gw)
    ((Request.setPowerState power).packet d.clientId (.device (d.bulb b).addr)
      (d.gw (d.bulb b).gw).site)
  funext g
  simp only [traffic,sendToDevice,expectPower,modifyBulb,enqueue,modifyGw]
  by_cases hg : g = (d.bulb b).gw
  · subst hg
    have htype : ((Request.setPowerState power).packet d.clientId (.device (d.bulb b).addr)
        (d.gw (d.bulb b).gw).site).info.type = .setPowerState := rfl
    simp [powerCommands,hlog,hpkt,htype]
  · simp [Function.update_of_ne hg,traffic]

/-- The power commands that were queued between two states. -/
def newCommands (d d' : Daemon) (g : GatewayRef) : List OutPacket :=
  (powerCommands (d'.gw g)).drop (powerCommands (d.gw g)).length

theorem newCommands_of_traffic {d d' : Daemon} {g : GatewayRef}
    (h : (d'.traffic g).2 = (d.traffic g).2) : newCommands d d' g = [] := by
  have hlog : powerCommands (d'.gw g) = powerCommands (d.gw g) := h
  simp [newCommands,hlog]

/-- Clock readings on gateways change to the present only, and the notes on bulbs
disappear at most. -/
structure Calm (now : Time) (d d' : Daemon) : Prop where
  power : ∀ b, (d'.bulb b).dirtyAt = 0 ∨ (d'.bulb b).dirtyAt = (d.bulb b).dirtyAt ∧
    (d'.bulb b).expectedPowerOn = (d.bulb b).expectedPowerOn
  lastPktAt : ∀ g, (d'.gw g).lastPktAt = now ∨ (d'.gw g).lastPktAt = (d.gw g).lastPktAt

theorem lastPktAt_of_traffic {d d' : Daemon} (h : d'.traffic = d.traffic) (g : GatewayRef) :
    (d'.gw g).lastPktAt = (d.gw g).lastPktAt := congrArg Prod.fst (congrFun h g)

namespace Calm

variable {now : Time} {d d' d'' : Daemon}

theorem refl (now : Time) (d : Daemon) : Calm now d d :=
  ⟨fun _ => Or.inr ⟨rfl,rfl⟩,fun _ => Or.inr rfl⟩

theorem trans (h : Calm now d d') (h' : Calm now d' d'') : Calm now d d'' := by
  constructor
  · intro b
    rcases h'.power b with hzero | ⟨hd',he'⟩
    · exact Or.inl hzero
    · rcases h.power b with hzero | ⟨hd,he⟩
      · exact Or.inl (hd'.trans hzero)
      · exact Or.inr ⟨hd'.trans hd,he'.trans he⟩
  · intro g
    rcases h'.lastPktAt g with hnow | hkeep
    · exact Or.inl hnow
    · rw [hkeep]
      exact h.lastPktAt g

theorem of_quiet (now : Time) (h : Quiet d d') : Calm now d d' :=
  ⟨fun b => Or.inr (by simp [h.bulb]),fun g => Or.inr (lastPktAt_of_traffic h.traffic g)⟩

/-- A new record carries the old note or none. -/
theorem of_sets (now : Time) {b : BulbRef} {bulb : Bulb} (h : Sets b bulb d d')
    (hnote : bulb.dirtyAt = 0 ∨ bulb.dirtyAt = (d.bulb b).dirtyAt ∧
      bulb.expectedPowerOn = (d.bulb b).expectedPowerOn) : Calm now d d' := by
  refine ⟨fun x => ?_,fun g => Or.inr (lastPktAt_of_traffic h.traffic g)⟩
  by_cases hx : x = b
  · subst hx
    simpa [h.bulb] using hnote
  · exact Or.inr (by simp [h.bulb,hx])

end Calm

theorem calm_getOrOpenBulb (d : Daemon) (g : GatewayRef) (addr : Addr) (now : Time) (ok : Bool) :
    Calm now d (d.getOrOpenBulb g addr now ok).1 := by
  rcases d.getOrOpenBulb_spec g addr now ok with ⟨b,-,heq⟩ | ⟨-,-,d',heq,hset⟩ | ⟨-,-,heq⟩
  · simpa [heq] using Calm.refl now d
  · simpa [heq] using Calm.of_sets now hset (Or.inl rfl)
  · simpa [heq] using Calm.refl now d

theorem calm_withBulb {d : Daemon} {now : Time} {g : GatewayRef} {addr : Addr} {env : Env}
    {f : Daemon → BulbRef → Daemon} (hf : ∀ d b, Calm now d (f d b)) :
    Calm now d (d.withBulb now g addr env f) := by
  have hopen := calm_getOrOpenBulb d g addr now env.bulbOk
  rcases d.withBulb_cases now g addr env f with heq | ⟨b,-,heq⟩
  · rwa [heq]
  · rw [heq]
    exact hopen.trans (hf _ b)

/-- A setter that leaves the note on the bulb alone. -/
def KeepsNote (f : Bulb → Bulb) : Prop :=
  ∀ b, (f b).dirtyAt = b.dirtyAt ∧ (f b).expectedPowerOn = b.expectedPowerOn

theorem keepsNote_setIpState (ip : BulbIpId) (state : IpState) (receivedAt : Time) :
    KeepsNote (·.setIpState ip state receivedAt) := fun _ => ⟨rfl,rfl⟩

theorem keepsNote_setIpFirmwareInfo (ip : BulbIpId) (info : IpFirmwareInfo) (receivedAt : Time) :
    KeepsNote (·.setIpFirmwareInfo ip info receivedAt) := fun _ => ⟨rfl,rfl⟩

theorem keepsNote_setProductInfo (info : ProductInfo) : KeepsNote (·.setProductInfo info) :=
  fun _ => ⟨rfl,rfl⟩

theorem keepsNote_setRuntimeInfo (info : RuntimeInfo) (receivedAt : Time) :
    KeepsNote (·.setRuntimeInfo info receivedAt) := fun _ => ⟨rfl,rfl⟩

theorem keepsNote_setLabel (label : Label) : KeepsNote (·.setLabel label) := fun _ => ⟨rfl,rfl⟩

theorem keepsNote_setAmbientLight (illuminance : UInt32) :
    KeepsNote (·.setAmbientLight illuminance) := fun _ => ⟨rfl,rfl⟩

theorem calm_report {d : Daemon} {now : Time} {g : GatewayRef} {addr : Addr} {env : Env}
    {f : Daemon → Bulb → Bulb} (hf : ∀ d, KeepsNote (f d)) :
    Calm now d (d.withBulb now g addr env (fun d b => d.modifyBulb b (f d))) :=
  calm_withBulb (fun d b => Calm.of_sets now (sets_modifyBulb d b (f d)) (Or.inr (hf d _)))

theorem calm_handleIpState (d : Daemon) (now : Time) (g : GatewayRef) (hdr : Header) (env : Env)
    (pkt : IpState) : Calm now d (d.handleIpState now g hdr env pkt) := by
  unfold handleIpState
  split
  · exact calm_report (fun _ => keepsNote_setIpState _ _ _)
  · split
    · exact calm_report (fun _ => keepsNote_setIpState _ _ _)
    · exact Calm.of_quiet now (quiet_fault d _)

theorem calm_handleIpFirmwareInfo (d : Daemon) (now : Time) (g : GatewayRef) (hdr : Header)
    (env : Env) (pkt : IpFirmwareInfo) : Calm now d (d.handleIpFirmwareInfo now g hdr env pkt) := by
  unfold handleIpFirmwareInfo
  split
  · exact calm_report (fun _ => keepsNote_setIpFirmwareInfo _ _ _)
  · split
    · exact calm_report (fun _ => keepsNote_setIpFirmwareInfo _ _ _)
    · exact Calm.of_quiet now (quiet_fault d _)

theorem calm_setPowerState (d : Daemon) (now : Time) (b : BulbRef) (power : UInt16) :
    Calm now d (d.setPowerState now b power) :=
  Calm.of_sets now (sets_setPowerState d now b power) (Or.inr ⟨rfl,rfl⟩)

theorem calm_setTags (d : Daemon) (now : Time) (b : BulbRef) (tags : TagMask) :
    Calm now d (d.setTags b tags) := Calm.of_sets now (sets_setTags d b tags) (Or.inr ⟨rfl,rfl⟩)

theorem calm_handle {d : Daemon} {now : Time} {g : GatewayRef} {handler : Handler} {hdr : Header}
    {pkt : Buffer} {env : Env} (h : handler ≠ .lightStatus) :
    Calm now d (d.handle now g handler hdr pkt env) := by
  cases handler with
  | lightStatus => exact absurd rfl h
  | null | enosys | panGateway => exact Calm.refl now d
  | powerState => exact calm_withBulb (fun d b => calm_setPowerState d now b _)
  | tagLabels => exact Calm.of_quiet now (quiet_tags.handleTagLabels (Set.mem_univ _) d g env)
  | tags => exact calm_withBulb (fun d b => calm_setTags d now b _)
  | ipState => exact calm_handleIpState d now g hdr env _
  | ipFirmwareInfo => exact calm_handleIpFirmwareInfo d now g hdr env _
  | productInfo => exact calm_report (fun _ => keepsNote_setProductInfo _)
  | runtimeInfo => exact calm_report (fun _ => keepsNote_setRuntimeInfo _ _)
  | bulbLabel => exact calm_report (fun _ => keepsNote_setLabel _)
  | ambientLight => exact calm_report (fun _ => keepsNote_setAmbientLight _)

/-- A light status of a known bulb stores the state; then it does nothing more to the note,
or clears it, or sends the command again. -/
theorem lightStatus_cases (d : Daemon) (now : Time) (g : GatewayRef) (b : BulbRef)
    (state : LightState) (receivedAt : Time) {bulb : Bulb}
    (hbulb : bulb = { d.bulb b with lastLightStateAt := receivedAt, state := state }) :
    let d' := ((d.setLightState now b state receivedAt).confirmPower now b).refreshIfSlow g
    (¬ Overdue bulb (d.gw (d.bulb b).gw).lastPktAt ∧ Sets b bulb d d') ∨
    (Overdue bulb (d.gw (d.bulb b).gw).lastPktAt ∧ bulb.expectedPowerOn = state.power ∧
      Sets b { bulb with dirtyAt := 0 } d d') ∨
    (Overdue bulb (d.gw (d.bulb b).gw).lastPktAt ∧ bulb.expectedPowerOn ≠ state.power ∧
      d'.bulb = Function.update d.bulb b
        { bulb with dirtyAt := now, expectedPowerOn := resentPower bulb.expectedPowerOn } ∧
      ∃ clientId site, d'.traffic = Function.update d.traffic (d.bulb b).gw
        ((d.gw (d.bulb b).gw).lastPktAt,powerCommands (d.gw (d.bulb b).gw) ++
          [(Request.setPowerState (resentPower bulb.expectedPowerOn)).packet clientId
            (.device (d.bulb b).addr) site])) := by
  intro d'
  have hset := sets_setLightState d now b state receivedAt
  rw [← hbulb] at hset
  have hrefresh := quiet_refreshIfSlow ((d.setLightState now b state receivedAt).confirmPower now b) g
  change Quiet _ d' at hrefresh
  have hcases := (d.setLightState now b state receivedAt).confirmPower_cases now b
  generalize d.setLightState now b state receivedAt = D at *
  have hrecord : D.bulb b = bulb := by simp [hset.bulb]
  have hgw : bulb.gw = (d.bulb b).gw := by simp [hbulb]
  have haddr : bulb.addr = (d.bulb b).addr := by simp [hbulb]
  have hstate : bulb.state = state := by simp [hbulb]
  have hlast : (D.gw (d.bulb b).gw).lastPktAt = (d.gw (d.bulb b).gw).lastPktAt :=
    lastPktAt_of_traffic hset.traffic _
  have hlog : powerCommands (D.gw (d.bulb b).gw) = powerCommands (d.gw (d.bulb b).gw) :=
    congrArg Prod.snd (congrFun hset.traffic _)
  rw [hrecord,hgw,hlast,hstate] at hcases
  rcases hcases with ⟨hover,heq⟩ | ⟨hover,hpower,heq⟩ | ⟨hover,hpower,heq⟩
  · rw [heq] at hrefresh
    exact Or.inl ⟨hover,hset.before hrefresh⟩
  · refine Or.inr (Or.inl ⟨hover,hpower,?_⟩)
    have hclear := sets_modifyBulb D b (fun bulb => { bulb with dirtyAt := 0 })
    rw [← heq,hrecord] at hclear
    have hboth := hclear.before hrefresh
    refine ⟨?_,hboth.traffic.trans hset.traffic⟩
    simp [hboth.bulb,hset.bulb]
  · refine Or.inr (Or.inr ⟨hover,hpower,?_,D.clientId,(D.gw (d.bulb b).gw).site,?_⟩)
    · simp only [hrefresh.bulb,heq,bulb_sendPower,hrecord]
      simp [hset.bulb]
    · simp only [hrefresh.traffic,heq,traffic_sendPower,hrecord,hgw,haddr,hlast,hlog,hset.traffic]

end Lightsd.Lifx.Daemon
