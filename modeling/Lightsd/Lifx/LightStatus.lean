import Lightsd.Lifx.Datagrams
import Lightsd.Lifx.PowerConfirmation

/-! # The effect of a light status

Put together from the datagram down to the records: what a received light status can
do to the notes of power commands and to the queues of the gateways, in terms of the
state before it. The guard of the source is evaluated after the packet has been noted on
the gateway it came through, which need not be the gateway of the bulb.
-/
namespace Lightsd.Lifx

namespace Daemon

/-- The note of the last power command on a bulb. -/
def note (d : Daemon) (b : BulbRef) : Time × UInt16 := ((d.bulb b).dirtyAt,(d.bulb b).expectedPowerOn)

/-- The time of the last packet of a gateway once a packet has come through another one. -/
def lastPktAfter (d : Daemon) (now : Time) (g own : GatewayRef) : Time :=
  if own = g then now else (d.gw own).lastPktAt

/-- The guard of the source, in terms of the state before the packet. -/
def PassesGuard (d : Daemon) (now : Time) (g : GatewayRef) (b : BulbRef) : Prop :=
  (d.bulb b).dirtyAt ≠ 0 ∧ now > (d.bulb b).dirtyAt ∧
    d.lastPktAfter now g (d.bulb b).gw - (d.bulb b).dirtyAt > 400

/-- All that a light status can do to the notes and to the power commands. -/
structure StatusEffect (d : Daemon) (now : Time) (g : GatewayRef) (addr : Addr) (power : UInt16)
    (d' : Daemon) : Prop where
  lastPktAt : ∀ x, (d'.gw x).lastPktAt = now ∨ (d'.gw x).lastPktAt = (d.gw x).lastPktAt
  effect :
    ((∀ b, d.bulbGet addr = some b → ¬ d.PassesGuard now g b) ∧
      (∀ b, d'.note b = d.note b ∨ b = d.nextBulb ∧ (d'.bulb b).dirtyAt = 0) ∧
      ∀ x, newCommands d d' x = []) ∨
    (∃ b, d.bulbGet addr = some b ∧ d.PassesGuard now g b ∧ (d.bulb b).expectedPowerOn = power ∧
      d'.note = Function.update d.note b (0,(d.bulb b).expectedPowerOn) ∧
      ∀ x, newCommands d d' x = []) ∨
    (∃ b, d.bulbGet addr = some b ∧ d.PassesGuard now g b ∧ (d.bulb b).expectedPowerOn ≠ power ∧
      d'.note = Function.update d.note b (now,resentPower (d.bulb b).expectedPowerOn) ∧
      (∃ clientId site, newCommands d d' (d.bulb b).gw =
        [(Request.setPowerState (resentPower (d.bulb b).expectedPowerOn)).packet clientId
          (.device (d.bulb b).addr) site]) ∧
      ∀ x, x ≠ (d.bulb b).gw → newCommands d d' x = [])

theorem StatusEffect.cleared {d d' : Daemon} {now : Time} {g : GatewayRef} {addr : Addr} {power : UInt16}
    {b : BulbRef} (h : StatusEffect d now g addr power d') (hget : d.bulbGet addr = some b)
    (hguard : d.PassesGuard now g b) (hpower : (d.bulb b).expectedPowerOn = power) :
    d'.note b = (0,power) := by
  rcases h.effect with ⟨hnot,-⟩ | ⟨x,hx,-,-,hnote,-⟩ | ⟨x,hx,-,hne,-⟩
  · exact absurd hguard (hnot b hget)
  · cases hget.symm.trans hx
    simp [hnote,hpower]
  · cases hget.symm.trans hx
    exact absurd hpower hne

theorem note_of_sets {d d' : Daemon} {b : BulbRef} {bulb : Bulb} (h : Sets b bulb d d') :
    d'.note = Function.update d.note b (bulb.dirtyAt,bulb.expectedPowerOn) := by
  funext x
  by_cases hx : x = b
  · subst hx
    simp [note,h.bulb]
  · simp [note,h.bulb,hx]

/-- A light status about a bulb in the table, on a gateway that has just noted the packet. -/
theorem statusEffect_known {d d₁ : Daemon} {now : Time} {g : GatewayRef} {addr : Addr}
    {b : BulbRef} (state : LightState) (hbulb : d₁.bulb = d.bulb)
    (htraffic : d₁.traffic = Function.update d.traffic g (now,powerCommands (d.gw g)))
    (hget : d.bulbGet addr = some b) :
    StatusEffect d now g addr state.power
      (((d₁.setLightState now b state now).confirmPower now b).refreshIfSlow g) := by
  have hlast : ∀ x, (d₁.gw x).lastPktAt = d.lastPktAfter now g x := by
    intro x
    have hx := congrArg Prod.fst (congrFun htraffic x)
    by_cases hxg : x = g
    · subst hxg
      simpa [lastPktAfter,traffic] using hx
    · simpa [lastPktAfter,traffic,hxg] using hx
  have hlog : ∀ x, powerCommands (d₁.gw x) = powerCommands (d.gw x) := by
    intro x
    have hx := congrArg Prod.snd (congrFun htraffic x)
    by_cases hxg : x = g
    · subst hxg
      simpa [traffic] using hx
    · simpa [traffic,hxg] using hx
  have hold : ∀ x, d.lastPktAfter now g x = now ∨ d.lastPktAfter now g x = (d.gw x).lastPktAt := by
    intro x
    by_cases hxg : x = g <;> simp [lastPktAfter,hxg]
  have hcases := lightStatus_cases d₁ now g b state now rfl
  simp only [hbulb,hlast] at hcases
  generalize ((d₁.setLightState now b state now).confirmPower now b).refreshIfSlow g = d' at *
  have hquiet : d'.traffic = d₁.traffic → ∀ x, newCommands d d' x = [] := fun h x =>
    newCommands_of_traffic ((congrArg Prod.snd (congrFun h x)).trans (hlog x))
  have hpkt : d'.traffic = d₁.traffic →
      ∀ x, (d'.gw x).lastPktAt = now ∨ (d'.gw x).lastPktAt = (d.gw x).lastPktAt := by
    intro h x
    rw [lastPktAt_of_traffic h,hlast]
    exact hold x
  have hnote : d₁.note = d.note := by
    funext x
    simp [note,hbulb]
  rcases hcases with ⟨hover,hset⟩ | ⟨hover,hpower,hset⟩ | ⟨hover,hpower,hrecord,clientId,site,hsent⟩
  · refine ⟨hpkt hset.traffic,Or.inl ⟨fun x hx => ?_,fun x => Or.inl ?_,hquiet hset.traffic⟩⟩
    · cases hget.symm.trans hx
      exact hover
    have hsame : d'.note = d.note := by
      rw [note_of_sets hset,hnote]
      exact Function.update_eq_self b d.note
    rw [hsame]
  · refine ⟨hpkt hset.traffic,Or.inr (Or.inl ⟨b,hget,hover,hpower,?_,hquiet hset.traffic⟩)⟩
    rw [note_of_sets hset,hnote]
  · refine ⟨?_,Or.inr (Or.inr ⟨b,hget,hover,hpower,?_,⟨clientId,site,?_⟩,?_⟩)⟩
    · intro x
      have hx := congrArg Prod.fst (congrFun hsent x)
      by_cases hxg : x = (d.bulb b).gw
      · subst hxg
        simp only [Function.update_self] at hx
        rw [show (d'.gw (d.bulb b).gw).lastPktAt = _ from hx]
        exact hold _
      · simp only [Function.update_of_ne hxg] at hx
        rw [show (d'.gw x).lastPktAt = (d₁.gw x).lastPktAt from hx,hlast]
        exact hold x
    · funext x
      by_cases hx : x = b
      · subst hx
        simp [note,hrecord]
      · simp [note,hrecord,hx]
    · have hx := congrArg Prod.snd (congrFun hsent (d.bulb b).gw)
      simp only [Function.update_self,hlog] at hx
      have hcommands : powerCommands (d'.gw (d.bulb b).gw) = _ := hx
      simp [newCommands,hcommands]
    · intro x hxg
      have hx := congrArg Prod.snd (congrFun hsent x)
      simp only [Function.update_of_ne hxg] at hx
      exact newCommands_of_traffic (hx.trans (hlog x))

theorem newCommands_after {d d' : Daemon} {now : Time} {g : GatewayRef}
    (h : d'.traffic = Function.update d.traffic g (now,powerCommands (d.gw g))) (x : GatewayRef) :
    newCommands d d' x = [] ∧
      ((d'.gw x).lastPktAt = now ∨ (d'.gw x).lastPktAt = (d.gw x).lastPktAt) := by
  have hx := congrFun h x
  by_cases hxg : x = g
  · subst hxg
    simp only [Function.update_self] at hx
    have hlog : (d'.traffic x).2 = powerCommands (d.gw x) := congrArg Prod.snd hx
    exact ⟨newCommands_of_traffic hlog,Or.inl (congrArg Prod.fst hx)⟩
  · simp only [Function.update_of_ne hxg] at hx
    exact ⟨newCommands_of_traffic (congrArg Prod.snd hx),Or.inr (congrArg Prod.fst hx)⟩

/-- A bulb that has just been opened has no note, so its first status only stores the state. -/
theorem statusEffect_opened {d d₁ d₂ : Daemon} {now : Time} {g : GatewayRef} {addr : Addr}
    {bulb : Bulb} (state : LightState) (hbulb : d₁.bulb = d.bulb)
    (htraffic : d₁.traffic = Function.update d.traffic g (now,powerCommands (d.gw g)))
    (hget : d.bulbGet addr = none) (hopen : Sets d.nextBulb bulb d₁ d₂) (hclean : bulb.dirtyAt = 0) :
    StatusEffect d now g addr state.power
      (((d₂.setLightState now d.nextBulb state now).confirmPower now d.nextBulb).refreshIfSlow g) := by
  have hcases := lightStatus_cases d₂ now g d.nextBulb state now rfl
  have hrecord : d₂.bulb d.nextBulb = bulb := by simp [hopen.bulb]
  simp only [hrecord,Overdue,hclean,ne_eq,not_true_eq_false,false_and,or_false,not_false_eq_true,
    true_and] at hcases
  generalize ((d₂.setLightState now d.nextBulb state now).confirmPower now d.nextBulb).refreshIfSlow g =
    d' at *
  have hlast := newCommands_after ((hcases.traffic.trans hopen.traffic).trans htraffic)
  refine ⟨fun x => (hlast x).2,Or.inl ⟨by simp [hget],fun b => ?_,fun x => (hlast x).1⟩⟩
  by_cases hb : b = d.nextBulb
  · subst hb
    exact Or.inr ⟨rfl,by simp [hcases.bulb]⟩
  · exact Or.inl (by simp [note,hcases.bulb,hopen.bulb,hbulb,hb])

theorem statusEffect_handleLightStatus {d d₁ : Daemon} {now : Time} {g : GatewayRef} {addr : Addr}
    {env : Env} (state : LightState) (hbulb : d₁.bulb = d.bulb) (hbulbs : d₁.bulbs = d.bulbs)
    (hnext : d₁.nextBulb = d.nextBulb)
    (htraffic : d₁.traffic = Function.update d.traffic g (now,powerCommands (d.gw g))) :
    StatusEffect d now g addr state.power (d₁.handleLightStatus now g addr env state) := by
  have hnow : (d₁.gw g).lastPktAt = now := by
    simpa [traffic] using congrArg Prod.fst (congrFun htraffic g)
  have hget : d₁.bulbGet addr = d.bulbGet addr := by simp [bulbGet,hbulb,hbulbs]
  unfold handleLightStatus
  rcases d₁.getOrOpenBulb_spec g addr now env.bulbOk with
    ⟨b,hb,heq⟩ | ⟨hnone,-,d₂,heq,hopen⟩ | ⟨hnone,-,heq⟩
  · simpa only [heq,hnow] using statusEffect_known state hbulb htraffic (hget.symm.trans hb)
  · have hnow₂ : (d₂.gw g).lastPktAt = now := (lastPktAt_of_traffic hopen.traffic g).trans hnow
    rw [hnext] at heq hopen
    simpa only [heq,hnow₂] using statusEffect_opened state hbulb htraffic (hget.symm.trans hnone)
      hopen rfl
  · have hlast := newCommands_after htraffic
    simp only [heq]
    exact ⟨fun x => (hlast x).2,Or.inl ⟨by simp [hget.symm.trans hnone],
      fun b => Or.inl (by simp [note,hbulb]),fun x => (hlast x).1⟩⟩

theorem statusEffect_dispatch {d d₀ : Daemon} {now : Time} {g : GatewayRef} {info : PacketInfo}
    {hdr : Header} {pkt : Buffer} {env : Env} (hh : info.handle = .lightStatus)
    (hbulb : d₀.bulb = d.bulb) (hbulbs : d₀.bulbs = d.bulbs) (hnext : d₀.nextBulb = d.nextBulb)
    (hgw : d₀.gw = d.gw) :
    StatusEffect d now g hdr.deviceAddr (decodeLightStatus pkt).power
      (d₀.dispatch now g info hdr pkt env) := by
  have heq : d₀.dispatch now g info hdr pkt env =
      (d₀.modifyGw g (fun gw => { gw with lastPktAt := now })).handleLightStatus now g hdr.deviceAddr
        env (decodeLightStatus pkt) := by simp [dispatch,handle,hh]
  rw [heq]
  apply statusEffect_handleLightStatus
  · exact hbulb
  · exact hbulbs
  · exact hnext
  · funext x
    by_cases hx : x = g
    · subst hx
      simp [traffic,modifyGw,powerCommands,hgw]
    · simp [traffic,modifyGw,hx,hgw]

/-- A light status has its effect when it comes from the peer of a gateway, and none
otherwise. -/
theorem handleReceive_lightStatus {d : Daemon} {now : Time} {gw : Option GatewayRef} {dg : Datagram}
    {env : Env} (h : dg.isLightStatus = true) :
    (d.handleReceive now gw dg env).2 = true ∧
    (d.receiver gw dg.peer = none → (d.handleReceive now gw dg env).1 = d) ∧
    ∀ g, d.receiver gw dg.peer = some g →
      StatusEffect d now g dg.device dg.reportedPower (d.handleReceive now gw dg env).1 := by
  obtain ⟨info,hdr,hr,hh,hhdr,hcode⟩ := dg.exists_lightStatus h
  have hdevice : dg.device = hdr.deviceAddr := by rw [hhdr,Datagram.device]
  simp only [handleReceive,hr,handlePacket,receiver,hdevice,Datagram.reportedPower]
  cases gw with
  | some g =>
    simp only [reduceCtorEq,false_implies,Option.some.injEq,true_and]
    rintro _ rfl
    cases hc : decide ((d.gw g).peer = dg.peer) <;>
      exact statusEffect_dispatch hh rfl rfl rfl rfl
  | none =>
    cases hget : d.gatewayGet dg.peer with
    | some g =>
      simp only [reduceCtorEq,false_implies,Option.some.injEq,true_and]
      rintro _ rfl
      exact statusEffect_dispatch hh rfl rfl rfl rfl
    | none => simp [hcode]

end Daemon
end Lightsd.Lifx
