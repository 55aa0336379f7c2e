import Lightsd.Lifx.Discovery
import Lightsd.Lifx.TagRules

/-! # What is recorded of bulbs and of the traffic of gateways

Most operations of the daemon leave the records of the bulbs alone, do not touch the
time of the last packet of a gateway and queue no power command. The setters replace
the record of one bulb. Together these facts say what a packet changes about a bulb,
without unfolding how tags are counted and which requests are sent on the way.
-/
namespace Lightsd.Lifx.Daemon

open Lightsd.Core

/-- The power commands queued on a gateway so far, dropped ones included. -/
def powerCommands (gw : Gateway) : List OutPacket :=
  gw.enqueued.filter (fun p => p.info.type = .setPowerState)

/-- The time of the last packet and the power commands of each gateway. -/
def traffic (d : Daemon) (g : GatewayRef) : Time × List OutPacket :=
  ((d.gw g).lastPktAt,powerCommands (d.gw g))

/-- No record of a bulb and no traffic has changed. -/
structure Quiet (d d' : Daemon) : Prop where
  bulb : d'.bulb = d.bulb
  traffic : d'.traffic = d.traffic

namespace Quiet

theorem refl (d : Daemon) : Quiet d d := ⟨rfl,rfl⟩

theorem trans {d d' d'' : Daemon} (h : Quiet d d') (h' : Quiet d' d'') : Quiet d d'' :=
  ⟨h'.bulb.trans h.bulb,h'.traffic.trans h.traffic⟩

theorem of_heaps {d d' : Daemon} (hb : d'.bulb = d.bulb) (hg : d'.gw = d.gw) : Quiet d d' :=
  ⟨hb,by funext g; simp [Daemon.traffic,hg]⟩

theorem ite {d d' d'' : Daemon} {p : Prop} [Decidable p] (h' : Quiet d d') (h'' : Quiet d d'') :
    Quiet d (if p then d' else d'') := by
  split
  · exact h'
  · exact h''

theorem foldl {α : Type} {f : Daemon → α → Daemon} (hf : ∀ d x, Quiet d (f d x)) (d : Daemon)
    (l : List α) : Quiet d (l.foldl f d) := Runs.foldl_related refl trans (fun d x _ => hf d x) d

end Quiet

theorem quiet_fault (d : Daemon) (f : Fault) : Quiet d (d.fault f) := .of_heaps rfl rfl

theorem quiet_check (d : Daemon) (c : Bool) (f : Fault) : Quiet d (d.check c f) := by
  cases c
  · exact quiet_fault d f
  · exact .refl d

theorem quiet_statsAdd (d : Daemon) (c : Counter) (value : ℤ) : Quiet d (d.statsAdd c value) :=
  (quiet_check d _ _).trans (.of_heaps rfl rfl)

theorem traffic_modifyGw {d : Daemon} {g : GatewayRef} {f : Gateway → Gateway}
    (hp : (f (d.gw g)).lastPktAt = (d.gw g).lastPktAt)
    (hc : powerCommands (f (d.gw g)) = powerCommands (d.gw g)) :
    (d.modifyGw g f).traffic = d.traffic :=
  update_keeps (fun gw => (gw.lastPktAt,powerCommands gw)) (by simp [hp,hc])

theorem quiet_modifyGw {d : Daemon} {g : GatewayRef} {f : Gateway → Gateway}
    (hp : (f (d.gw g)).lastPktAt = (d.gw g).lastPktAt)
    (hc : powerCommands (f (d.gw g)) = powerCommands (d.gw g)) : Quiet d (d.modifyGw g f) :=
  ⟨rfl,traffic_modifyGw hp hc⟩

theorem enqueuePacket_logs (gw : Gateway) (p : OutPacket) :
    (gw.enqueuePacket p).enqueued = gw.enqueued ++ [p] ∧
      (gw.enqueuePacket p).lastPktAt = gw.lastPktAt := by
  refine ⟨gw.enqueued_enqueuePacket p,?_⟩
  unfold Gateway.enqueuePacket
  split <;> rfl

theorem info_type_of_power {req : Request} (h : Request.power? req = none) :
    req.info.type ≠ .setPowerState := by
  cases req <;> simp_all [Request.info,PacketInfo.requestOnly,Request.power?]

section Requests
variable {req : Request} (h : Request.power? req = none)
include h

theorem quiet_enqueue (d : Daemon) (g : GatewayRef) (target : Target) :
    Quiet d (d.enqueue g target req) := by
  obtain ⟨hlog,hpkt⟩ := enqueuePacket_logs (d.gw g) (req.packet d.clientId target (d.gw g).site)
  refine quiet_modifyGw hpkt ?_
  have htype : ((req.packet d.clientId target (d.gw g).site).info.type = .setPowerState) = False := by
    simpa [Request.packet] using info_type_of_power h
  simp [powerCommands,hlog,htype]

theorem quiet_sendToSite (d : Daemon) (g : GatewayRef) : Quiet d (d.sendToSite g req) :=
  quiet_enqueue h d g .site

theorem quiet_expectPower (d : Daemon) (now : Time) (b : BulbRef) :
    Quiet d (d.expectPower now req b) := by
  refine .of_heaps ?_ rfl
  simp [expectPower,modifyBulb,Bulb.expectPower,h]

theorem quiet_router (now : Time) : RouterRule now req Quiet where
  refl := Quiet.refl
  trans := Quiet.trans
  check := fun d c _ _ _ => quiet_check d c _
  enqueue := quiet_enqueue h
  expectPower := fun d b => quiet_expectPower h d now b

theorem quiet_sendToDevice (d : Daemon) (now : Time) (b : BulbRef) :
    Quiet d (d.sendToDevice now req b) := (quiet_router h now).sendToDevice d b

end Requests

theorem quiet_addTagRef (g : GatewayRef) (d : Daemon) (id : ℕ) : Quiet d (addTagRef g d id) :=
  .ite (quiet_modifyGw rfl rfl) (.refl d)

theorem quiet_releaseTagRef (g : GatewayRef) (d : Daemon) (id : ℕ) : Quiet d (releaseTagRef g d id) := by
  unfold releaseTagRef
  exact (quiet_check d _ _).trans (quiet_modifyGw rfl rfl)

theorem quiet_dropTagRef (g : GatewayRef) (d : Daemon) (id : ℕ) : Quiet d (dropTagRef g d id) :=
  (quiet_releaseTagRef g d id).trans (.ite (quiet_sendToSite (by rfl) _ g) (.refl _))

theorem quiet_updateTagRefcounts (d : Daemon) (g : GatewayRef) (bulbTags pktTags : TagMask) :
    Quiet d (d.updateTagRefcounts g bulbTags pktTags) :=
  (Quiet.foldl (quiet_addTagRef g) d _).trans (Quiet.foldl (quiet_dropTagRef g) _ _)

theorem quiet_notePower (d : Daemon) (now : Time) (b : BulbRef) (power : UInt16) :
    Quiet d (d.notePower now b power) :=
  .ite ((quiet_statsAdd d _ _).trans (quiet_sendToDevice (by rfl) _ now b)) (.refl d)

theorem quiet_tags : TagRule Set.univ Quiet where
  refl := Quiet.refl
  trans := Quiet.trans
  shortLabel := fun d _ _ => quiet_check d _ _
  fault := fun d f _ _ => quiet_fault d f
  registry := fun _ _ _ _ => .of_heaps rfl rfl
  setTag := fun _ _ _ _ => quiet_modifyGw rfl rfl
  clearTag := fun _ _ _ => quiet_modifyGw rfl rfl

theorem quiet_sendGetAllLightState (d : Daemon) (g : GatewayRef) :
    Quiet d (d.sendGetAllLightState g) := by
  have hstate : Quiet d (d.sendToSite g .getLightState) := quiet_sendToSite rfl d g
  unfold sendGetAllLightState
  exact (hstate.trans (quiet_sendToSite rfl _ g)).trans (quiet_modifyGw rfl rfl)

theorem quiet_refreshIfSlow (d : Daemon) (g : GatewayRef) : Quiet d (d.refreshIfSlow g) :=
  .ite (.refl d) (.ite (.refl d) (quiet_sendGetAllLightState d g))

theorem quiet_bulbClose (d : Daemon) (b : BulbRef) : Quiet d (d.bulbClose b) := by
  have hcount : Quiet d ((foreachTagId (d.bulb b).state.tags).foldl (recountTag b) d) := by
    refine Quiet.foldl (fun d id => ?_) d _
    unfold recountTag
    exact (quiet_check d _ _).trans (quiet_check _ _ _)
  unfold bulbClose
  have hstats := hcount.trans (quiet_statsAdd _ .bulbs (-1))
  exact (hstats.trans (.ite (quiet_statsAdd _ _ _) (.refl _))).trans (.of_heaps rfl rfl)

theorem quiet_removeAndCloseBulb (d : Daemon) (g : GatewayRef) (b : BulbRef) :
    Quiet d (d.removeAndCloseBulb g b) := by
  have hrefs : Quiet d ((foreachTagId (d.bulb b).state.tags).foldl (releaseTagRef g) d) :=
    Quiet.foldl (quiet_releaseTagRef g) d _
  have hremove : ∀ d : Daemon, Quiet d (d.modifyGw g (·.removeBulb b)) := fun _ => quiet_modifyGw rfl rfl
  exact (hrefs.trans (hremove _)).trans (quiet_bulbClose _ b)

theorem quiet_gatewayClose (d : Daemon) (g : GatewayRef) : Quiet d (d.gatewayClose g) := by
  have hdrop : ∀ d : Daemon, Quiet d { d with gateways := d.gateways.erase g } :=
    fun _ => .of_heaps rfl rfl
  unfold gatewayClose
  have hpre := ((quiet_statsAdd d .gateways (-1)).trans (hdrop _)).trans
    (Quiet.foldl (quiet_tags.releaseTag g) _ (List.range maxTags))
  exact hpre.trans (Quiet.foldl (fun d b => quiet_removeAndCloseBulb d g b) _ _)

theorem quiet_gatewayCloseAll (d : Daemon) : Quiet d d.gatewayCloseAll :=
  Quiet.foldl quiet_gatewayClose d _

theorem quiet_watchdog (d : Daemon) (now : Time) : Quiet d (d.watchdog now) :=
  (Quiet.foldl (fun d b => .ite (quiet_removeAndCloseBulb d _ b) (.refl d)) d _).trans
    (Quiet.foldl (fun d g => .ite (quiet_gatewayClose d g) (.refl d)) _ _)

theorem quiet_fetchHardwareInfo (d : Daemon) (now : Time) (addr : Addr) :
    Quiet d (d.fetchHardwareInfo now addr) := by
  have hresend : ∀ {req : Request} (_ : Request.power? req = none) (test : Bool) (b : BulbRef) d,
      Quiet d (resendIf test now req b d) :=
    fun h _ b d => .ite (quiet_sendToDevice h d now b) (.refl d)
  unfold fetchHardwareInfo
  split
  · exact .refl d
  · exact ((hresend rfl _ _ d).trans (hresend rfl _ _ _)).trans (hresend rfl _ _ _)

theorem quiet_written {d : Daemon} {g : GatewayRef} {now : Time} {r : WriteResult} {gw : Gateway}
    (h : (d.gw g).writeEvent now r = some gw) : Quiet d (d.modifyGw g (fun _ => gw)) := by
  cases r with
  | error => cases h
  | wrote k =>
    cases h
    exact quiet_modifyGw rfl rfl
  | eagain =>
    cases h
    exact quiet_modifyGw rfl rfl

/-- The record of one bulb was replaced. -/
structure Sets (b : BulbRef) (bulb : Bulb) (d d' : Daemon) : Prop where
  bulb : d'.bulb = Function.update d.bulb b bulb
  traffic : d'.traffic = d.traffic

theorem Sets.after {b : BulbRef} {bulb : Bulb} {d d' d'' : Daemon} (h : Quiet d d')
    (h' : Sets b bulb d' d'') : Sets b bulb d d'' :=
  ⟨by rw [h'.bulb,h.bulb],h'.traffic.trans h.traffic⟩

theorem Sets.before {b : BulbRef} {bulb : Bulb} {d d' d'' : Daemon} (h : Sets b bulb d d')
    (h' : Quiet d' d'') : Sets b bulb d d'' :=
  ⟨h'.bulb.trans h.bulb,h'.traffic.trans h.traffic⟩

theorem sets_modifyBulb (d : Daemon) (b : BulbRef) (f : Bulb → Bulb) :
    Sets b (f (d.bulb b)) d (d.modifyBulb b f) := ⟨rfl,rfl⟩

theorem sets_setLightState (d : Daemon) (now : Time) (b : BulbRef) (state : LightState)
    (receivedAt : Time) :
    Sets b { d.bulb b with lastLightStateAt := receivedAt, state := state } d
      (d.setLightState now b state receivedAt) := by
  have hquiet := (quiet_notePower d now b state.power).trans (quiet_updateTagRefcounts _
    ((d.notePower now b state.power).bulb b).gw ((d.notePower now b state.power).bulb b).state.tags
    state.tags)
  have hset := sets_modifyBulb ((d.notePower now b state.power).updateTagRefcounts
    ((d.notePower now b state.power).bulb b).gw ((d.notePower now b state.power).bulb b).state.tags
    state.tags) b (fun bulb => { bulb with lastLightStateAt := receivedAt, state := state })
  rw [hquiet.bulb] at hset
  exact hset.after hquiet

theorem sets_setPowerState (d : Daemon) (now : Time) (b : BulbRef) (power : UInt16) :
    Sets b { d.bulb b with state := { (d.bulb b).state with power := power } } d
      (d.setPowerState now b power) := by
  have hquiet := quiet_notePower d now b power
  have hset := sets_modifyBulb (d.notePower now b power) b
    (fun bulb => { bulb with state := { bulb.state with power := power } })
  rw [hquiet.bulb] at hset
  exact hset.after hquiet

theorem sets_setTags (d : Daemon) (b : BulbRef) (tags : TagMask) :
    Sets b { d.bulb b with state := { (d.bulb b).state with tags := tags } } d (d.setTags b tags) := by
  have hquiet := quiet_updateTagRefcounts d (d.bulb b).gw (d.bulb b).state.tags tags
  have hset := sets_modifyBulb (d.updateTagRefcounts (d.bulb b).gw (d.bulb b).state.tags tags) b
    (fun bulb => { bulb with state := { bulb.state with tags := tags } })
  rw [hquiet.bulb] at hset
  exact hset.after hquiet

/-- The bulb a packet is about is in the table, or opened on the gateway, or there is no
memory for it. -/
theorem getOrOpenBulb_spec (d : Daemon) (g : GatewayRef) (addr : Addr) (now : Time) (ok : Bool) :
    (∃ b, d.bulbGet addr = some b ∧ d.getOrOpenBulb g addr now ok = (d,some b)) ∨
    (d.bulbGet addr = none ∧ ok = true ∧ ∃ d', d.getOrOpenBulb g addr now ok = (d',some d.nextBulb) ∧
      Sets d.nextBulb { gw := g, addr := addr, lastLightStateAt := now } d d') ∨
    (d.bulbGet addr = none ∧ ok = false ∧ d.getOrOpenBulb g addr now ok = (d,none)) := by
  unfold getOrOpenBulb
  cases hget : d.bulbGet addr with
  | some b => exact Or.inl ⟨b,rfl,rfl⟩
  | none =>
    cases ok with
    | false => exact Or.inr (Or.inr ⟨rfl,rfl,rfl⟩)
    | true =>
      refine Or.inr (Or.inl ⟨rfl,rfl,_,rfl,?_⟩)
      have hinsert : Quiet (d.bulbOpen g addr now)
          ((d.bulbOpen g addr now).modifyGw g (·.insertBulb d.nextBulb)) := quiet_modifyGw rfl rfl
      have hstats := quiet_statsAdd { d with
        bulb := Function.update d.bulb d.nextBulb { gw := g, addr := addr, lastLightStateAt := now }
        nextBulb := d.nextBulb + 1
        bulbs := insertBulb (Function.update (fun b => (d.bulb b).addr) d.nextBulb addr)
          d.nextBulb d.bulbs } .bulbs 1
      exact ⟨hinsert.bulb.trans hstats.bulb,hinsert.traffic.trans hstats.traffic⟩

end Lightsd.Lifx.Daemon
