import Lightsd.Library.Runs
import Lightsd.Lifx.Receive

/-! # Refreshes of a gateway

A gateway is asked for the states of its bulbs by two requests, on behalf of a timer or of a
light state that took long. Seen from the queue of the gateway, the handler of light states
sends some packets of other types and then a refresh, if it is due.
-/
namespace Lightsd.Lifx

namespace Gateway

/-- `lgtd_lifx_gateway_send_get_all_light_state`. -/
def sendGetAllLightState (clientId : UInt32) (gw : Gateway) : Gateway :=
  let gw := gw.enqueuePacket (Request.getLightState.packet clientId .site gw.site)
  let gw := gw.enqueuePacket ((Request.getTagLabels (BitVec.allOnes 64)).packet clientId .site gw.site)
  { gw with pendingRefreshReq := true }

/-- The end of the handler of light states. -/
def refreshIfSlow (clientId : UInt32) (gw : Gateway) : Gateway :=
  if gw.latency < minRefreshInterval then gw
  else if gw.pendingRefreshReq then gw
  else gw.sendGetAllLightState clientId

/-- A packet that a gateway understands is noted before its handler runs. -/
def noted (gw : Gateway) (receivedAt : Time) : Gateway := { gw with lastPktAt := receivedAt }

/-- The handler of light states, with the packets that it sends to bulbs of the gateway
before it comes to its end. -/
def lightStatus (clientId : UInt32) (receivedAt : Time) (replies : List OutPacket) (gw : Gateway) : Gateway :=
  ((gw.noted receivedAt).enqueueAll replies).refreshIfSlow clientId

end Gateway

namespace Daemon
variable (d : Daemon) (g : GatewayRef)

theorem gw_sendGetAllLightState :
    (d.sendGetAllLightState g).gw g = (d.gw g).sendGetAllLightState d.clientId := by
  simp [sendGetAllLightState,sendToSite,enqueue,modifyGw,Gateway.sendGetAllLightState]

theorem gw_refreshIfSlow : (d.refreshIfSlow g).gw g = (d.gw g).refreshIfSlow d.clientId := by
  unfold refreshIfSlow Gateway.refreshIfSlow
  split
  · rfl
  · split
    · rfl
    · exact gw_sendGetAllLightState d g

end Daemon

/-- No one else asks for the labels of tags. -/
def RefreshEvent.Other (p : OutPacket) : Prop := p.info.type ≠ .getTagLabels

theorem queuePart_refreshIfSlow (gw : Gateway) (clientId : UInt32) :
    (gw.refreshIfSlow clientId).queuePart = gw.queuePart.refreshIfSlow clientId := by
  have hsite : ∀ (gw : Gateway) p, (gw.enqueuePacket p).site = gw.site := by
    intro gw p
    cases hfull : gw.pktRingFull <;> simp [Gateway.enqueuePacket,hfull]
  have hsend : (gw.sendGetAllLightState clientId).queuePart = gw.queuePart.sendGetAllLightState clientId := by
    have hflag : ∀ gw : Gateway, ({ gw with pendingRefreshReq := true } : Gateway).queuePart =
        { gw.queuePart with pendingRefreshReq := true } := fun _ => rfl
    have hsent : ∀ gw : Gateway, gw.sendGetAllLightState clientId =
        { (gw.enqueuePacket (Request.getLightState.packet clientId .site gw.site)).enqueuePacket
            ((Request.getTagLabels (BitVec.allOnes 64)).packet clientId .site gw.site) with
          pendingRefreshReq := true } := by
      intro gw
      unfold Gateway.sendGetAllLightState
      simp only [hsite]
    rw [hsent,hsent,hflag,Gateway.queuePart_enqueuePacket,Gateway.queuePart_enqueuePacket]
    rfl
  unfold Gateway.refreshIfSlow
  split
  next hfast => exact (if_pos hfast).symm
  next hslow =>
    rw [if_neg (show ¬ gw.queuePart.latency < minRefreshInterval from hslow)]
    split
    next hset => exact (if_pos hset).symm
    next hclear => rw [hsend,if_neg (show ¬ gw.queuePart.pendingRefreshReq = true from hclear)]

/-- Apart from bulbs and tags, a gateway has only got packets other than those of a refresh. -/
structure Sends (g : GatewayRef) (d d' : Daemon) : Prop where
  clientId : d'.clientId = d.clientId
  packets : ∃ ps, (∀ p ∈ ps, RefreshEvent.Other p) ∧ (d'.gw g).queuePart = (d.gw g).queuePart.enqueueAll ps

namespace Sends
variable {g : GatewayRef} {d d' d'' : Daemon}

theorem of_eq (hid : d'.clientId = d.clientId) (hgw : (d'.gw g).queuePart = (d.gw g).queuePart) : Sends g d d' :=
  ⟨hid,[],by simp,hgw⟩

theorem refl (d : Daemon) : Sends g d d := of_eq rfl rfl

theorem trans (h : Sends g d d') (h' : Sends g d' d'') : Sends g d d'' := by
  obtain ⟨ps,hps,hgw⟩ := h.packets
  obtain ⟨ps',hps',hgw'⟩ := h'.packets
  refine ⟨h'.clientId.trans h.clientId,ps ++ ps',fun p hp => ?_,?_⟩
  · exact (List.mem_append.mp hp).elim (hps p) (hps' p)
  · rw [hgw',hgw,Gateway.enqueueAll_append]

theorem foldl {α : Type} {f : Daemon → α → Daemon} (hf : ∀ d a, Sends g d (f d a)) (as : List α) (d : Daemon) :
    Sends g d (as.foldl f d) := Runs.foldl_related refl trans (fun d a _ => hf d a) d

theorem modifyGw (d : Daemon) (x : GatewayRef) (f : Gateway → Gateway)
    (hf : ∀ gw, (f gw).queuePart = gw.queuePart) : Sends g d (d.modifyGw x f) := by
  refine of_eq rfl ?_
  by_cases hx : g = x
  · subst hx
    simpa [Daemon.modifyGw] using hf (d.gw g)
  · simp [Daemon.modifyGw,hx]

theorem check (d : Daemon) (cond : Bool) (f : Fault) : Sends g d (d.check cond f) := by
  cases cond <;> exact of_eq rfl rfl

theorem statsAdd (d : Daemon) (c : Counter) (value : ℤ) : Sends g d (d.statsAdd c value) :=
  (check d _ _).trans (of_eq rfl rfl)

theorem enqueue (d : Daemon) (x : GatewayRef) (target : Target) {req : Request} (hreq : req.info.type ≠ .getTagLabels) :
    Sends g d (d.enqueue x target req) := by
  by_cases hx : g = x
  · subst hx
    refine ⟨rfl,[req.packet d.clientId target (d.gw g).site],by simpa [RefreshEvent.Other,Request.packet] using hreq,?_⟩
    simp [Daemon.enqueue,Daemon.modifyGw,Gateway.enqueueAll,Gateway.queuePart_enqueuePacket]
  · exact of_eq rfl (by simp [Daemon.enqueue,Daemon.modifyGw,hx])

theorem sendToDevice (d : Daemon) (now : Time) {req : Request} (hreq : req.info.type ≠ .getTagLabels) (b : BulbRef) :
    Sends g d (d.sendToDevice now req b) :=
  (enqueue d _ _ hreq).trans (of_eq rfl rfl)

theorem notePower (d : Daemon) (now : Time) (b : BulbRef) (power : UInt16) : Sends g d (d.notePower now b power) := by
  unfold Daemon.notePower
  split
  · have hinfo : Request.getInfo.info.type ≠ .getTagLabels := by decide
    exact (statsAdd d _ _).trans (sendToDevice _ now hinfo b)
  · exact refl d

theorem updateTagRefcounts (d : Daemon) (x : GatewayRef) (old new : TagMask) :
    Sends g d (d.updateTagRefcounts x old new) := by
  have hadd : ∀ d id, Sends g d (Daemon.addTagRef x d id) := by
    intro d id
    unfold Daemon.addTagRef
    split
    · exact modifyGw d x _ (fun _ => rfl)
    · exact refl d
  have hdrop : ∀ d id, Sends g d (Daemon.dropTagRef x d id) := by
    intro d id
    have hrelease : Sends g d (Daemon.releaseTagRef x d id) := by
      unfold Daemon.releaseTagRef
      exact (check d _ _).trans (modifyGw _ x _ (fun _ => rfl))
    unfold Daemon.dropTagRef
    simp only
    split
    · exact hrelease.trans (enqueue _ x .site (by simp [Request.info,PacketInfo.requestOnly]))
    · exact hrelease
  exact (foldl hadd _ d).trans (foldl hdrop _ _)

theorem getOrOpenBulb (d : Daemon) (x : GatewayRef) (addr : Addr) (now : Time) (bulbOk : Bool) :
    Sends g d (d.getOrOpenBulb x addr now bulbOk).1 := by
  unfold Daemon.getOrOpenBulb
  split
  · exact refl d
  · split
    · have hopen : Sends g d (d.bulbOpen x addr now) := by
        unfold Daemon.bulbOpen
        refine trans ?_ (statsAdd _ _ _)
        exact of_eq rfl rfl
      exact hopen.trans (modifyGw _ x (·.insertBulb d.nextBulb) (fun _ => rfl))
    · exact refl d

theorem confirmPower (d : Daemon) (now : Time) (b : BulbRef) : Sends g d (d.confirmPower now b) := by
  unfold Daemon.confirmPower
  simp only
  split
  · split
    · exact of_eq rfl rfl
    · exact sendToDevice d now (by simp [Request.info,PacketInfo.requestOnly]) b
  · exact refl d

/-- What the daemon does with a light state is what the event below does to the queue of the
gateway, unless there is no memory for the bulb. -/
theorem handleLightStatus (d : Daemon) (now : Time) (addr : Addr) (env : Env) (state : LightState) :
    Sends g d (d.handleLightStatus now g addr env state) ∨
      ∃ ps, (∀ p ∈ ps, RefreshEvent.Other p) ∧ ((d.handleLightStatus now g addr env state).gw g).queuePart =
        ((d.gw g).queuePart.enqueueAll ps).refreshIfSlow d.clientId := by
  have hopen : Sends g d (d.getOrOpenBulb g addr now env.bulbOk).1 := getOrOpenBulb d g addr now env.bulbOk
  unfold Daemon.handleLightStatus
  generalize d.getOrOpenBulb g addr now env.bulbOk = r at hopen
  obtain ⟨d₁,b⟩ := r
  cases b with
  | none => exact .inl hopen
  | some b =>
    have hset : Sends g d₁ (d₁.setLightState now b state (d₁.gw g).lastPktAt) := by
      unfold Daemon.setLightState
      exact ((notePower d₁ now b state.power).trans (updateTagRefcounts _ _ _ _)).trans (of_eq rfl rfl)
    have hsends := (hopen.trans hset).trans (confirmPower _ now b)
    obtain ⟨ps,hps,hgw⟩ := hsends.packets
    refine .inr ⟨ps,hps,?_⟩
    simp only
    rw [Daemon.gw_refreshIfSlow,queuePart_refreshIfSlow,hsends.clientId,hgw]

end Sends

end Lightsd.Lifx
