import Lightsd.Core.PowerEvents
import Lightsd.Core.RouterAgreement

/-! # Power commands over whole runs

The daemon runs beside a record of the last power command each bulb was given. A light
status confirms a command, or makes the daemon repeat it, only when it comes more than
400 milliseconds after the command. That much has really passed as long as the status
comes through the gateway of its bulb, or that gateway has been heard of since the
command; otherwise the subtraction of the source wraps around.
-/
namespace Lightsd.Core

open Lifx Lifx.Daemon Runs

/-- The daemon, the clock, and the last power command each bulb was given. -/
structure PowerState where
  daemon : Daemon
  clock : Time
  last : BulbRef → Option (Time × UInt16)

/-- Power commands go through one of two functions of the router; the event loop runs
everything else. -/
inductive PowerEvent
  | routerSend (now : Time) (targets : List TargetName) (power : UInt16)
  | sendToDevice (now : Time) (b : BulbRef) (power : UInt16)
  | other (e : Event)

def PowerEvent.Enabled (s : PowerState) : PowerEvent → Prop
  | routerSend now _ _ => s.clock ≤ now
  | sendToDevice now b _ => s.clock ≤ now ∧ b ∈ s.daemon.bulbs
  | other e => e.Enabled s.daemon ∧ e.time?.all (s.clock ≤ ·) ∧ e.isPower = false

instance (s : PowerState) : DecidablePred (PowerEvent.Enabled s)
  | .routerSend .. => inferInstanceAs (Decidable (_ ≤ _))
  | .sendToDevice .. => inferInstanceAs (Decidable (_ ∧ _))
  | .other _ => inferInstanceAs (Decidable (_ ∧ _ ∧ _))

def PowerState.step (s : PowerState) : PowerEvent → PowerState
  | .routerSend now targets power => ⟨(s.daemon.routerSend now targets (.setPowerState power)).1,now,
      fun b => if b ∈ s.daemon.targetsToDevices targets then some (now,power) else s.last b⟩
  | .sendToDevice now b power => ⟨s.daemon.sendToDevice now (.setPowerState power) b,now,
      Function.update s.last b (some (now,power))⟩
  | .other e => ⟨e.apply s.daemon,e.time?.getD s.clock,s.last⟩

def powerSystem : System PowerState PowerEvent where
  enabled := PowerEvent.Enabled
  step := PowerState.step

instance (s : PowerState) (e : PowerEvent) : Decidable (powerSystem.enabled s e) :=
  inferInstanceAs (Decidable (e.Enabled s))

/-- More than 400 milliseconds ago the bulb was given its last power command. The note on
the bulb is at least as recent: it is renewed when the daemon repeats the command. -/
def PowerState.Commanded (s : PowerState) (now : Time) (b : BulbRef) (power : UInt16) : Prop :=
  ∃ t, s.last b = some (t,power) ∧ t ≤ (s.daemon.bulb b).dirtyAt ∧
    (s.daemon.bulb b).dirtyAt.toNat + 400 < now.toNat

/-- The note was cleared, which is justified: the bulb reports the commanded power. -/
def PowerState.Cleared (s : PowerState) (now : Time) (dg : Datagram) (d' : Daemon) (b : BulbRef) : Prop :=
  dg.device = (s.daemon.bulb b).addr ∧ s.Commanded now b dg.reportedPower ∧
    d'.note b = (0,(s.daemon.bulb b).expectedPowerOn)

/-- The commanded power was sent again, which is justified: the bulb reports another one. -/
def PowerState.Resent (s : PowerState) (now : Time) (dg : Datagram) (d' : Daemon) (b : BulbRef) : Prop :=
  dg.device = (s.daemon.bulb b).addr ∧ ∃ power, s.Commanded now b power ∧ dg.reportedPower ≠ power ∧
    (∃ clientId site, newCommands s.daemon d' (s.daemon.bulb b).gw =
      [(Request.setPowerState power).packet clientId (.device (s.daemon.bulb b).addr) site]) ∧
    d'.note b = (now,power)

/-- A light status clears notes and repeats commands only where that is justified. -/
structure PowerState.Disciplined (s : PowerState) (now : Time) (dg : Datagram) (d' : Daemon) : Prop where
  notes : ∀ b ∈ s.daemon.bulbs,
    d'.note b = s.daemon.note b ∨ s.Cleared now dg d' b ∨ s.Resent now dg d' b
  commands : ∀ g, newCommands s.daemon d' g ≠ [] →
    ∃ b ∈ s.daemon.bulbs, (s.daemon.bulb b).gw = g ∧ s.Resent now dg d' b

/-- The gateway of the bulb is the one the status comes through, or it has been heard of
since the command, or the time since the command does not matter. -/
def InTime (d : Daemon) (now : Time) (g : GatewayRef) (b : BulbRef) : Prop :=
  (d.bulb b).gw = g ∨ (d.bulb b).dirtyAt ≤ (d.gw (d.bulb b).gw).lastPktAt ∨
    now ≤ (d.bulb b).dirtyAt ∨ (d.bulb b).dirtyAt.toNat + 400 < now.toNat

/-- Bulbs are switched on or off, and each light status of a commanded bulb is in time. -/
def Favourable (s : PowerState) : PowerEvent → Prop
  | .routerSend _ _ power | .sendToDevice _ _ power => power = powerOn ∨ power = powerOff
  | .other e => ∀ gw now dg, e.received? = some (gw,now,dg) → dg.isLightStatus = true →
      ∀ g, s.daemon.receiver gw dg.peer = some g → ∀ b, s.daemon.bulbGet dg.device = some b →
        (s.daemon.bulb b).dirtyAt ≠ 0 → InTime s.daemon now g b

/-- Notes on bulbs go back to power commands, and no gateway is ahead of the clock. -/
structure Noted (s : PowerState) : Prop where
  partition : s.daemon.devices.Partition
  lastPktAt : ∀ g, (s.daemon.gw g).lastPktAt ≤ s.clock
  noted : ∀ b, (s.daemon.note b).1 ≠ 0 →
    ∃ t, s.last b = some (t,(s.daemon.note b).2) ∧ t ≤ (s.daemon.note b).1
  power : ∀ b c, s.last b = some c → c.2 = powerOn ∨ c.2 = powerOff

namespace Noted

variable {s : PowerState}

/-- The guard of the source tells how much time has passed when the status is in time. -/
theorem elapsed (h : Noted s) {now : Time} {g : GatewayRef} {b : BulbRef} (hclock : s.clock ≤ now)
    (hguard : s.daemon.PassesGuard now g b) (hin : InTime s.daemon now g b) :
    (s.daemon.bulb b).dirtyAt.toNat + 400 < now.toNat := by
  obtain ⟨-,hlate,hlag⟩ := hguard
  have hlast := UInt64.le_trans (h.lastPktAt (s.daemon.bulb b).gw) hclock
  have hsub : ∀ last : Time, (s.daemon.bulb b).dirtyAt ≤ last → last ≤ now →
      last - (s.daemon.bulb b).dirtyAt > 400 → (s.daemon.bulb b).dirtyAt.toNat + 400 < now.toNat := by
    intro last hle hnow hgt
    have hdiff := UInt64.toNat_sub_of_le last _ hle
    have hgt' := UInt64.lt_iff_toNat_lt.mp hgt
    have hnow' := UInt64.le_iff_toNat_le.mp hnow
    simp only [hdiff,UInt64.reduceToNat] at hgt'
    omega
  unfold lastPktAfter at hlag
  split at hlag
  · exact hsub now (UInt64.le_of_lt hlate) (UInt64.le_refl _) hlag
  · rename_i hother
    rcases hin with hown | hheard | hbefore | hlong
    · exact absurd hown hother
    · exact hsub _ hheard hlast hlag
    · exact absurd hlate (UInt64.not_lt.mpr hbefore)
    · exact hlong

theorem commanded (h : Noted s) {now : Time} {g : GatewayRef} {b : BulbRef} (hclock : s.clock ≤ now)
    (hguard : s.daemon.PassesGuard now g b) (hin : InTime s.daemon now g b) :
    s.Commanded now b (s.daemon.bulb b).expectedPowerOn := by
  obtain ⟨t,hlast,hle⟩ := h.noted b hguard.1
  exact ⟨t,hlast,hle,h.elapsed hclock hguard hin⟩

theorem resentPower_expected (h : Noted s) {b : BulbRef} (hdirty : (s.daemon.bulb b).dirtyAt ≠ 0) :
    resentPower (s.daemon.bulb b).expectedPowerOn = (s.daemon.bulb b).expectedPowerOn := by
  obtain ⟨t,hlast,-⟩ := h.noted b hdirty
  exact resentPower_eq (h.power b _ hlast)

theorem disciplined (h : Noted s) {e : Event} (he : (PowerEvent.other e).Enabled s)
    (hf : Favourable s (.other e)) {gw : Option GatewayRef} {now : Time} {dg : Datagram}
    (hr : e.received? = some (gw,now,dg)) (hs : dg.isLightStatus = true) :
    s.Disciplined now dg (e.apply s.daemon) := by
  obtain ⟨htime,hnone,hsome⟩ := Event.lightStatus (d := s.daemon) hr hs
  have hclock : s.clock ≤ now := by simpa [htime] using he.2.1
  cases hg : s.daemon.receiver gw dg.peer with
  | none =>
    rw [hnone hg]
    exact ⟨fun b _ => Or.inl rfl,fun g hne => absurd (by simp [newCommands]) hne⟩
  | some g =>
    have hnew : s.daemon.nextBulb ∉ s.daemon.bulbs :=
      fun hb => lt_irrefl _ (h.partition.bulbs_lt _ hb)
    have hin := hf gw now dg hr hs g hg
    rcases (hsome g hg).effect with ⟨-,hnotes,hquiet⟩ | ⟨b,hget,hguard,hpower,hnote,hquiet⟩ |
      ⟨b,hget,hguard,hpower,hnote,⟨clientId,site,hsent⟩,hquiet⟩
    · refine ⟨fun b hb => Or.inl ?_,fun x hne => absurd (hquiet x) hne⟩
      rcases hnotes b with hsame | ⟨rfl,-⟩
      · exact hsame
      · exact absurd hb hnew
    · have haddr : (s.daemon.bulb b).addr = dg.device := by simpa using List.find?_some hget
      have hcommanded := h.commanded hclock hguard (hin b hget hguard.1)
      refine ⟨fun x _ => ?_,fun x hne => absurd (hquiet x) hne⟩
      by_cases hx : x = b
      · subst hx
        rw [hpower] at hcommanded
        exact Or.inr (Or.inl ⟨haddr.symm,hcommanded,by simp [hnote]⟩)
      · exact Or.inl (by simp [hnote,hx])
    · have haddr : (s.daemon.bulb b).addr = dg.device := by simpa using List.find?_some hget
      have hcommanded := h.commanded hclock hguard (hin b hget hguard.1)
      rw [h.resentPower_expected hguard.1] at hnote hsent
      have hresent : s.Resent now dg (e.apply s.daemon) b :=
        ⟨haddr.symm,_,hcommanded,Ne.symm hpower,⟨clientId,site,hsent⟩,by simp [hnote]⟩
      refine ⟨fun x _ => ?_,fun x hne => ⟨b,mem_of_bulbGet hget,?_,hresent⟩⟩
      · by_cases hx : x = b
        · subst hx
          exact Or.inr (Or.inr hresent)
        · exact Or.inl (by simp [hnote,hx])
      · by_contra hx
        exact hne (hquiet x (Ne.symm hx))

/-- Steps that only clear notes, or renew them with the power they had. -/
theorem of_notes (h : Noted s) {d' : Daemon} {now : Time} (hp : d'.devices.Partition)
    (hclock : s.clock ≤ now)
    (hpkt : ∀ g, (d'.gw g).lastPktAt = now ∨ (d'.gw g).lastPktAt = (s.daemon.gw g).lastPktAt)
    (hn : ∀ b, (d'.note b).1 = 0 ∨ d'.note b = s.daemon.note b ∨
      (s.daemon.note b).1 ≠ 0 ∧ (s.daemon.note b).1 ≤ now ∧ d'.note b = (now,(s.daemon.note b).2)) :
    Noted ⟨d',now,s.last⟩ := by
  refine ⟨hp,fun g => ?_,fun b hb => ?_,h.power⟩
  · rcases hpkt g with hg | hg
    · exact UInt64.le_of_eq hg
    · exact hg ▸ UInt64.le_trans (h.lastPktAt g) hclock
  · rcases hn b with hzero | hsame | ⟨hdirty,hle,hnew⟩
    · exact absurd hzero hb
    · simp only [hsame] at hb ⊢
      exact h.noted b hb
    · obtain ⟨t,hlast,ht⟩ := h.noted b hdirty
      exact ⟨t,by simpa [hnew] using hlast,by simpa [hnew] using UInt64.le_trans ht hle⟩

theorem of_calm (h : Noted s) {d' : Daemon} {now : Time} (hp : d'.devices.Partition)
    (hclock : s.clock ≤ now) (hcalm : Calm now s.daemon d') : Noted ⟨d',now,s.last⟩ := by
  refine h.of_notes hp hclock hcalm.lastPktAt (fun b => ?_)
  rcases hcalm.power b with hzero | ⟨hd,he⟩
  · exact Or.inl hzero
  · exact Or.inr (Or.inl (Prod.ext hd he))

theorem of_status (h : Noted s) {d' : Daemon} {now : Time} {g : GatewayRef} {addr : Addr}
    {power : UInt16} (hp : d'.devices.Partition) (hclock : s.clock ≤ now)
    (heffect : StatusEffect s.daemon now g addr power d') : Noted ⟨d',now,s.last⟩ := by
  refine h.of_notes hp hclock heffect.lastPktAt (fun x => ?_)
  rcases heffect.effect with ⟨-,hnotes,-⟩ | ⟨b,-,hguard,-,hnote,-⟩ | ⟨b,-,hguard,-,hnote,-⟩
  · rcases hnotes x with hsame | ⟨-,hzero⟩
    · exact Or.inr (Or.inl hsame)
    · exact Or.inl hzero
  · by_cases hx : x = b
    · exact Or.inl (by simp [hnote,hx])
    · exact Or.inr (Or.inl (by simp [hnote,hx]))
  · by_cases hx : x = b
    · subst hx
      rw [h.resentPower_expected hguard.1] at hnote
      exact Or.inr (Or.inr ⟨hguard.1,UInt64.le_of_lt hguard.2.1,by rw [hnote,Function.update_self,Daemon.note]⟩)
    · exact Or.inr (Or.inl (by simp [hnote,hx]))

theorem other (h : Noted s) {e : Event} (he : (PowerEvent.other e).Enabled s) :
    Noted (s.step (.other e)) := by
  obtain ⟨henabled,hclock,hpower⟩ := he
  have hp : (e.apply s.daemon).devices.Partition := partition_step h.partition henabled
  have hle : s.clock ≤ e.time?.getD s.clock := by
    cases ht : e.time? with
    | none => exact UInt64.le_refl _
    | some now => simpa [ht] using hclock
  by_cases hs : ∀ r ∈ e.received?, r.2.2.isLightStatus = false
  · exact h.of_calm hp hle (Event.calm s.clock hpower hs)
  · simp only [not_forall,Bool.not_eq_false,exists_prop] at hs
    obtain ⟨⟨gw,now,dg⟩,hr,hs⟩ := hs
    obtain ⟨htime,hnone,hsome⟩ := Event.lightStatus (d := s.daemon) hr hs
    simp only [htime,Option.getD_some] at hle
    simp only [PowerState.step,htime,Option.getD_some]
    cases hg : s.daemon.receiver gw dg.peer with
    | none =>
      have hcalm : Calm now s.daemon (e.apply s.daemon) := by
        rw [hnone hg]
        exact Calm.refl now s.daemon
      exact h.of_calm hp hle hcalm
    | some g => exact h.of_status hp hle (hsome g hg)

/-- A power command renews the note on each bulb it is recorded for, and no other. -/
theorem of_command (h : Noted s) {d' : Daemon} {now : Time} {power : UInt16}
    {last : BulbRef → Option (Time × UInt16)} (marked : BulbRef → Prop) (hsilent : Silent s.daemon d')
    (hclock : s.clock ≤ now)
    (hpkt : ∀ g, (d'.gw g).lastPktAt = (s.daemon.gw g).lastPktAt)
    (hpower : power = powerOn ∨ power = powerOff)
    (hmarked : ∀ b, marked b → d'.note b = (now,power) ∧ last b = some (now,power))
    (hkept : ∀ b, ¬ marked b → d'.note b = s.daemon.note b ∧ last b = s.last b) :
    Noted ⟨d',now,last⟩ := by
  refine ⟨hsilent.devices.symm ▸ h.partition,fun g => ?_,fun b hb => ?_,fun b c hc => ?_⟩
  · exact hpkt g ▸ UInt64.le_trans (h.lastPktAt g) hclock
  · by_cases hm : marked b
    · obtain ⟨hnote,hlast⟩ := hmarked b hm
      exact ⟨now,by simp [hnote,hlast],by simp [hnote]⟩
    · obtain ⟨hnote,hlast⟩ := hkept b hm
      simp only [hnote] at hb
      simpa [hnote,hlast] using h.noted b hb
  · by_cases hm : marked b
    · simp only [(hmarked b hm).2,Option.some.injEq] at hc
      simpa [← hc] using hpower
    · exact h.power b c ((hkept b hm).2.symm.trans hc)

theorem lastPktAt_router (now : Time) (req : Request) :
    RouterRule now req (fun d d' => ∀ g, (d'.gw g).lastPktAt = (d.gw g).lastPktAt) where
  refl := fun _ _ => rfl
  trans := fun h h' g => (h' g).trans (h g)
  check := fun d c _ _ _ => lastPktAt_of_traffic (quiet_check d c _).traffic
  enqueue := fun _ _ _ x =>
    congrFun (update_keeps Gateway.lastPktAt (enqueuePacket_logs _ _).2) x
  expectPower := fun _ _ _ => rfl

theorem routerSend (h : Noted s) {now : Time} {targets : List TargetName} {power : UInt16}
    (hclock : s.clock ≤ now) (hpower : power = powerOn ∨ power = powerOff) :
    Noted (s.step (.routerSend now targets power)) := by
  have hroute := @routed_routerSend now (.setPowerState power) s.daemon targets
    (mem_bulbs_iff h.partition)
  refine h.of_command (fun b => b ∈ s.daemon.targetsToDevices targets)
    (silent_routerSend s.daemon now targets _) hclock
    ((lastPktAt_router now _).routerSend s.daemon targets) hpower ?_ ?_
  · intro b hb
    have hsel := (mem_targetsToDevices h.partition).mp hb
    exact ⟨by simp [Daemon.note,hroute.marked b hsel,Bulb.expectPower,Request.power?],by simp [hb]⟩
  · intro b hb
    have hsel := fun hsel => hb ((mem_targetsToDevices h.partition).mpr hsel)
    exact ⟨by simp [Daemon.note,hroute.kept b hsel],by simp [hb]⟩

theorem sendToDevice (h : Noted s) {now : Time} {b : BulbRef} {power : UInt16}
    (hclock : s.clock ≤ now) (hpower : power = powerOn ∨ power = powerOff) :
    Noted (s.step (.sendToDevice now b power)) := by
  refine h.of_command (fun x => x = b) (silent_sendToDevice s.daemon now _ b) hclock
    ((lastPktAt_router now _).sendToDevice s.daemon b) hpower ?_ ?_
  · rintro x rfl
    simp [Daemon.note,bulb_sendPower]
  · intro x hx
    simp [Daemon.note,bulb_sendPower,hx]

theorem step (h : Noted s) {e : PowerEvent} (he : e.Enabled s) (hf : Favourable s e) :
    Noted (s.step e) := by
  cases e with
  | routerSend now targets power => exact h.routerSend he hf
  | sendToDevice now b power => exact h.sendToDevice he.1 hf
  | other e => exact h.other he

end Noted

/-- What is asked of an event: a light status does no more than it may. -/
def PowerEvent.Disciplined (s : PowerState) : PowerEvent → Prop
  | other e => ∀ gw now dg, e.received? = some (gw,now,dg) → dg.isLightStatus = true →
      s.Disciplined now dg (e.apply s.daemon)
  | _ => True

def PowerState.started (clientId : UInt32) : PowerState := ⟨Core.started clientId,0,fun _ => none⟩

theorem noted_started (clientId : UInt32) : Noted (.started clientId) := by
  refine ⟨partition_started clientId,fun g => UInt64.le_refl _,fun b hb => ?_,fun b c hc => ?_⟩
  · exact absurd rfl hb
  · cases hc

/-- In a run of the daemon where each light status of a commanded bulb is in time, power
commands are confirmed and repeated as they should be. -/
theorem power_confirmed_in_time (clientId : UInt32) (es : List PowerEvent)
    (hl : (powerSystem.restrict Favourable).Legal (.started clientId) es) :
    powerSystem.Always (fun s => ∀ e, e.Enabled s → Favourable s e → e.Disciplined s)
      (.started clientId) es := by
  have hstep : ∀ (s : PowerState) (e : PowerEvent), Noted s →
      (powerSystem.restrict Favourable).enabled s e → Noted (powerSystem.step s e) :=
    fun s e h he => h.step he.1 he.2
  have hinv := hl.always hstep (noted_started clientId)
  intro n e he hf
  cases e with
  | routerSend now targets power => exact trivial
  | sendToDevice now b power => exact trivial
  | other e => exact fun gw now dg hr hs => (hinv n).disciplined he hf hr hs

theorem favourable_packet {s : PowerState} {e : Event} {gw : Option GatewayRef} {now : Time}
    {dg : Datagram} (he : e.received? = some (gw,now,dg)) (hs : dg.isLightStatus = false) :
    Favourable s (.other e) := by
  intro gw' now' dg' hr hs'
  obtain ⟨-,-,rfl⟩ : gw = gw' ∧ now = now' ∧ dg = dg' := by simpa [he] using hr
  simp [hs] at hs'

theorem favourable_status {s : PowerState} {g : GatewayRef} {now : Time} {dg : Datagram} {env : Env}
    (h : ∀ b ∈ s.daemon.bulbGet dg.device, (s.daemon.bulb b).gw = g) :
    Favourable s (.other (.gatewayReceive g now dg env)) := by
  rintro gw now dg ⟨⟩ - g' ⟨⟩ b hb -
  exact Or.inl (h b hb)

/-- A bulb is found on the first of two gateways and switched on a second later. -/
def strayStatusRun : List PowerEvent :=
  (handoverRun.take 3).map .other ++ [.sendToDevice 1000 0 powerOn]

/-- The bulb reports that it is on. -/
def reportOn (peer : SockAddr) : Datagram :=
  .sent peer (.device handoverAddr) .lightStatus
    (List.replicate 10 0 ++ [255,255] ++ List.replicate 40 0)

/-- Through its own gateway the bulb confirms the command after 401 milliseconds. -/
theorem power_confirmed_in_time_own_gateway :
    (powerSystem.restrict Favourable).Legal (.started 7) strayStatusRun ∧
    (PowerEvent.other (.gatewayReceive 0 1401 (reportOn [1]) {})).Disciplined
      (powerSystem.exec (.started 7) strayStatusRun) := by
  have hl : (powerSystem.restrict Favourable).Legal (.started 7) strayStatusRun :=
    ⟨⟨by decide +kernel,favourable_packet rfl (by decide +kernel)⟩,
      ⟨by decide +kernel,favourable_packet rfl (by decide +kernel)⟩,
      ⟨by decide +kernel,favourable_status (by decide +kernel)⟩,
      ⟨by decide +kernel,Or.inl rfl⟩,trivial⟩
  have hdevice : (reportOn [1]).device = #v[1,2,3,4,5,6] := by decide +kernel
  refine ⟨hl,(power_confirmed_in_time 7 strayStatusRun hl).last _ (by decide +kernel)
    (favourable_status ?_)⟩
  rw [hdevice]
  decide +kernel

/-- One millisecond after the command the bulb reports through the other gateway, and the
note is cleared. -/
theorem note_cleared_early :
    powerSystem.Legal (.started 7) strayStatusRun ∧
    (PowerEvent.other (.gatewayReceive 1 1001 (reportOn [2]) {})).Enabled
      (powerSystem.exec (.started 7) strayStatusRun) ∧
    (powerSystem.exec (.started 7) strayStatusRun).last 0 = some (1000,powerOn) ∧
    ((Event.gatewayReceive 1 1001 (reportOn [2]) {}).apply
      (powerSystem.exec (.started 7) strayStatusRun).daemon).note 0 = (0,powerOn) ∧
    ¬ (PowerEvent.other (.gatewayReceive 1 1001 (reportOn [2]) {})).Disciplined
      (powerSystem.exec (.started 7) strayStatusRun) := by
  have hs : (reportOn [2]).isLightStatus = true := by decide +kernel
  have hdevice : (reportOn [2]).device = #v[1,2,3,4,5,6] := by decide +kernel
  have hpower : (reportOn [2]).reportedPower = powerOn := by decide +kernel
  have hget : (powerSystem.exec (.started 7) strayStatusRun).daemon.bulbGet #v[1,2,3,4,5,6] = some 0 := by
    decide +kernel
  have hbefore : (powerSystem.exec (.started 7) strayStatusRun).daemon.note 0 = (1000,powerOn) := by
    decide +kernel
  have heffect := (Event.lightStatus (d := (powerSystem.exec (.started 7) strayStatusRun).daemon)
    (e := .gatewayReceive 1 1001 (reportOn [2]) {}) rfl hs).2.2 1 rfl
  rw [hdevice,hpower] at heffect
  have hafter := heffect.cleared hget ⟨by decide +kernel,by decide +kernel,by decide +kernel⟩
    (congrArg Prod.snd hbefore)
  refine ⟨by decide +kernel,by decide +kernel,by decide +kernel,hafter,fun h => ?_⟩
  rcases (h (some 1) 1001 (reportOn [2]) rfl hs).notes 0 (by decide +kernel) with
    hkept | ⟨-,⟨t,-,-,hlate⟩,-⟩ | ⟨-,power,-,-,-,hnote⟩
  · cases (hbefore.symm.trans hkept.symm).trans hafter
  · rw [show ((powerSystem.exec (.started 7) strayStatusRun).daemon.bulb 0).dirtyAt = 1000 from
      congrArg Prod.fst hbefore] at hlate
    exact absurd hlate (by decide)
  · cases hafter.symm.trans hnote

end Lightsd.Core
