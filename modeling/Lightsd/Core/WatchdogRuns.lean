import Lightsd.Core.PowerEvents
import Lightsd.Lifx.DeviceAges

/-! # The age of devices over whole runs

The daemon runs beside a clock. As long as there are gateways, the watchdog makes a pass
within some period after the last one. Then no device in the registry has been silent for
much longer than its time limit, and a pass closes the devices that are over the limit and
no others: ages that are kept in an int never get near the end of its range.
-/
namespace Lightsd.Lifx

theorem lag_eq {now last : Time} (h : last ≤ now) (hlt : now.toNat < last.toNat + 2 ^ 31) :
    lag now last = (now.toNat - last.toNat : ℕ) := by
  have hsub : (now - last).toNat = now.toNat - last.toNat := UInt64.toNat_sub_of_le now last h
  have hwidth : ((now - last).toBitVec.setWidth 32).toNat = now.toNat - last.toNat := by
    rw [BitVec.toNat_setWidth,UInt64.toNat_toBitVec,hsub]
    omega
  rw [lag,BitVec.toInt_eq_toNat_of_lt (by omega),hwidth]

end Lightsd.Lifx

namespace Lightsd.Core

open Lifx Lifx.Daemon Runs

theorem Command.dated_run (now : Time) (d : Daemon) (cmd : Command) : Dated now d (cmd.run now d).1 := by
  refine .of_silent ?_ (cmd.devices_run now d)
  cases cmd with
  | powerOn targets | powerOff targets => exact (undated_router now _).routerSend d targets
  | powerToggle targets =>
    exact (undated_router now .getInfo).foldl (fun d b => (undated_router now _).sendToDevice d b) d _
  | setLightFromHsbk targets color => exact (undated_router now _).routerSend d targets
  | setWaveform targets waveform => exact (undated_router now _).routerSend d targets
  | tag targets label => exact undated_of_quiet (quiet_protoTag d now targets label)
  | untag targets label => exact undated_of_quiet (quiet_protoUntag d now targets label)
  | setLabel targets label => exact (undated_router now _).routerSend d targets

/-- Devices are dated with the time of the event, if at all. -/
theorem Event.dated {d : Daemon} {e : Event} (clock : Time) (hp : d.devices.Partition) :
    Dated (e.time?.getD clock) d (e.apply d) := by
  cases e with
  | broadcastReceive now dg env => exact dated_handleReceive
  | gatewayReceive g now dg env =>
    have hdated : Dated now d (d.handleReceive now (some g) dg env).1 := dated_handleReceive
    simp only [Event.apply,socketRead]
    generalize d.handleReceive now (some g) dg env = r at hdated
    obtain ⟨d',ok⟩ := r
    cases ok with
    | true => exact hdated
    | false => exact hdated.trans (dated_gatewayClose now d' g)
  | gatewayLost g => exact dated_gatewayClose _ d g
  | gatewayWrite g now r =>
    simp only [Event.apply,socketWrite]
    cases hw : (d.gw g).writeEvent now r with
    | some gw => exact .of_silent (undated_of_quiet (quiet_written hw)) (silent_written hw).devices
    | none => exact dated_gatewayClose now d g
  | refresh g =>
    exact .of_silent (undated_of_quiet (quiet_sendGetAllLightState d g)) (silent_sendGetAllLightState d g).devices
  | hardwareInfo now addr =>
    exact .of_silent (undated_of_quiet (quiet_fetchHardwareInfo d now addr))
      (silent_fetchHardwareInfo d now addr).devices
  | watchdog now => exact dated_watchdog now hp
  | closeAll => exact dated_gatewayCloseAll _ d
  | deallocateTagId g id =>
    exact .of_silent (undated_of_quiet (quiet_tags.deallocateTagId d g id)) (devices_tags.deallocateTagId d g id)
  | command now cmd => exact cmd.dated_run now d

/-- The daemon, the clock, and the last pass of the watchdog, or the last event that found no
gateways if that was later. -/
structure WatchState where
  daemon : Daemon
  clock : Time
  watchedAt : Time

namespace WatchState

def time (s : WatchState) (e : Event) : Time := e.time?.getD s.clock

/-- Nothing has to be watched while there are no gateways. -/
def step (s : WatchState) (e : Event) : WatchState where
  daemon := e.apply s.daemon
  clock := s.time e
  watchedAt := match e with
    | .watchdog now => now
    | e => if s.daemon.gateways = [] then s.time e else s.watchedAt

def started (clientId : UInt32) : WatchState := ⟨Core.started clientId,0,0⟩

end WatchState

/-- Events come in the order of the clock. While there are gateways, nothing happens later
than a period after the last pass of the watchdog, unless it is the next pass. -/
def watchSystem (period : ℕ) : System WatchState Event where
  enabled s e := e.Enabled s.daemon ∧ s.clock ≤ s.time e ∧
    (s.daemon.gateways ≠ [] → (s.time e).toNat ≤ s.watchedAt.toNat + period)
  step := WatchState.step

instance (period : ℕ) (s : WatchState) (e : Event) : Decidable ((watchSystem period).enabled s e) :=
  inferInstanceAs (Decidable (e.Enabled s.daemon ∧ _ ∧ (_ → _)))

section Ages
variable {period : ℕ} {s : WatchState}

/-- A device that was dated in the past, and was in time at the last pass. -/
def Current (s : WatchState) (last : Time) : Prop :=
  last ≤ s.clock ∧ s.watchedAt.toNat < last.toNat + 20000

/-- What holds between the events. -/
structure Watched (period : ℕ) (s : WatchState) : Prop where
  partition : s.daemon.devices.Partition
  past : s.watchedAt ≤ s.clock
  onTime : s.daemon.gateways ≠ [] → s.clock.toNat ≤ s.watchedAt.toNat + period
  bulb : ∀ b ∈ s.daemon.bulbs, Current s (s.daemon.bulb b).lastLightStateAt
  gw : ∀ g ∈ s.daemon.gateways, Current s (s.daemon.gw g).lastPktAt

namespace Watched

theorem gateways_ne_nil (h : Watched period s) {b : BulbRef} (hb : b ∈ s.daemon.bulbs) :
    s.daemon.gateways ≠ [] := List.ne_nil_of_mem (h.partition.owner_mem b hb)

/-- An age is below the limit as soon as it fits the int it is kept in. -/
theorem timedOut_iff (hperiod : period + 20000 ≤ 2 ^ 31) {e : Event} (he : (watchSystem period).enabled s e)
    (hne : s.daemon.gateways ≠ []) {last : Time} (hlast : Current s last) :
    TimedOut (s.time e) last ↔ last.toNat + 20000 ≤ (s.time e).toNat := by
  have hle : last ≤ s.time e := UInt64.le_trans hlast.1 he.2.1
  have hnow := he.2.2 hne
  have hwatched := hlast.2
  have hle' : last.toNat ≤ (s.time e).toNat := hle
  rw [TimedOut,lag_eq hle (by omega),deviceTimeout]
  omega

theorem current_now {d : Daemon} {now w : Time} (hw : w ≤ now) : Current ⟨d,now,w⟩ now := by
  have hw : w.toNat ≤ now.toNat := hw
  exact ⟨UInt64.le_refl _,by simp only; omega⟩

/-- Every event but a pass of the watchdog. -/
theorem of_dated (h : Watched period s) {e : Event} (he : (watchSystem period).enabled s e) {d' : Daemon}
    (hp : d'.devices.Partition) (hdated : Dated (s.time e) s.daemon d') {w : Time}
    (hw : w = if s.daemon.gateways = [] then s.time e else s.watchedAt) : Watched period ⟨d',s.time e,w⟩ := by
  have hpast : w ≤ s.time e := by
    rw [hw]
    split
    · exact UInt64.le_refl _
    · exact UInt64.le_trans h.past he.2.1
  have hkept : ∀ {last : Time}, s.daemon.gateways ≠ [] → Current s last → Current ⟨d',s.time e,w⟩ last := by
    intro last hne hlast
    rw [hw,if_neg hne]
    exact ⟨UInt64.le_trans hlast.1 he.2.1,hlast.2⟩
  refine ⟨hp,hpast,fun _ => ?_,fun b hb => ?_,fun g hg => ?_⟩
  · rw [hw]
    split
    · simp
    · exact he.2.2 ‹_›
  · rcases hdated.bulb b hb with hnow | ⟨hold,heq⟩
    · simp only [hnow]
      exact current_now hpast
    · simp only [heq]
      exact hkept (h.gateways_ne_nil hold) (h.bulb b hold)
  · rcases hdated.gw g hg with hnow | ⟨hold,heq⟩
    · simp only [hnow]
      exact current_now hpast
    · simp only [heq]
      exact hkept (List.ne_nil_of_mem hold) (h.gw g hold)

/-- A pass of the watchdog leaves devices that are in time. -/
theorem watchdog (h : Watched period s) (hperiod : period + 20000 ≤ 2 ^ 31) {now : Time}
    (he : (watchSystem period).enabled s (.watchdog now)) :
    Watched period (s.step (.watchdog now)) := by
  obtain ⟨hgw,hbulb⟩ := mem_watchdog now h.partition
  have hundated := undated_of_quiet (quiet_watchdog s.daemon now)
  refine ⟨partition_step h.partition he.1,UInt64.le_refl _,
    fun _ => by simp [WatchState.step,WatchState.time,Event.time?],
    fun b hb => ?_,fun g hg => ?_⟩
  · obtain ⟨hold,hfresh,-⟩ := (hbulb b).mp hb
    have hiff := timedOut_iff hperiod he (h.gateways_ne_nil hold) (h.bulb b hold)
    have hlast : ((s.step (.watchdog now)).daemon.bulb b).lastLightStateAt =
        (s.daemon.bulb b).lastLightStateAt := hundated.bulb b
    rw [hlast]
    exact ⟨UInt64.le_trans (h.bulb b hold).1 he.2.1,not_le.mp (fun hle => hfresh (hiff.mpr hle))⟩
  · obtain ⟨hold,hfresh⟩ := (hgw g).mp hg
    have hiff := timedOut_iff hperiod he (List.ne_nil_of_mem hold) (h.gw g hold)
    have hlast : ((s.step (.watchdog now)).daemon.gw g).lastPktAt = (s.daemon.gw g).lastPktAt := hundated.gw g
    rw [hlast]
    exact ⟨UInt64.le_trans (h.gw g hold).1 he.2.1,not_le.mp (fun hle => hfresh (hiff.mpr hle))⟩

theorem step (h : Watched period s) (hperiod : period + 20000 ≤ 2 ^ 31) {e : Event}
    (he : (watchSystem period).enabled s e) : Watched period (s.step e) := by
  have hother : Watched period
      ⟨e.apply s.daemon,s.time e,if s.daemon.gateways = [] then s.time e else s.watchedAt⟩ :=
    h.of_dated he (partition_step h.partition he.1) (Event.dated s.clock h.partition) rfl
  cases e with
  | watchdog now => exact h.watchdog hperiod he
  | broadcastReceive | gatewayReceive | gatewayLost | gatewayWrite | refresh | hardwareInfo | closeAll
  | deallocateTagId | command => exact hother

theorem started (period : ℕ) (clientId : UInt32) : Watched period (.started clientId) :=
  ⟨partition_started clientId,UInt64.le_refl _,fun h => absurd rfl h,fun _ h => (List.not_mem_nil h).elim,
    fun _ h => (List.not_mem_nil h).elim⟩

theorem always (hperiod : period + 20000 ≤ 2 ^ 31) {clientId : UInt32} {es : List Event}
    (hl : (watchSystem period).Legal (.started clientId) es) :
    (watchSystem period).Always (Watched period) (.started clientId) es :=
  hl.always (fun _ _ h he => h.step hperiod he) (started period clientId)

theorem age_lt (h : Watched period s) (hne : s.daemon.gateways ≠ []) {last : Time} (hlast : Current s last) :
    s.clock.toNat < last.toNat + 20000 + period := by
  have hwatched := hlast.2
  have honTime := h.onTime hne
  omega

end Watched

/-- No device stays in the registry for longer than its time limit and the period of the
watchdog without being heard of. -/
theorem devices_heard_of (period : ℕ) (hperiod : period + 20000 ≤ 2 ^ 31) (clientId : UInt32) (es : List Event)
    (hl : (watchSystem period).Legal (.started clientId) es) :
    (watchSystem period).Always (fun s =>
      (∀ b ∈ s.daemon.bulbs, s.clock.toNat < (s.daemon.bulb b).lastLightStateAt.toNat + 20000 + period) ∧
      ∀ g ∈ s.daemon.gateways, s.clock.toNat < (s.daemon.gw g).lastPktAt.toNat + 20000 + period)
      (.started clientId) es :=
  (Watched.always hperiod hl).mono (fun _ h =>
    ⟨fun b hb => h.age_lt (h.gateways_ne_nil hb) (h.bulb b hb),
      fun g hg => h.age_lt (List.ne_nil_of_mem hg) (h.gw g hg)⟩)

theorem devices_heard_of_handover :
    (watchSystem 500).Legal (.started 7) handoverRun ∧
    (watchSystem 500).Always (fun s =>
      (∀ b ∈ s.daemon.bulbs, s.clock.toNat < (s.daemon.bulb b).lastLightStateAt.toNat + 20000 + 500) ∧
      ∀ g ∈ s.daemon.gateways, s.clock.toNat < (s.daemon.gw g).lastPktAt.toNat + 20000 + 500)
      (.started 7) handoverRun := by
  have hl : (watchSystem 500).Legal (.started 7) handoverRun := by decide +kernel
  exact ⟨hl,devices_heard_of 500 (by norm_num) 7 handoverRun hl⟩

/-- A pass of the watchdog closes the devices that have been silent for 20 seconds, and the
bulbs behind such gateways, and leaves all others. -/
theorem watchdog_closes_silent (period : ℕ) (hperiod : period + 20000 ≤ 2 ^ 31) (clientId : UInt32)
    (es : List Event) (now : Time) (hl : (watchSystem period).Legal (.started clientId) (es ++ [.watchdog now])) :
    let d := ((watchSystem period).exec (.started clientId) es).daemon
    (∀ g, g ∈ (d.watchdog now).gateways ↔ g ∈ d.gateways ∧ now.toNat < (d.gw g).lastPktAt.toNat + 20000) ∧
    ∀ b, b ∈ (d.watchdog now).bulbs ↔ b ∈ d.bulbs ∧ now.toNat < (d.bulb b).lastLightStateAt.toNat + 20000 ∧
      now.toNat < (d.gw (d.bulb b).gw).lastPktAt.toNat + 20000 := by
  obtain ⟨hes,he,-⟩ := System.legal_append.mp hl
  have h := (Watched.always hperiod hes).last
  obtain ⟨hgw,hbulb⟩ := mem_watchdog now h.partition
  refine ⟨fun g => ?_,fun b => ?_⟩
  · rw [hgw g]
    refine and_congr_right (fun hg => ?_)
    rw [← not_le]
    exact not_congr (Watched.timedOut_iff hperiod he (List.ne_nil_of_mem hg) (h.gw g hg))
  · rw [hbulb b]
    refine and_congr_right (fun hb => ?_)
    have howner := h.partition.owner_mem b hb
    rw [← not_le,← not_le]
    exact and_congr (not_congr (Watched.timedOut_iff hperiod he (h.gateways_ne_nil hb) (h.bulb b hb)))
      (not_congr (Watched.timedOut_iff hperiod he (h.gateways_ne_nil hb) (h.gw _ howner)))

/-- The bulb has been heard of through the second gateway, and goes with the first one. -/
theorem watchdog_closes_silent_handover :
    (watchSystem 30000).Legal (.started 7) (handoverRun.take 4 ++ [.watchdog 20003]) ∧
    1 ∈ (((watchSystem 30000).exec (.started 7) (handoverRun.take 4)).daemon.watchdog 20003).gateways := by
  have hl : (watchSystem 30000).Legal (.started 7) (handoverRun.take 4 ++ [.watchdog 20003]) := by
    decide +kernel
  obtain ⟨hgw,-⟩ := watchdog_closes_silent 30000 (by norm_num) 7 (handoverRun.take 4) 20003 hl
  exact ⟨hl,(hgw 1).mpr (by decide +kernel)⟩

end Ages

end Lightsd.Core
