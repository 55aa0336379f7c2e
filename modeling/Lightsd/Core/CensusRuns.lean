import Lightsd.Core.DeviceRuns
import Lightsd.Lifx.DeviceStats
import Lightsd.Lifx.TagCensus

/-! # Counters over whole runs

The statistics agree with the registry in every state of every run, and the reference
counts of tag ids in every run that never needs more than a byte for them.
-/
namespace Lightsd.Core

open Lifx Lifx.Devices Runs

/-- The statistics are the sizes of the registry, and no counter was ever made
negative. -/
structure StatsAgree (d : Daemon) : Prop where
  powers : ∀ b ∈ d.bulbs, (d.bulb b).state.power = powerOff ∨ (d.bulb b).state.power = powerOn
  poweredOn : d.counters.bulbsPoweredOn = d.bulbs.countP (fun b => (d.bulb b).state.power = powerOn)
  bulbs : d.counters.bulbs = d.bulbs.length
  gateways : d.counters.gateways = d.gateways.length
  ok : Fault.negativeCounter ∉ d.faults

theorem counted_started (clientId : UInt32) : (started clientId).devices.Counted :=
  ⟨nofun,rfl,rfl,rfl,nofun⟩

theorem statsAgree_of {d : Daemon} (h : d.devices.Counted) : StatsAgree d :=
  ⟨h.powers,h.poweredOn,h.bulbs,h.gateways,h.ok⟩

/-- In every state the daemon can reach, the statistics are those of the registry. -/
theorem stats_agree (clientId : UInt32) (es : List Event)
    (hl : daemonSystem.Legal (started clientId) es) :
    daemonSystem.Always StatsAgree (started clientId) es := by
  have hcounted : daemonSystem.Always (fun d => d.devices.Partition ∧ d.devices.Counted)
      (started clientId) es := by
    refine hl.always ?_ ⟨partition_started clientId,counted_started clientId⟩
    rintro d e ⟨hp,hc⟩ he
    exact ⟨partition_step hp he,hc.transition hp (Event.transition hp he)⟩
  exact hcounted.mono (fun _ h => statsAgree_of h.2)

theorem stats_agree_handover :
    (daemonSystem.exec (started 7) (handoverRun.take 4)).counters = ⟨2,1,1⟩ ∧
    daemonSystem.Always StatsAgree (started 7) handoverRun :=
  ⟨by decide +kernel,stats_agree 7 handoverRun (by decide +kernel)⟩

/-- Each reference count is the number of bulbs of the gateway with that tag id, and
none of the assertions about reference counts has failed. -/
structure TagsCounted (d : Daemon) : Prop where
  counts : ∀ g ∈ d.gateways, ∀ id < maxTags,
    ((d.gw g).tagRefcounts id).toNat = d.countTagged g id
  positive : ∀ g id, Fault.zeroRefcount g id ∉ d.faults
  recounts : ∀ b id, Fault.recount b id ∉ d.faults
  unlisted : ∀ b, Fault.bulbStillListed b ∉ d.faults

def TagsBounded (d : Daemon) : Prop :=
  ∀ g ∈ d.gateways, ∀ id < maxTags, d.countTagged g id ≤ 255

instance : DecidablePred TagsBounded := fun d =>
  inferInstanceAs (Decidable (∀ g ∈ d.gateways, ∀ id < maxTags, d.countTagged g id ≤ 255))

theorem tagCensus_started (clientId : UInt32) : (started clientId).devices.TagCensus :=
  ⟨nofun,nofun⟩

theorem tagsCounted_of {d : Daemon} (h : d.devices.TagCensus) : TagsCounted d where
  counts := h.counts
  positive := fun _ _ hf => h.ok _ hf rfl
  recounts := fun _ _ hf => h.ok _ hf rfl
  unlisted := fun _ hf => h.ok _ hf rfl

/-- In every run in which no gateway ever has more than 255 bulbs with the same tag id,
the reference counts are a census of the bulbs. -/
theorem refcounts_census (clientId : UInt32) (es : List Event)
    (hl : daemonSystem.Legal (started clientId) es)
    (hbound : daemonSystem.Always TagsBounded (started clientId) es) :
    daemonSystem.Always TagsCounted (started clientId) es := by
  have hcensus : daemonSystem.Always (fun d => d.devices.Partition ∧ d.devices.TagCensus)
      (started clientId) es := by
    refine hl.always_of (B := TagsBounded) ?_ hbound
      ⟨partition_started clientId,tagCensus_started clientId⟩
    rintro d e ⟨hp,hc⟩ he _ hb
    exact ⟨partition_step hp he,hc.transition hp (Event.transition hp he) hb⟩
  exact hcensus.mono (fun _ h => tagsCounted_of h.2)

theorem refcounts_census_handover :
    (daemonSystem.exec (started 7) (handoverRun.take 4)).countTagged 0 1 = 1 ∧
    daemonSystem.Always TagsCounted (started 7) handoverRun :=
  ⟨by decide +kernel,
    refcounts_census 7 handoverRun (by decide +kernel) (by decide +kernel)⟩

end Lightsd.Core
