import Lightsd.Core.TagCommands

/-! # The registry of tags over whole runs

The registry of tags stays consistent exactly along the runs in which every label packet
is acceptable to its gateway. A packet that names two ids at once for one label is not,
and makes the daemon fail an assertion.
-/
namespace Lightsd.Lifx.Daemon

/-- A pass over the gateways that closes some of them. -/
theorem sound_closeSomeGateways {f : Daemon → GatewayRef → Daemon}
    (hf : ∀ d g, f d g = d ∨ f d g = d.gatewayClose g) {l : List GatewayRef} {d : Daemon}
    (h : d.tagging.Sound) (hl : l.Nodup) (hmem : ∀ g ∈ l, g ∈ d.gateways) :
    (l.foldl f d).tagging.Sound := by
  induction l generalizing d with
  | nil => exact h
  | cons g l ih =>
    obtain ⟨hg,hl⟩ := List.nodup_cons.mp hl
    have hmem' : ∀ x ∈ l, x ∈ d.gateways := fun x hx => hmem x (List.mem_cons_of_mem _ hx)
    rw [List.foldl_cons]
    rcases hf d g with heq | heq
    · rw [heq]
      exact ih h hl hmem'
    · rw [heq]
      refine ih (sound_gatewayClose h (hmem g List.mem_cons_self)) hl (fun x hx => ?_)
      have hne : x ≠ g := fun e => hg (e ▸ hx)
      rw [gatewayClose_gateways,List.mem_erase_of_ne hne]
      exact hmem' x hx

theorem sound_gatewayCloseAll {d : Daemon} (h : d.tagging.Sound) : d.gatewayCloseAll.tagging.Sound :=
  sound_closeSomeGateways (fun _ _ => Or.inr rfl) h h.gateways_nodup (fun _ hg => hg)

theorem tagging_watchdogBulb (now : Time) (d : Daemon) (b : BulbRef) : (watchdogBulb now d b).tagging = d.tagging := by
  rcases watchdogBulb_cases now d b with heq | heq
  · rw [heq]
  · rw [heq,tagging_removeAndCloseBulb]

theorem sound_watchdog {d : Daemon} (now : Time) (h : d.tagging.Sound) :
    (d.watchdog now).tagging.Sound := by
  have hsame : (d.bulbs.foldl (watchdogBulb now) d).tagging = d.tagging :=
    foldl_keeps tagging (tagging_watchdogBulb now) d d.bulbs
  unfold watchdog
  simp only
  generalize d.bulbs.foldl (watchdogBulb now) d = d' at hsame
  rw [← hsame] at h
  exact sound_closeSomeGateways (watchdogGateway_cases now) h h.gateways_nodup (fun _ hg => hg)

theorem sound_socketRead {d : Daemon} {g : GatewayRef} (now : Time) (dg : Datagram) (env : Env)
    (htagOk : ∀ i, env.tagOk i = true) (hsiteOk : ∀ i, env.siteOk i = true)
    (hp : d.devices.Partition) (h : d.tagging.Sound) (hg : g ∈ d.gateways) :
    ((∀ pkt, dg.tagLabels? = some pkt → d.tagging.Acceptable g pkt) →
      (d.socketRead g now dg env).tagging.Sound) ∧
    (∀ pkt, dg.tagLabels? = some pkt → ¬ d.tagging.Acceptable g pkt →
      ∃ t id, .siteTagId t g id ∈ (d.socketRead g now dg env).faults) := by
  have hlive : ∀ g', some g = some g' → g' ∈ d.gateways := fun g' hg' => Option.some_inj.mp hg' ▸ hg
  obtain ⟨hsound,hfault⟩ := sound_handleReceive now (some g) dg env htagOk hsiteOk h hlive
  obtain ⟨-,hfail⟩ := transition_handleReceive now (some g) dg env hp hlive
  unfold socketRead
  cases hres : d.handleReceive now (some g) dg env with
  | mk d' ok =>
    rw [hres] at hsound hfault hfail
    cases ok with
    | true =>
      refine ⟨fun hacc => hsound ?_,fun pkt hpkt hnot => hfault g pkt rfl hpkt hnot⟩
      rintro _ pkt ⟨⟩ hpkt
      exact hacc pkt hpkt
    | false =>
      have hsame : d' = d := hfail rfl
      subst hsame
      refine ⟨fun _ => sound_gatewayClose h hg,fun pkt hpkt hnot => ?_⟩
      unfold handleReceive at hres
      unfold Datagram.tagLabels? at hpkt
      cases hrecv : dg.receive with
      | error =>
        rw [hrecv] at hpkt
        cases hpkt
      | ignored =>
        rw [hrecv] at hpkt
        cases hpkt
      | packet info hdr =>
        rw [hrecv] at hres
        cases congrArg Prod.snd hres

theorem sound_socketWrite {d : Daemon} {g : GatewayRef} (now : Time) (r : WriteResult)
    (h : d.tagging.Sound) (hg : g ∈ d.gateways) : (d.socketWrite g now r).tagging.Sound := by
  unfold socketWrite
  cases hw : (d.gw g).writeEvent now r with
  | some gw =>
    simp only
    rw [(silent_written hw).tagging]
    exact h
  | none => exact sound_gatewayClose h hg

end Lightsd.Lifx.Daemon

namespace Lightsd.Core

open Lifx Lifx.Daemon Runs

namespace Event

/-- Allocations succeed, and the tag command is only given labels that fit. -/
def Admissible : Event → Prop
  | broadcastReceive _ _ env | gatewayReceive _ _ _ env =>
    (∀ i, env.tagOk i = true) ∧ ∀ i, env.siteOk i = true
  | command _ (.tag _ label) => label.length < labelSize
  | _ => True

/-- The label packet an event delivers, with the gateway it is delivered to. -/
def tagLabels? (d : Daemon) : Event → Option (GatewayRef × TagLabels)
  | broadcastReceive _ dg _ => (d.gatewayGet dg.peer).bind (fun g => dg.tagLabels?.map (g,·))
  | gatewayReceive g _ dg _ => dg.tagLabels?.map (g,·)
  | _ => none

/-- The label packet the event delivers, if any, is acceptable to the gateway. -/
def LabelsAcceptable (d : Daemon) (e : Event) : Prop :=
  ∀ g pkt, e.tagLabels? d = some (g,pkt) → d.tagging.Acceptable g pkt

end Event

/-- The label of a tag command. -/
def Event.tagLabel? : Event → Option (List UInt8)
  | .command _ (.tag _ label) => some label
  | _ => none

/-- An event that delivers a datagram. -/
def Event.isReceive : Event → Bool
  | broadcastReceive .. | gatewayReceive .. => true
  | _ => false

theorem Event.sound_other {d : Daemon} {e : Event} (h : d.tagging.Sound) (he : e.Enabled d)
    (hcmd : e.tagLabel? = none) (hrecv : e.isReceive = false) : (e.apply d).tagging.Sound := by
  have hsilent : ∀ {d' : Daemon}, Silent d d' → d'.tagging.Sound := by
    intro d' hs
    rw [hs.tagging]
    exact h
  cases e with
  | broadcastReceive now dg env => cases hrecv
  | gatewayReceive g now dg env => cases hrecv
  | gatewayLost g =>
    change (d.gatewayClose g).tagging.Sound
    exact sound_gatewayClose h he
  | gatewayWrite g now r => exact sound_socketWrite now r h he
  | refresh g => exact hsilent (silent_sendGetAllLightState d g)
  | hardwareInfo now addr => exact hsilent (silent_fetchHardwareInfo d now addr)
  | watchdog now => exact sound_watchdog now h
  | closeAll => exact sound_gatewayCloseAll h
  | deallocateTagId g id => exact sound_deallocateTagId h he.1 he.2
  | command now cmd =>
    cases cmd with
    | tag targets label => cases hcmd
    | _ => exact hsilent (Command.silent_run now d (by simp))

/-- What one event does to the registry of tags. -/
theorem Event.sound_apply {d : Daemon} {e : Event} (hp : d.devices.Partition) (h : d.tagging.Sound)
    (he : e.Enabled d) (hadm : e.Admissible) :
    (e.LabelsAcceptable d → (e.apply d).tagging.Sound) ∧
    (¬ e.LabelsAcceptable d → ∃ t g id, .siteTagId t g id ∈ (e.apply d).faults) := by
  have hother : e.tagLabels? d = none → (e.apply d).tagging.Sound →
      (e.LabelsAcceptable d → (e.apply d).tagging.Sound) ∧
      (¬ e.LabelsAcceptable d → ∃ t g id, .siteTagId t g id ∈ (e.apply d).faults) := by
    intro hnone hsound
    refine ⟨fun _ => hsound,fun hnot => (hnot ?_).elim⟩
    intro g pkt hsome
    rw [hnone] at hsome
    cases hsome
  cases e with
  | broadcastReceive now dg env =>
    obtain ⟨hsound,hfault⟩ := sound_handleReceive now none dg env hadm.1 hadm.2 h nofun
    constructor
    · intro hacc
      refine hsound (fun g pkt hrec hpkt => hacc g pkt ?_)
      change (d.gatewayGet dg.peer).bind _ = _
      rw [show d.gatewayGet dg.peer = some g from hrec,Option.bind_some,hpkt]
      rfl
    · intro hnot
      simp only [LabelsAcceptable,not_forall] at hnot
      obtain ⟨g,pkt,hsome,hnot⟩ := hnot
      simp only [tagLabels?,Option.bind_eq_some_iff,Option.map_eq_some_iff,Prod.mk.injEq] at hsome
      obtain ⟨_,hrec,_,hpkt,rfl,rfl⟩ := hsome
      obtain ⟨t,id,hmem⟩ := hfault _ _ hrec hpkt hnot
      exact ⟨t,_,id,hmem⟩
  | gatewayReceive g now dg env =>
    obtain ⟨hsound,hfault⟩ := sound_socketRead now dg env hadm.1 hadm.2 hp h he.1
    constructor
    · intro hacc
      refine hsound (fun pkt hpkt => hacc g pkt ?_)
      change dg.tagLabels?.map _ = _
      rw [hpkt]
      rfl
    · intro hnot
      simp only [LabelsAcceptable,not_forall] at hnot
      obtain ⟨g',pkt,hsome,hnot⟩ := hnot
      simp only [tagLabels?,Option.map_eq_some_iff,Prod.mk.injEq] at hsome
      obtain ⟨_,hpkt,rfl,rfl⟩ := hsome
      obtain ⟨t,id,hmem⟩ := hfault _ hpkt hnot
      exact ⟨t,g,id,hmem⟩
  | command now cmd =>
    cases cmd with
    | tag targets label => exact hother rfl (sound_protoTag now targets hp h hadm)
    | _ => exact hother rfl (Event.sound_other h he rfl rfl)
  | _ => exact hother rfl (Event.sound_other h he rfl rfl)

/-- The masks, the tables, the list of tags and the site lists agree, and the assertions
about them have held so far. -/
structure TagsConsistent (d : Daemon) : Prop where
  mask : ∀ g ∈ d.gateways, ∀ id, (d.gw g).tagIds.getLsbD id = ((d.gw g).tags id).isSome
  entry : ∀ g ∈ d.gateways, ∀ id t, (d.gw g).tags id = some t ↔
    t ∈ d.tags ∧ (d.tag t).sites.filter (fun s => s.gw = g) = [⟨id,g⟩]
  one_id : ∀ g ∈ d.gateways, ∀ id id' t,
    (d.gw g).tags id = some t → (d.gw g).tags id' = some t → id = id'
  site_assertion : ∀ t g id, .siteTagId t g id ∉ d.faults
  no_freed_tag : ∀ t, .freedTag t ∉ d.faults

theorem tagsConsistent_of_sound {d : Daemon} (h : d.tagging.Sound) : TagsConsistent d where
  mask := h.masked
  entry := by
    intro g hg id t
    refine (h.entries g hg id t).trans (and_congr_right (fun ht => ?_))
    exact (KeyedList.filter_key (x := (⟨id,g⟩ : Site)) (h.sites_nodup t ht)).symm
  one_id := fun g hg id id' t he he' => h.toLinked.id_unique hg he he'
  site_assertion := fun t g id hmem => h.ok _ hmem rfl
  no_freed_tag := fun t hmem => h.ok _ hmem rfl

theorem sound_started (clientId : UInt32) : (started clientId).tagging.Sound where
  gateways_nodup := List.nodup_nil
  gateways_lt := nofun
  entries := nofun
  sites_live := nofun
  sites_nodup := nofun
  tags_nodup := List.nodup_nil
  tags_lt := nofun
  labels := nofun
  masked := nofun
  ok := nofun

theorem consistent_run {d : Daemon} {es : List Event} (hp : d.devices.Partition)
    (h : d.tagging.Sound) (hl : daemonSystem.Legal d es) (hadm : ∀ e ∈ es, e.Admissible) :
    daemonSystem.Always TagsConsistent d es ↔
      (daemonSystem.restrict (fun d e => e.LabelsAcceptable d)).Legal d es := by
  induction es generalizing d with
  | nil => exact ⟨fun _ => trivial,fun _ => System.always_nil.mpr (tagsConsistent_of_sound h)⟩
  | cons e es ih =>
    obtain ⟨he,hl⟩ := hl
    have hadm' : ∀ e ∈ es, e.Admissible := fun x hx => hadm x (List.mem_cons_of_mem _ hx)
    obtain ⟨hsound,hfault⟩ := Event.sound_apply hp h he (hadm e List.mem_cons_self)
    rw [System.always_cons]
    by_cases hacc : e.LabelsAcceptable d
    · have hrest := ih (partition_step hp he) (hsound hacc) hl hadm'
      exact ⟨fun hall => ⟨⟨he,hacc⟩,hrest.mp hall.2⟩,
        fun hlegal => ⟨tagsConsistent_of_sound h,hrest.mpr hlegal.2⟩⟩
    · obtain ⟨t,g,id,hmem⟩ := hfault hacc
      exact ⟨fun hall => (hall.2.head.site_assertion t g id hmem).elim,
        fun hlegal => (hacc hlegal.1.2).elim⟩

/-- The registry of tags is consistent in every state of a run exactly if every label
packet of the run is acceptable where it arrives: it has no label, or it names at most one
id its gateway does not know, and then the gateway has no tag with that label yet. -/
theorem tags_consistent_iff (clientId : UInt32) (es : List Event)
    (hl : daemonSystem.Legal (started clientId) es) (hadm : ∀ e ∈ es, e.Admissible) :
    daemonSystem.Always TagsConsistent (started clientId) es ↔
      (daemonSystem.restrict (fun d e => e.LabelsAcceptable d)).Legal (started clientId) es :=
  consistent_run (partition_started clientId) (sound_started clientId) hl hadm

/-- A gateway appears and then reports labels. -/
def labelsRun (pkts : List (List UInt8)) : List Event :=
  .broadcastReceive 1 (.sent [1] .allDevices .panGateway (List.replicate 5 0)) {} ::
    pkts.map (fun payload => .gatewayReceive 0 2 (.sent [1] .allDevices .tagLabels payload) {})

def labelPayload (mask : UInt8) (label : List UInt8) : List UInt8 :=
  (mask :: List.replicate 7 0) ++ label ++ List.replicate (labelSize - label.length) 0

theorem Event.labelsAcceptable_of {d : Daemon} {e : Event} (g : GatewayRef) (pkt : TagLabels)
    (h : e.tagLabels? d = some (g,pkt)) (hacc : d.tagging.Acceptable g pkt) : e.LabelsAcceptable d := by
  rintro g' pkt' h'
  rw [h] at h'
  cases h'
  exact hacc

/-- A label for one id, the same once more, and the ids of the gateway forgotten. -/
def oneIdRun : List Event := labelsRun [labelPayload 1 [120],labelPayload 1 [120],labelPayload 3 []]

theorem tags_consistent_oneIdRun :
    ((daemonSystem.exec (started 7) (oneIdRun.take 2)).gw 0).tags 0 = some 0 ∧
    daemonSystem.Always TagsConsistent (started 7) oneIdRun := by
  refine ⟨by decide +kernel,(tags_consistent_iff 7 oneIdRun (by decide +kernel) ?_).mpr ?_⟩
  · simp [oneIdRun,labelsRun,Event.Admissible]
  · refine ⟨⟨trivial,?_⟩,⟨by decide +kernel,?_⟩,⟨by decide +kernel,?_⟩,⟨by decide +kernel,?_⟩,trivial⟩
    · intro g pkt h
      cases h
    · refine Event.labelsAcceptable_of 0 ⟨1,(Vector.replicate 32 0).set 0 120⟩ (by decide +kernel)
        (Or.inr (Or.inr ⟨by decide +kernel,?_⟩))
      intro id t h
      cases h
    · exact Event.labelsAcceptable_of 0 ⟨1,(Vector.replicate 32 0).set 0 120⟩ (by decide +kernel)
        (Or.inr (Or.inl (by decide +kernel)))
    · exact Event.labelsAcceptable_of 0 ⟨3,Vector.replicate 32 0⟩ (by decide +kernel)
        (Or.inl (by decide +kernel))

/-- One packet with one label for two ids. -/
def twoIdsRun : List Event := labelsRun [labelPayload 3 [120]]

theorem tags_inconsistent_twoIdsRun :
    daemonSystem.Legal (started 7) twoIdsRun ∧ (∀ e ∈ twoIdsRun, e.Admissible) ∧
    ((daemonSystem.exec (started 7) twoIdsRun).gw 0).tags 0 = some 0 ∧
    ((daemonSystem.exec (started 7) twoIdsRun).gw 0).tags 1 = some 0 ∧
    .siteTagId 0 0 1 ∈ (daemonSystem.exec (started 7) twoIdsRun).faults ∧
    ¬ daemonSystem.Always TagsConsistent (started 7) twoIdsRun := by
  have hfault : .siteTagId 0 0 1 ∈ (daemonSystem.exec (started 7) twoIdsRun).faults := by decide +kernel
  refine ⟨by decide +kernel,?_,by decide +kernel,by decide +kernel,hfault,?_⟩
  · simp [twoIdsRun,labelsRun,Event.Admissible]
  · intro hall
    exact hall.last.site_assertion 0 0 1 hfault

end Lightsd.Core
