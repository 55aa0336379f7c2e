import Lightsd.Core.TagRuns
import Lightsd.Lifx.TagChanges

/-! # Reachable states

A state is reachable when some run leads to it in which no assertion failed and no freed
object was used. Labels that do not fit fail an assertion of the tag command, and label
packets that cannot be accepted one of the tag registry, so in a reachable state the
registry of tags is sound without any assumption about what the network and the clients
send or which allocations succeed.
-/
namespace Lightsd.Lifx.Daemon

open Tagging Lightsd.Core

theorem faults_sendTagLabels (d : Daemon) (t : TagRef) (label : List UInt8) :
    (d.sendTagLabels t label).faults = d.faults := by
  unfold sendTagLabels
  generalize (d.tag t).sites = sites
  induction sites generalizing d with
  | nil => rfl
  | cons site sites ih => exact ih (d.sendToSite site.gw _)

theorem faults_sendSetTags (now : Time) (t : TagRef) (d : Daemon) (b : BulbRef) :
    d.faults ⊆ (sendSetTags now t d b).faults := by
  unfold sendSetTags
  cases (d.gw (d.bulb b).gw).getTagId t with
  | none => exact List.subset_append_left _ _
  | some id =>
    simp only
    split
    · exact List.Subset.refl _
    · exact List.Subset.refl _

theorem faults_finishTag (now : Time) (t : TagRef) (label : List UInt8) (bs : List BulbRef)
    (s : Daemon × Bool) : s.1.faults ⊆ (finishTag now t label bs s).1.faults := by
  obtain ⟨d,ok⟩ := s
  cases ok with
  | true =>
    have hsend := Runs.foldl_related (R := fun d d' => d.faults ⊆ d'.faults) faults_tags.refl faults_tags.trans
      (fun d b (_ : b ∈ bs) => faults_sendSetTags now t d b) (d.sendTagLabels t label)
    rwa [faults_sendTagLabels] at hsend
  | false => exact faults_tags.abandonTag d t

/-- Faults made while the tag is looked up are still there when the tag command ends. -/
theorem faults_protoTag (d : Daemon) (now : Time) (targets : List TargetName) (label : List UInt8) :
    (d.findOrAllocateTag label true).1.faults ⊆ (d.protoTag now targets label).1.faults := by
  rw [protoTag_eq]
  exact List.Subset.trans (faults_tags.allocateOnGateways (Set.mem_univ _) _ _ _) (faults_finishTag now _ label _ _)

/-- A label that does not fit fails the assertion about its length. -/
theorem longLabel_protoTag {d : Daemon} (now : Time) (targets : List TargetName) {label : List UInt8}
    (hshort : ∀ t, (d.tag t).label.length < labelSize) (hlong : ¬ label.length < labelSize) :
    .longLabel label ∈ (d.protoTag now targets label).1.faults := by
  refine faults_protoTag d now targets label ?_
  have hfind : d.findTag label = none := by
    refine List.find?_eq_none.mpr (fun t _ => ?_)
    have hlt := hshort t
    simp only [decide_eq_true_eq]
    rintro rfl
    exact hlong hlt
  simp [findOrAllocateTag,hfind,allocateTag,check,hlong,fault]

theorem changes_allocateOnGateways {t : TagRef} {label : List UInt8} (hlabel : label.length < labelSize)
    (bs : List BulbRef) (d : Daemon) :
    Changes d.tagging (allocateOnGateways t label d bs).1.tagging :=
  allocateOnGateways_related (R := fun d d' => Changes d.tagging d'.tagging) (fun _ => Relation.ReflTransGen.refl)
    Relation.ReflTransGen.trans (fun d g => changes_allocateTagId hlabel d g (-1) true true) t bs d

theorem changes_abandonTag (d : Daemon) (t : TagRef) : Changes d.tagging (d.abandonTag t).tagging := by
  unfold abandonTag
  split
  · exact changes_deallocateTag d t
  · exact changes_foldl (fun d site _ => changes_deallocateTagId d site.gw site.tagId) d

theorem changes_finishTag (now : Time) (t : TagRef) (label : List UInt8) (bs : List BulbRef)
    (s : Daemon × Bool) : Changes s.1.tagging (finishTag now t label bs s).1.tagging := by
  obtain ⟨d,ok⟩ := s
  cases ok with
  | true =>
    refine Changes.of_eq ?_
    exact ((silent_sendTagLabels d t label).trans (Silent.foldl (silent_sendSetTags now t) _ bs)).tagging
  | false => exact changes_abandonTag d t

theorem changes_protoTag {label : List UInt8} (hlabel : label.length < labelSize) (d : Daemon) (now : Time)
    (targets : List TargetName) :
    Changes (d.tagging.findOrNew label).1 (d.protoTag now targets label).1.tagging := by
  rw [protoTag_eq,← (tagging_findOrAllocateTag hlabel).1]
  exact (changes_allocateOnGateways hlabel _ _).trans (changes_finishTag now _ label _ _)

/-- What a datagram read from the socket of a gateway does to the registry of tags. -/
theorem changes_socketRead (d : Daemon) (g : GatewayRef) (now : Time) (dg : Datagram) (env : Env) :
    Changes d.tagging (d.socketRead g now dg env).tagging := by
  have hread := changes_handleReceive d now (some g) dg env
  unfold socketRead
  generalize d.handleReceive now (some g) dg env = s at hread
  obtain ⟨d',ok⟩ := s
  cases ok with
  | true => exact hread
  | false => exact hread.trans (changes_gatewayClose d' g)

theorem sound_socketRead_env {d : Daemon} {g : GatewayRef} (now : Time) (dg : Datagram) (env : Env)
    (h : d.tagging.Sound) (hg : g ∈ d.gateways) :
    (d.socketRead g now dg env).tagging.Sound ∨
      ∃ t g' id, .siteTagId t g' id ∈ (d.socketRead g now dg env).faults := by
  have hread := sound_handleReceive_env now (some g) dg env h (fun g' hg' => Option.some_inj.mp hg' ▸ hg)
  unfold socketRead
  unfold handleReceive at hread ⊢
  cases hrecv : dg.receive with
  | error => exact Or.inl (sound_gatewayClose h hg)
  | ignored => simpa only [hrecv] using hread
  | packet info hdr => simpa only [hrecv] using hread

theorem changes_watchdog (d : Daemon) (now : Time) : Changes d.tagging (d.watchdog now).tagging := by
  unfold watchdog
  refine (changes_foldl (fun d b _ => .of_eq (tagging_watchdogBulb now d b)) d).trans
    (changes_foldl (fun d g _ => ?_) _)
  rcases watchdogGateway_cases now d g with heq | heq
  · exact .of_eq (congrArg tagging heq)
  · rw [heq]
    exact changes_gatewayClose d g

theorem changes_socketWrite (d : Daemon) (g : GatewayRef) (now : Time) (r : WriteResult) :
    Changes d.tagging (d.socketWrite g now r).tagging := by
  unfold socketWrite
  cases hw : (d.gw g).writeEvent now r with
  | some gw => exact .of_eq (silent_written hw).tagging
  | none => exact changes_gatewayClose d g

end Lightsd.Lifx.Daemon

namespace Lightsd.Core

open Lifx Lifx.Daemon Lifx.Tagging Runs

theorem Event.eq_of_tagLabel? {e : Event} {label : List UInt8} (h : e.tagLabel? = some label) :
    ∃ now targets, e = .command now (.tag targets label) := by
  cases e with
  | command now cmd =>
    cases cmd with
    | tag targets label' =>
      cases h
      exact ⟨now,targets,rfl⟩
    | _ => cases h
  | _ => cases h

/-- What an event that is no tag command does to the registry of tags. -/
theorem Event.changes {e : Event} (d : Daemon) (he : e.tagLabel? = none) :
    Changes d.tagging (e.apply d).tagging := by
  cases e with
  | broadcastReceive now dg env => exact changes_handleReceive d now none dg env
  | gatewayReceive g now dg env => exact changes_socketRead d g now dg env
  | gatewayLost g => exact changes_gatewayClose d g
  | gatewayWrite g now r => exact changes_socketWrite d g now r
  | refresh g => exact .of_eq (silent_sendGetAllLightState d g).tagging
  | hardwareInfo now addr => exact .of_eq (silent_fetchHardwareInfo d now addr).tagging
  | watchdog now => exact changes_watchdog d now
  | closeAll => exact changes_foldl (fun d g _ => changes_gatewayClose d g) d
  | deallocateTagId g id => exact changes_deallocateTagId d g id
  | command now cmd =>
    cases cmd with
    | tag targets label => cases he
    | _ => exact .of_eq (Command.silent_run now d (by simp)).tagging

/-- An event keeps the registry of tags sound, or a label packet fails an assertion. -/
theorem Event.sound_env {d : Daemon} {e : Event} (h : d.tagging.Sound) (he : e.Enabled d)
    (hcmd : e.tagLabel? = none) :
    (e.apply d).tagging.Sound ∨ ∃ t g id, .siteTagId t g id ∈ (e.apply d).faults := by
  cases hrecv : e.isReceive with
  | false => exact Or.inl (Event.sound_other h he hcmd hrecv)
  | true =>
    cases e with
    | broadcastReceive now dg env => exact sound_handleReceive_env now none dg env h nofun
    | gatewayReceive g now dg env => exact sound_socketRead_env now dg env h he.1
    | _ => cases hrecv

/-- What is known of every state as long as no assertion about tags has failed. -/
structure Regular (d : Daemon) : Prop where
  partition : d.devices.Partition
  numbered : d.tagging.ok → d.tagging.Numbered
  sound : d.tagging.ok → d.tagging.Sound

theorem numbered_findOrNew {v : Tagging} (h : v.Numbered) {label : List UInt8}
    (hlabel : label.length < labelSize) : (v.findOrNew label).1.Numbered := by
  unfold findOrNew
  cases hfind : v.tags.find? (fun t => (v.tag t).label = label) with
  | some t => exact h
  | none =>
    refine h.newTag hlabel (fun t ht => ?_)
    simpa using List.find?_eq_none.mp hfind t ht

theorem Regular.protoTag {d : Daemon} (h : Regular d) (now : Time) (targets : List TargetName)
    (label : List UInt8) (hok : (d.protoTag now targets label).1.tagging.ok) :
    label.length < labelSize ∧ d.tagging.ok := by
  have hbefore : d.tagging.ok := fun f hf => hok f
    (faults_protoTag d now targets label (faults_tags.findOrAllocateTag (Set.mem_univ _) d true hf))
  refine ⟨?_,hbefore⟩
  by_contra hlong
  exact hok _ (longLabel_protoTag now targets (h.numbered hbefore).short hlong) rfl

theorem Regular.step {d : Daemon} {e : Event} (h : Regular d) (he : e.Enabled d) : Regular (e.apply d) := by
  have hp : (e.apply d).devices.Partition := partition_step h.partition he
  cases hcmd : e.tagLabel? with
  | none =>
    have hchanges := Event.changes d hcmd
    refine ⟨hp,fun hok => (h.numbered (hchanges.ok hok)).changes hchanges,fun hok => ?_⟩
    rcases Event.sound_env (h.sound (hchanges.ok hok)) he hcmd with hsound | ⟨t,g,id,hfault⟩
    · exact hsound
    · exact (hok _ hfault rfl).elim
  | some label =>
    obtain ⟨now,targets,rfl⟩ := Event.eq_of_tagLabel? hcmd
    refine ⟨hp,fun hok => ?_,fun hok => ?_⟩
    · obtain ⟨hlabel,hbefore⟩ := h.protoTag now targets label hok
      exact (numbered_findOrNew (h.numbered hbefore) hlabel).changes (changes_protoTag hlabel d now targets)
    · obtain ⟨hlabel,hbefore⟩ := h.protoTag now targets label hok
      exact sound_protoTag now targets h.partition (h.sound hbefore) hlabel

theorem numbered_started (clientId : UInt32) : (started clientId).tagging.Numbered where
  nodup := List.nodup_nil
  lt := nofun
  entry_lt := nofun
  short := fun _ => Nat.zero_lt_succ _
  labels := nofun

theorem regular_started (clientId : UInt32) : Regular (started clientId) :=
  ⟨partition_started clientId,fun _ => numbered_started clientId,fun _ => sound_started clientId⟩

/-- The states of the daemon between two events, as long as no assertion of it has failed
and it has not used a freed object. -/
def Reachable (d : Daemon) : Prop :=
  ∃ clientId es, daemonSystem.Legal (started clientId) es ∧
    daemonSystem.exec (started clientId) es = d ∧ d.faults = []

namespace Reachable

variable {d : Daemon}

theorem faults (h : Reachable d) : d.faults = [] := by
  obtain ⟨_,_,_,_,hfaults⟩ := h
  exact hfaults

theorem regular (h : Reachable d) : Regular d := by
  obtain ⟨clientId,es,hlegal,rfl,_⟩ := h
  exact hlegal.invariant (fun _ _ hr he => hr.step he) (regular_started clientId)

theorem ok (h : Reachable d) : d.tagging.ok := by
  intro f hf
  rw [h.faults] at hf
  cases hf

theorem partition (h : Reachable d) : d.devices.Partition := h.regular.partition

theorem numbered (h : Reachable d) : d.tagging.Numbered := h.regular.numbered h.ok

theorem sound (h : Reachable d) : d.tagging.Sound := h.regular.sound h.ok

end Reachable

/-- A gateway appears, and for each of the masks a bulb that reports it as its tags. -/
def lampsRun (masks : List (List UInt8)) : List Event :=
  .broadcastReceive 1 (.sent [1] .allDevices .panGateway (List.replicate 5 0)) {} ::
    masks.zipIdx.map (fun (mask,i) => .gatewayReceive 0 2
      (.sent [1] (.device #v[.ofNat (i + 1),0,0,0,0,0]) .lightStatus (List.replicate 44 0 ++ mask)) {})
end Lightsd.Core
