import Lightsd.Core.TagPackets

/-! # New tags and the tags bulbs report

The tag command gives a new tag the lowest id that its gateway has no label for. Bulbs report
the ids they carry in packets of their own, so the id may already be carried by bulbs, and
then the new tag selects them too. This happens exactly where a bulb behind the gateway
carries the lowest id without a label.
-/
namespace Lightsd.Lifx

/-- No bulb behind the gateway carries the lowest id the gateway has no label for: each id
that is carried has a label, or there is a lower id without one. -/
def Daemon.FreeIdUncarried (d : Daemon) (g : GatewayRef) : Prop :=
  ∀ b ∈ (d.gw g).bulbs, ∀ i, (d.bulb b).state.tags.getLsbD i = true →
    (d.gw g).tagIds.getLsbD i = true ∨ ∃ j < i, (d.gw g).tagIds.getLsbD j = false

namespace Daemon

open Lightsd.Core Tagging

theorem freeIdUncarried_iff {d : Daemon} {g : GatewayRef} {id : ℕ}
    (hfree : (d.gw g).freeTagId = some id) :
    d.FreeIdUncarried g ↔ ∀ b ∈ (d.gw g).bulbs, (d.bulb b).state.tags.getLsbD id = false := by
  obtain ⟨hclear,hid,hlower⟩ := List.find?_range_eq_some.mp hfree
  have hid' : id < maxTags := List.mem_range.mp hid
  have hoff : (d.gw g).tagIds.getLsbD id = false := by
    rw [hasTagId_eq hid'] at hclear
    simpa only [Bool.not_eq_true'] using hclear
  have hon : ∀ j < id, (d.gw g).tagIds.getLsbD j = true := by
    intro j hj
    have hbit := hlower j hj
    rw [hasTagId_eq (hj.trans hid')] at hbit
    simpa only [Bool.not_not] using hbit
  refine forall₂_congr (fun b hb => ⟨fun h => ?_,fun h i hi => ?_⟩)
  · by_contra hcarried
    rcases h id (by simpa only [Bool.not_eq_false] using hcarried) with hknown | ⟨j,hj,hmissing⟩
    · rw [hoff] at hknown
      cases hknown
    · rw [hon j hj] at hmissing
      cases hmissing
  · rcases Nat.lt_trichotomy i id with hlt | rfl | hgt
    · exact Or.inl (hon i hlt)
    · rw [h] at hi
      cases hi
    · exact Or.inr ⟨id,hgt,hoff⟩

end Daemon
end Lightsd.Lifx

namespace Lightsd.Core

open Lifx Lifx.Daemon Lifx.Tagging Runs

/-- The ids the new tag has after the command are carried by no bulb of their gateway, and
the target for the tag selects no bulb that was not selected by the command. -/
structure CapturesNothing (d : Daemon) (now : Time) (targets : List TargetName) (label : List UInt8) :
    Prop where
  uncarried : ∀ g id, (d.protoTag now targets label).1.labelId label g = some id →
    ∀ b ∈ ((d.protoTag now targets label).1.gw g).bulbs,
      ((d.protoTag now targets label).1.bulb b).state.tags.getLsbD id = false
  selected : ∀ b ∈ (d.protoTag now targets label).1.targetsToDevices [35 :: label],
    b ∈ d.targetsToDevices targets

theorem capturesNothing_of_failed {d d₁ d₂ : Daemon} {t : TagRef} {label : List UInt8} {now : Time}
    {targets : List TargetName} (hp : (d.protoTag now targets label).1.devices.Partition)
    (hprep : Prepared d label d₁ t) (halloc : Allocated d₁ t (d.targetsToDevices targets) (d₂,false))
    (heq : (d.protoTag now targets label).1 = d₂.abandonTag t) : CapturesNothing d now targets label := by
  obtain ⟨hsound,hmem,hlabel,-⟩ := halloc.links.sound hprep.sound hprep.mem
  have hfind : (d.protoTag now targets label).1.findTag label = none := by
    have hnone := findTag_abandonTag (d := d₂) hsound hmem
    have hsame : (d₂.tag t).label = label := hlabel.trans hprep.labelled
    rwa [hsame,← heq] at hnone
  refine ⟨fun g id hid => ?_,fun b hb => ?_⟩
  · simp [labelId,hfind] at hid
  · obtain ⟨target,htarget,hsel⟩ := (mem_targetsToDevices hp).mp hb
    rw [List.mem_singleton.mp htarget] at hsel
    simp [Daemon.selected,hfind] at hsel

theorem capturesNothing_iff_of_allocated {d d₁ d₂ : Daemon} {t : TagRef} {label : List UInt8} {now : Time}
    {targets : List TargetName} (hp : (d.protoTag now targets label).1.devices.Partition)
    (hdev : (d.protoTag now targets label).1.devices = d.devices)
    (hsound : (d.protoTag now targets label).1.tagging.Sound)
    (hprep : Prepared d label d₁ t) (hnew : d.findTag label = none)
    (hfresh : ∀ g, (d₁.gw g).getTagId t = none)
    (halloc : Allocated d₁ t (d.targetsToDevices targets) (d₂,true))
    (heq : (d.protoTag now targets label).1 =
      (d.targetsToDevices targets).foldl (sendSetTags now t) (d₂.sendTagLabels t label)) :
    CapturesNothing d now targets label ↔
      ∀ b ∈ d.targetsToDevices targets, d.FreeIdUncarried (d.bulb b).gw := by
  obtain ⟨hfind,hsteady,hid⟩ := labelId_of_allocated hprep halloc heq
  have hplaced := placed_of_allocated hprep halloc
  have hfree : ∀ g, d.tagIdFor label g = (d.gw g).freeTagId := fun g => by simp [Daemon.tagIdFor,hnew]
  have hbulbs : ∀ g, ((d.protoTag now targets label).1.gw g).bulbs = (d.gw g).bulbs :=
    congrFun (congrArg Devices.members hdev)
  have hbulb : (d.protoTag now targets label).1.bulb = d.bulb :=
    hsteady.bulb.trans (halloc.bulb.trans hprep.bulb)
  constructor
  · intro h b hb
    obtain ⟨id,hget,hfor⟩ := hplaced b hb
    refine (freeIdUncarried_iff ((hfree _).symm.trans hfor)).mpr (fun b' hb' => ?_)
    have hun := h.uncarried (d.bulb b).gw id ((hid _).trans hget) b' (by rw [hbulbs]; exact hb')
    rwa [hbulb] at hun
  · intro h
    have huncarried : ∀ g id, (d.protoTag now targets label).1.labelId label g = some id →
        ∀ b ∈ (d.gw g).bulbs, (d.bulb b).state.tags.getLsbD id = false := by
      intro g id hlabel b hb
      rw [hid] at hlabel
      rcases halloc.only g id hlabel with hold | ⟨b',hb',hg⟩
      · rw [hfresh] at hold
        cases hold
      · rw [hprep.bulb] at hg
        subst hg
        obtain ⟨id',hget,hfor⟩ := hplaced b' hb'
        rw [hlabel] at hget
        cases hget
        exact (freeIdUncarried_iff ((hfree _).symm.trans hfor)).mp (h b' hb') b hb
    refine ⟨fun g id hlabel b hb => ?_,fun b hb => ?_⟩
    · rw [hbulb]
      exact huncarried g id hlabel b (hbulbs g ▸ hb)
    · obtain ⟨target,htarget,hsel⟩ := (mem_targetsToDevices hp).mp hb
      rw [List.mem_singleton.mp htarget] at hsel
      obtain ⟨site,hsite,hmember,hcarried⟩ := ((mem_selected_tag label _).mp hsel).2 t hfind
      have ht : t ∈ (d.protoTag now targets label).1.tags := List.mem_of_find?_eq_some hfind
      obtain ⟨hg,hentry⟩ := hsound.site_entry ht hsite
      have hlabel : (d.protoTag now targets label).1.labelId label site.gw = some site.tagId := by
        rw [labelId,hfind,Option.bind_some]
        exact (getTagId_eq_some hsound hg).mpr hentry
      have hun := huncarried site.gw site.tagId hlabel b (hbulbs site.gw ▸ hmember)
      rw [hasTagId_eq (hsound.id_lt hg hentry),hbulb,hun] at hcarried
      cases hcarried

/-- A new tag captures no other bulbs exactly if the command fails, or no bulb behind the
gateway of a selected bulb carries the lowest id without a label there. -/
theorem captures_nothing_iff {d : Daemon} (hd : Reachable d) (now : Time) (targets : List TargetName)
    (label : List UInt8) (hnew : d.findTag label = none)
    (hreturns : (d.protoTag now targets label).1.faults = []) :
    CapturesNothing d now targets label ↔
      (∃ b ∈ d.targetsToDevices targets, (d.gw (d.bulb b).gw).freeTagId = none) ∨
      ∀ b ∈ d.targetsToDevices targets, d.FreeIdUncarried (d.bulb b).gw := by
  have hok : (d.protoTag now targets label).1.tagging.ok := by
    intro f hf
    rw [hreturns] at hf
    cases hf
  have hlabel := (hd.regular.protoTag now targets label hok).1
  have hnext : Regular (d.protoTag now targets label).1 :=
    hd.regular.step (e := .command now (.tag targets label)) trivial
  have hfree : ∀ g, d.tagIdFor label g = (d.gw g).freeTagId := fun g => by simp [Daemon.tagIdFor,hnew]
  obtain ⟨d₁,t,⟨d₂,ok⟩,hprep,halloc,heq,hcreated,-⟩ :=
    protoTag_stages hd.partition hd.numbered hd.sound hlabel now targets
  obtain ⟨hview,rfl⟩ := hcreated hnew
  cases ok with
  | false =>
    refine iff_of_true (capturesNothing_of_failed hnext.partition hprep halloc (congrArg Prod.fst heq))
      (Or.inl ?_)
    obtain ⟨b,hb,hfull⟩ := halloc.full rfl
    rw [hprep.bulb,hprep.tagIdFor,hfree] at hfull
    exact ⟨b,hb,hfull⟩
  | true =>
    have hdev : (d.protoTag now targets label).1.devices = d.devices := by
      rw [heq]
      exact ((silent_sendTagLabels d₂ d.nextTag label).trans
        (Silent.foldl (silent_sendSetTags now d.nextTag) _ _)).devices.trans
        (halloc.devices.trans hprep.devices)
    rw [capturesNothing_iff_of_allocated hnext.partition hdev (hnext.sound hok) hprep hnew
      (getTagId_newTag hd.numbered hview) halloc (congrArg Prod.fst heq)]
    refine (or_iff_right ?_).symm
    rintro ⟨b,hb,hnone⟩
    obtain ⟨id,-,hfor⟩ := placed_of_allocated hprep halloc b hb
    rw [hfree,hnone] at hfor
    cases hfor

theorem captures_nothing_plainLamp :
    (plainLamp.protoTag 3 [[42]] [120]).1.labelId [120] 0 = some 0 ∧
    CapturesNothing plainLamp 3 [[42]] [120] := by
  refine ⟨by decide +kernel,(captures_nothing_iff reachable_plainLamp 3 [[42]] [120] (by decide +kernel)
    (by decide +kernel)).mpr (Or.inr ?_)⟩
  have hbulbs : plainLamp.targetsToDevices [[42]] = [0] := by decide +kernel
  have hmembers : (plainLamp.gw (plainLamp.bulb 0).gw).bulbs = [0] := by decide +kernel
  have htags : (plainLamp.bulb 0).state.tags = 0 := by decide +kernel
  intro b hb b' hb' i hi
  rw [hbulbs,List.mem_singleton] at hb
  subst hb
  rw [hmembers,List.mem_singleton] at hb'
  subst hb'
  simp [htags] at hi

/-- Two bulbs, the first of which carries id 0. -/
def twoLampsRun : List Event := lampsRun [[1,0,0,0,0,0,0,0],[0,0,0,0,0,0,0,0]]

def twoLamps : Daemon := daemonSystem.exec (started 7) twoLampsRun

/-- The address of the second bulb as a target. -/
def secondLamp : TargetName := [48,50,48,48,48,48,48,48,48,48,48,48]

/-- Only the second bulb is tagged, and the new tag selects the first one. -/
theorem first_lamp_captured :
    Reachable twoLamps ∧ twoLamps.findTag [120] = none ∧
    (twoLamps.protoTag 3 [secondLamp] [120]).1.faults = [] ∧
    twoLamps.targetsToDevices [secondLamp] = [1] ∧
    (twoLamps.protoTag 3 [secondLamp] [120]).1.targetsToDevices [[35,120]] = [0] ∧
    ¬ CapturesNothing twoLamps 3 [secondLamp] [120] := by
  have hbefore : twoLamps.targetsToDevices [secondLamp] = [1] := by decide +kernel
  have hafter : (twoLamps.protoTag 3 [secondLamp] [120]).1.targetsToDevices [[35,120]] = [0] := by
    decide +kernel
  refine ⟨⟨7,twoLampsRun,by decide +kernel,rfl,by decide +kernel⟩,by decide +kernel,by decide +kernel,hbefore,
    hafter,fun h => ?_⟩
  have hmem := h.selected 0 (by rw [hafter]; exact List.mem_singleton_self 0)
  rw [hbefore] at hmem
  simp at hmem

end Lightsd.Core
