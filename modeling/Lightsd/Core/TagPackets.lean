import Lightsd.Core.TagBits
import Lightsd.Core.TargetSets

/-! # The packets of the tag and untag commands

Which packets that set tags the two commands get into the ring of each gateway: those for the
selected bulbs behind it, in order, each with the mask computed for its bulb, as long as the
ring has room. They are the right ones exactly where the id of the tag and the tags of the
bulbs do not meet the limits of an int and no bulb in need of a mask comes to a full ring.
-/
namespace Lightsd.Lifx.Daemon

open Lightsd.Core Tagging

/-- Nothing has changed that the packets for bulbs are made of. -/
structure Steady (d₀ d : Daemon) : Prop where
  bulb : d.bulb = d₀.bulb
  tagging : d.tagging = d₀.tagging
  clientId : d.clientId = d₀.clientId
  site : ∀ g, (d.gw g).site = (d₀.gw g).site

section Sending
variable {d₀ d d' : Daemon}

theorem Steady.refl (d : Daemon) : Steady d d := ⟨rfl,rfl,rfl,fun _ => rfl⟩

theorem Steady.trans {d'' : Daemon} (h : Steady d d') (h' : Steady d' d'') : Steady d d'' :=
  ⟨h'.bulb.trans h.bulb,h'.tagging.trans h.tagging,h'.clientId.trans h.clientId,
    fun g => (h'.site g).trans (h.site g)⟩

theorem Steady.getTagId (h : Steady d₀ d) (g : GatewayRef) (t : TagRef) :
    (d.gw g).getTagId t = (d₀.gw g).getTagId t :=
  (tagIdFor_congr (congrFun (congrArg Tagging.tagIds h.tagging) g)
    (congrFun (congrArg Tagging.table h.tagging) g) t).2

theorem Steady.setTagsPacket (h : Steady d₀ d) (b : BulbRef) (mask : TagMask) :
    setTagsPacket d b mask = setTagsPacket d₀ b mask := by
  simp only [Daemon.setTagsPacket,h.bulb,h.clientId,h.site]

theorem steady_enqueue (d : Daemon) (g : GatewayRef) (target : Target) (req : Request) :
    Steady d (d.enqueue g target req) :=
  ⟨rfl,(silent_enqueue d g target req).tagging,rfl,fun g' => site_enqueue d g g' target req⟩

theorem steady_expectPower (d : Daemon) (now : Time) {req : Request} (h : Request.power? req = none)
    (b : BulbRef) : Steady d (d.expectPower now req b) :=
  ⟨(quiet_expectPower h d now b).bulb,rfl,rfl,fun _ => rfl⟩

theorem sendToDevice_setTags (d : Daemon) (now : Time) (mask : TagMask) (b : BulbRef) :
    Steady d (d.sendToDevice now (.setTags mask) b) ∧
    ∀ g, Queued d (d.sendToDevice now (.setTags mask) b) g
      (if (d.bulb b).gw = g then [setTagsPacket d b mask] else []) := by
  refine ⟨(steady_enqueue d _ _ _).trans (steady_expectPower _ now rfl b),fun g => ?_⟩
  have hqueued := queued_enqueue d (d.bulb b).gw g (.device (d.bulb b).addr) (.setTags mask)
  simp only [eq_comm (a := g)] at hqueued
  exact hqueued

/-- A loop over bulbs in which each bulb is sent a mask or none. -/
theorem queued_foldl {f : Daemon → BulbRef → Daemon} {mask : BulbRef → Option TagMask}
    (hf : ∀ d b, Steady d₀ d → Steady d₀ (f d b) ∧ ∀ g, Queued d (f d b) g
      (if (d₀.bulb b).gw = g then ((mask b).map (setTagsPacket d₀ b)).toList else []))
    (bs : List BulbRef) (hd : Steady d₀ d) :
    Steady d₀ (bs.foldl f d) ∧ ∀ g, Queued d (bs.foldl f d) g
      ((bs.filter (fun b => (d₀.bulb b).gw = g)).filterMap (fun b => (mask b).map (setTagsPacket d₀ b))) := by
  induction bs generalizing d with
  | nil => exact ⟨hd,fun g => rfl⟩
  | cons b bs ih =>
    obtain ⟨hsteady,hqueued⟩ := hf d b hd
    obtain ⟨hrest,hrestQueued⟩ := ih hsteady
    refine ⟨hrest,fun g => ?_⟩
    have hboth := (hqueued g).trans (hrestQueued g)
    by_cases hg : (d₀.bulb b).gw = g
    · cases hm : mask b <;> simpa [hg,hm] using hboth
    · simpa [hg] using hboth

theorem sendSetTags_sends (now : Time) (t : TagRef) (d : Daemon) (b : BulbRef) (hd : Steady d₀ d) :
    Steady d₀ (sendSetTags now t d b) ∧ ∀ g, Queued d (sendSetTags now t d b) g
      (if (d₀.bulb b).gw = g then
        ((((d₀.gw (d₀.bulb b).gw).getTagId t).bind (tagMask? (d₀.bulb b).state.tags)).map
          (setTagsPacket d₀ b)).toList else []) := by
  unfold sendSetTags
  rw [hd.bulb,hd.getTagId]
  cases hid : (d₀.gw (d₀.bulb b).gw).getTagId t with
  | none =>
    have hsame : (d.fault (.missingTagId t (d₀.bulb b).gw)).tagging = d.tagging := tagging_fault rfl
    have hempty : ∀ g, Queued d (d.fault (.missingTagId t (d₀.bulb b).gw)) g [] := fun g => rfl
    exact ⟨hd.trans ⟨rfl,hsame,rfl,fun _ => rfl⟩,fun g => by simpa using hempty g⟩
  | some id =>
    obtain ⟨hsteady,hqueued⟩ := sendToDevice_setTags d now
      ((d₀.bulb b).state.tags ||| intTagValue id) b
    simp only [Option.bind_some,tagMask?]
    split
    · refine ⟨hd.trans hsteady,fun g => ?_⟩
      simpa [hd.bulb,hd.setTagsPacket] using hqueued g
    · exact ⟨hd,fun g => by simpa using Queued.of_outbox rfl g⟩

/-- The packet that tells a gateway the label of the id that the tag has there. -/
def labelPacket (d : Daemon) (label : List UInt8) (site : Site) : OutPacket :=
  (Request.setTagLabels (tagIdToValue site.tagId) (padLabel (label.take (labelSize - 1)))).packet d.clientId
    .site (d.gw site.gw).site

theorem sendTagLabels_sends (d : Daemon) (t : TagRef) (label : List UInt8) :
    Steady d (d.sendTagLabels t label) ∧ ∀ g, Queued d (d.sendTagLabels t label) g
      (((d.tag t).sites.filter (fun s => s.gw = g)).map (labelPacket d label)) := by
  have hrun : ∀ (sites : List Site) (d' : Daemon), Steady d d' →
      Steady d (sites.foldl (fun d site => d.sendToSite site.gw
        (.setTagLabels (tagIdToValue site.tagId) (padLabel (label.take (labelSize - 1))))) d') ∧
      ∀ g, Queued d' (sites.foldl (fun d site => d.sendToSite site.gw
        (.setTagLabels (tagIdToValue site.tagId) (padLabel (label.take (labelSize - 1))))) d') g
        ((sites.filter (fun s => s.gw = g)).map (labelPacket d label)) := by
    intro sites
    induction sites with
    | nil => exact fun d' hd' => ⟨hd',fun g => rfl⟩
    | cons s sites ih =>
      intro d' hd'
      rw [List.foldl_cons]
      generalize hreq : Request.setTagLabels (tagIdToValue s.tagId) (padLabel (label.take (labelSize - 1))) = req
      obtain ⟨hsteady,hrest⟩ := ih (d'.sendToSite s.gw req) (hd'.trans (steady_enqueue d' s.gw .site req))
      refine ⟨hsteady,fun g => ?_⟩
      have hboth := (queued_enqueue d' s.gw g .site req).trans (hrest g)
      by_cases hg : s.gw = g
      · subst hg
        simpa [labelPacket,hreq,hd'.clientId,hd'.site] using hboth
      · simpa [hg,Ne.symm hg] using hboth
  exact hrun (d.tag t).sites d (.refl d)

end Sending

/-- The id the tag with a label has on a gateway. -/
def labelId (d : Daemon) (label : List UInt8) (g : GatewayRef) : Option ℕ :=
  (d.findTag label).bind (d.gw g).getTagId

section Packets
variable {d d' : Daemon} {g : GatewayRef} {label : List UInt8} {t : TagRef}

end Packets

/-- Giving up an id forgets tags at most, and keeps their labels. -/
theorem labels_deallocateTagId (d : Daemon) (g : GatewayRef) (id : ℕ) :
    (∀ t ∈ (d.deallocateTagId g id).tags, t ∈ d.tags) ∧
    ∀ t, ((d.deallocateTagId g id).tag t).label = (d.tag t).label := by
  unfold deallocateTagId
  split
  · cases (d.gw g).tags id with
    | none => exact ⟨fun t ht => ht,fun t => rfl⟩
    | some t =>
      by_cases ht : t ∈ d.tags
      · have hview := tagging_decref g ht
        have htags : (d.decref t g).tags = (d.tagging.detach t g).tags := congrArg Tagging.tags hview
        have htag : (d.decref t g).tag = (d.tagging.detach t g).tag := congrArg Tagging.tag hview
        refine ⟨fun t' ht' => ?_,fun t' => ?_⟩
        · have hmem : t' ∈ (d.tagging.detach t g).tags := htags ▸ ht'
          exact Linked.detach_tags d.tagging t g t' hmem
        · change ((d.decref t g).tag t').label = _
          rw [htag]
          by_cases hne : t' = t
          · simp [Tagging.detach,Tag.removeSite,tagging,hne]
          · simp [Tagging.detach,tagging,hne]
      · simp only [decref,if_neg ht]
        exact ⟨fun t' ht' => ht',fun t' => rfl⟩
  · exact ⟨fun t ht => ht,fun t => rfl⟩

theorem labels_abandonTag (d : Daemon) (t : TagRef) :
    (∀ t' ∈ (d.abandonTag t).tags, t' ∈ d.tags) ∧
    ∀ t', ((d.abandonTag t).tag t').label = (d.tag t').label := by
  unfold abandonTag
  split
  · refine ⟨fun t' ht' => ?_,fun t' => ?_⟩
    · have hmem : t' ∈ (d.check (d.tag t).sites.isEmpty (.sitesLeft t)).tags.erase t := ht'
      rw [check_tags] at hmem
      exact List.mem_of_mem_erase hmem
    · unfold deallocateTag check
      split <;> rfl
  · rename_i hne
    clear hne
    generalize (d.tag t).sites = sites
    induction sites generalizing d with
    | nil => exact ⟨fun t' ht' => ht',fun t' => rfl⟩
    | cons s sites ih =>
      obtain ⟨htags,hlabels⟩ := labels_deallocateTagId d s.gw s.tagId
      obtain ⟨hrest,hrestLabels⟩ := ih (d.deallocateTagId s.gw s.tagId)
      exact ⟨fun t' ht' => htags t' (hrest t' ht'),fun t' => (hrestLabels t').trans (hlabels t')⟩

/-- After a failed tag command no tag has the label. -/
theorem findTag_abandonTag {d : Daemon} {t : TagRef} (h : d.tagging.Sound) (ht : t ∈ d.tags) :
    (d.abandonTag t).findTag (d.tag t).label = none := by
  obtain ⟨htags,hlabels⟩ := labels_abandonTag d t
  refine List.find?_eq_none.mpr (fun t' ht' => ?_)
  simp only [decide_eq_true_eq,hlabels]
  intro hsame
  have heq : t' = t := h.labels t' (htags t' ht') t ht hsame
  exact freed_abandonTag h ht (heq ▸ ht')

end Lightsd.Lifx.Daemon

namespace Lightsd.Core

open Lifx Lifx.Daemon Lifx.Tagging Runs

section Allocated
variable {d d₁ d₂ : Daemon} {t : TagRef} {label : List UInt8} {now : Time} {targets : List TargetName}

/-- The ids of the tag after a tag command that finds them all. -/
theorem labelId_of_allocated (hprep : Prepared d label d₁ t)
    (halloc : Allocated d₁ t (d.targetsToDevices targets) (d₂,true))
    (heq : (d.protoTag now targets label).1 =
      (d.targetsToDevices targets).foldl (sendSetTags now t) (d₂.sendTagLabels t label)) :
    (d.protoTag now targets label).1.findTag label = some t ∧ Steady d₂ (d.protoTag now targets label).1 ∧
    ∀ g, (d.protoTag now targets label).1.labelId label g = (d₂.gw g).getTagId t := by
  obtain ⟨hsound,hmem,hlabel,-⟩ := halloc.links.sound hprep.sound hprep.mem
  obtain ⟨hend,-⟩ := queued_foldl (fun d b (h : Steady d₂ d) => sendSetTags_sends now t d b h)
    (d.targetsToDevices targets) (sendTagLabels_sends d₂ t label).1
  rw [← heq] at hend
  have hfind : (d.protoTag now targets label).1.findTag label = some t := by
    have hkey := KeyedList.find?_key hsound.labels hmem
    rw [hlabel.trans hprep.labelled] at hkey
    have hview : (d.protoTag now targets label).1.findTag label =
        (d.protoTag now targets label).1.tagging.tags.find?
          (fun t => ((d.protoTag now targets label).1.tagging.tag t).label = label) := rfl
    rw [hview,hend.tagging]
    exact hkey
  refine ⟨hfind,hend,fun g => ?_⟩
  rw [labelId,hfind,Option.bind_some,hend.getTagId]

/-- Each selected bulb has the id on its gateway that it was to be given. -/
theorem placed_of_allocated (hprep : Prepared d label d₁ t)
    (halloc : Allocated d₁ t (d.targetsToDevices targets) (d₂,true)) :
    ∀ b ∈ d.targetsToDevices targets, ∃ id, (d₂.gw (d.bulb b).gw).getTagId t = some id ∧
      d.tagIdFor label (d.bulb b).gw = some id := by
  intro b hb
  obtain ⟨id,hget⟩ := halloc.placed rfl b hb
  rw [hprep.bulb] at hget
  refine ⟨id,hget,?_⟩
  rw [← hprep.tagIdFor,← halloc.tagIdFor]
  exact tagIdFor_known hget

end Allocated

/-- One bulb without tags. -/
def plainLamp : Daemon := daemonSystem.exec (started 7) (lampsRun [[0,0,0,0,0,0,0,0]])

theorem reachable_plainLamp : Reachable plainLamp :=
  ⟨7,lampsRun [[0,0,0,0,0,0,0,0]],by decide +kernel,rfl,by decide +kernel⟩

end Lightsd.Core
