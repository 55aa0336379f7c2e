import Lightsd.Core.RouterAgreement
import Lightsd.Lifx.TagHandlers

/-! # The tag command and the registry of tags

The command that tags bulbs takes a free id on the gateway of every bulb, and gives up
all ids of the tag when a gateway has none left. Both outcomes keep the registry of tags
sound.
-/
namespace Lightsd.Lifx

namespace Tagging

theorem Linked.findOrNew_eq {v : Tagging} (h : v.Linked) {t : TagRef} {label : List UInt8}
    (ht : t ∈ v.tags) (hlabel : (v.tag t).label = label) : v.findOrNew label = (v,t) := by
  have hfind := KeyedList.find?_key h.labels ht
  rw [hlabel] at hfind
  rw [findOrNew,hfind]

theorem labelFree_of_unknown {v : Tagging} (h : v.Linked) {g : GatewayRef} {t : TagRef}
    {label : List UInt8} (hg : g ∈ v.gateways) (ht : t ∈ v.tags) (hlabel : (v.tag t).label = label)
    (hunknown : ∀ id, v.table g id ≠ some t) : v.LabelFree g label := by
  intro id t' hentry hlabel'
  have ht' : t' ∈ v.tags := ((h.entries g hg id t').mp hentry).1
  have heq : t' = t := h.labels t' ht' t ht (hlabel'.trans hlabel.symm)
  exact hunknown id (heq ▸ hentry)

end Tagging

namespace Daemon

open Tagging Lightsd.Core BitScan

/-- The end of the tag command, where ids have been allocated or one was missing. -/
def finishTag (now : Time) (t : TagRef) (label : List UInt8) (bs : List BulbRef) :
    Daemon × Bool → Daemon × Reply
  | (d,true) => (bs.foldl (sendSetTags now t) (d.sendTagLabels t label),.result true)
  | (d,false) => (d.abandonTag t,.couldNotAllocateTag)

theorem protoTag_eq (d : Daemon) (now : Time) (targets : List TargetName) (label : List UInt8) :
    d.protoTag now targets label =
      finishTag now ((d.findTag label).getD d.nextTag) label (d.targetsToDevices targets)
        (allocateOnGateways ((d.findTag label).getD d.nextTag) label (d.findOrAllocateTag label true).1
          (d.targetsToDevices targets)) := by
  unfold protoTag findOrAllocateTag
  cases d.findTag label with
  | some t => rfl
  | none => rfl

theorem table_of_getTagId {d : Daemon} (h : d.tagging.Sound) {g : GatewayRef} {t : TagRef}
    (hg : g ∈ d.gateways) (hnone : (d.gw g).getTagId t = none) : ∀ id, d.tagging.table g id ≠ some t := by
  intro id hentry
  have hbit : (d.gw g).tagIds.getLsbD id = true := by
    have hmask : (d.gw g).tagIds.getLsbD id = ((d.gw g).tags id).isSome := h.masked g hg id
    rw [hmask,show (d.gw g).tags id = some t from hentry]
    rfl
  have hno := List.find?_eq_none.mp hnone id (mem_foreachTagId.mpr hbit)
  exact hno (decide_eq_true hentry)

/-- Asking for any id gives the lowest one the gateway does not know, if there is one. -/
theorem allocateTagId_any (d : Daemon) (g : GatewayRef) (label : List UInt8) :
    d.allocateTagId g (-1) label true true = (d,-1) ∨
    ∃ id < maxTags, hasTagId (d.gw g).tagIds id = false ∧
      d.allocateTagId g (-1) label true true = d.allocateTagId g (id : ℕ) label true true := by
  by_cases hfull : ~~~(d.gw g).tagIds = 0
  · left
    unfold allocateTagId
    simp only [if_true,hfull,bitscan64Forward_zero]
  · right
    obtain ⟨id,hlow⟩ := exists_isLowest hfull
    have hid : id < maxTags := hlow.lt
    have hscan : bitscan64Forward (~~~(d.gw g).tagIds) = id := bitscan64Forward_eq hlow
    refine ⟨id,hid,?_,?_⟩
    · have hbit := hlow.1
      rw [hasTagId_eq hid]
      rw [BitVec.getLsbD_not] at hbit
      simpa using (Bool.and_eq_true_iff.mp hbit).2
    · have hneg : (id : ℤ) ≠ -1 := by omega
      unfold allocateTagId
      simp only [if_true,hscan,if_neg hneg]

theorem sound_allocateOnGateways {t : TagRef} {label : List UInt8} (hlabel : label.length < labelSize)
    {bs : List BulbRef} {d : Daemon} (h : d.tagging.Sound) (ht : t ∈ d.tags)
    (htl : (d.tag t).label = label) (hbs : ∀ b ∈ bs, (d.bulb b).gw ∈ d.gateways) :
    (allocateOnGateways t label d bs).1.tagging.Sound ∧ t ∈ (allocateOnGateways t label d bs).1.tags := by
  induction bs generalizing d with
  | nil => exact ⟨h,ht⟩
  | cons b bs ih =>
    have hg : (d.bulb b).gw ∈ d.gateways := hbs b List.mem_cons_self
    have hbs' : ∀ b ∈ bs, (d.bulb b).gw ∈ d.gateways := fun x hx => hbs x (List.mem_cons_of_mem _ hx)
    unfold allocateOnGateways
    simp only
    generalize (d.bulb b).gw = g at hg
    split
    · exact ih h ht htl hbs'
    · rename_i hnone
      have hfree := labelFree_of_unknown h.toLinked hg ht htl (table_of_getTagId h hg hnone)
      rcases allocateTagId_any d g label with heq | ⟨id,hid,hbit,heq⟩
      · rw [heq]
        exact ⟨h,ht⟩
      · have hdev := devices_tags.allocateTagId (Set.mem_univ label) d g id true true
        have hentry : (d.gw g).tags id = none := by
          have hiff : hasTagId (d.gw g).tagIds id = ((d.gw g).tags id).isSome := h.bit_iff hg hid
          rw [hbit] at hiff
          exact Option.isNone_iff_eq_none.mp (by simpa using hiff.symm)
        obtain ⟨hview,hret⟩ := tagging_allocateTagId h hg hid hlabel hentry (h.findOrNew_free hg hfree)
        obtain ⟨d₁,hd₁,hsound,-⟩ := allocateTagId_new h hg hid hlabel hbit hfree
        rw [heq]
        rw [h.toLinked.findOrNew_eq ht htl] at hview
        generalize d.allocateTagId g id label true true = s at hdev hview hret hd₁
        obtain ⟨d',tagId⟩ := s
        simp only at hdev hview hret hd₁ ⊢
        subst hd₁
        have hne : tagId ≠ -1 := by omega
        rw [if_neg hne]
        have htags : d₁.tags = d.tags := congrArg Tagging.tags hview
        have htag : d₁.tag t = (d.tag t).addSite id g := by
          have hproj := congrFun (congrArg Tagging.tag hview) t
          exact hproj.trans (Function.update_self t _ _)
        refine ih hsound (htags ▸ ht) (by rw [htag]; exact htl) (fun x hx => ?_)
        have howner : (d₁.bulb x).gw = (d.bulb x).gw := congrFun (congrArg Devices.owner hdev) x
        have hgws : d₁.gateways = d.gateways := congrArg Devices.gateways hdev
        rw [howner,hgws]
        exact hbs' x hx

theorem sound_deallocateTagIds {sites : List Site} {d : Daemon} (h : d.tagging.Sound)
    (hsites : ∀ s ∈ sites, s.gw ∈ d.gateways ∧ s.tagId < maxTags) :
    (sites.foldl (fun d site => d.deallocateTagId site.gw site.tagId) d).tagging.Sound := by
  induction sites generalizing d with
  | nil => exact h
  | cons s sites ih =>
    obtain ⟨hg,hid⟩ := hsites s List.mem_cons_self
    have hdev := devices_tags.deallocateTagId d s.gw s.tagId
    have hgws : (d.deallocateTagId s.gw s.tagId).gateways = d.gateways := congrArg Devices.gateways hdev
    rw [List.foldl_cons]
    refine ih (sound_deallocateTagId h hg hid) (fun x hx => ?_)
    rw [hgws]
    exact hsites x (List.mem_cons_of_mem _ hx)

theorem sound_abandonTag {d : Daemon} {t : TagRef} (h : d.tagging.Sound) (ht : t ∈ d.tags) :
    (d.abandonTag t).tagging.Sound := by
  unfold abandonTag
  split
  · rename_i hempty
    have hnil : (d.tag t).sites = [] := List.isEmpty_iff.mp hempty
    rw [tagging_deallocateTag hnil]
    exact h.dropTag hnil
  · refine sound_deallocateTagIds h (fun s hs => ?_)
    obtain ⟨hg,hentry⟩ := h.site_entry ht hs
    exact ⟨hg,h.id_lt hg hentry⟩

/-- Selected bulbs are listed, and their gateways are open. -/
theorem owner_targetsToDevices {d : Daemon} (hp : d.devices.Partition) (targets : List TargetName) :
    ∀ b ∈ d.targetsToDevices targets, b ∈ d.bulbs ∧ (d.bulb b).gw ∈ d.gateways := by
  intro b hb
  obtain ⟨target,-,hsel⟩ := (mem_targetsToDevices hp).mp hb
  have hlisted := selected_listed hp target b hsel
  exact ⟨hlisted,hp.owner_mem b hlisted⟩

theorem sound_protoTag {d : Daemon} {label : List UInt8} (now : Time) (targets : List TargetName)
    (hp : d.devices.Partition) (h : d.tagging.Sound) (hlabel : label.length < labelSize) :
    (d.protoTag now targets label).1.tagging.Sound := by
  obtain ⟨hview,hres⟩ := tagging_findOrAllocateTag (d := d) hlabel
  obtain ⟨hsound,ht,htl,-⟩ := h.findOrNew label
  have hdev := devices_tags.findOrAllocateTag (Set.mem_univ label) d true
  unfold protoTag
  simp only
  rw [← hview] at hsound ht htl
  generalize d.findOrAllocateTag label true = s at hres hsound ht htl hdev
  obtain ⟨d₁,o⟩ := s
  simp only at hres hsound ht htl hdev
  subst hres
  have hbs : ∀ b ∈ d.targetsToDevices targets, (d₁.bulb b).gw ∈ d₁.gateways := by
    intro b hb
    have howner : (d₁.bulb b).gw = (d.bulb b).gw := congrFun (congrArg Devices.owner hdev) b
    have hgws : d₁.gateways = d.gateways := congrArg Devices.gateways hdev
    rw [howner,hgws]
    exact (owner_targetsToDevices hp targets b hb).2
  have halloc := sound_allocateOnGateways hlabel hsound ht htl hbs
  simp only
  generalize allocateOnGateways (d.tagging.findOrNew label).2 label d₁ (d.targetsToDevices targets) = s₂
    at halloc
  obtain ⟨d₂,ok⟩ := s₂
  cases ok with
  | true =>
    have hsend := (silent_sendTagLabels d₂ (d.tagging.findOrNew label).2 label).trans
      (Silent.foldl (silent_sendSetTags now (d.tagging.findOrNew label).2) _ (d.targetsToDevices targets))
    simp only
    rw [hsend.tagging]
    exact halloc.1
  | false => exact sound_abandonTag halloc.1 halloc.2

end Daemon
end Lightsd.Lifx
