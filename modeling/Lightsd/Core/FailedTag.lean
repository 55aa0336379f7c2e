import Lightsd.Core.LongLabels

/-! # A tag command that fails

The tag command fails when the gateway of a bulb has neither an id for the tag nor a free
one. It then gives up every id of the tag. For a tag it has created itself this restores
the registry: the ids are unlinked in the reverse order of the links. A tag that existed
before loses its old ids as well, and is freed.
-/
namespace Lightsd.Lifx

namespace Tagging

/-- Unlinking a tag from the gateway it was linked to last. -/
theorem unlink_link {v : Tagging} (h : v.Sound) {g : GatewayRef} {id : ℕ} (t : TagRef)
    (hg : g ∈ v.gateways) (hid : id < maxTags) (hfree : v.table g id = none) :
    (((v.attach t g id).setEntry g id t).detach t g).clearEntry g id =
      { v with tags := if (v.tag t).sites = [] then v.tags.erase t else v.tags } := by
  have hsites : ((v.tag t).addSite id g).removeSite g = v.tag t := by
    simp [Tag.addSite,Tag.removeSite]
  have hbit : (v.tagIds g).getLsbD id = false := by
    rw [h.masked g hg id,hfree]
    rfl
  have hids : (v.tagIds g ||| tagIdToValue id) &&& ~~~tagIdToValue id = v.tagIds g := by
    refine BitVec.eq_of_getLsbD_eq (fun i hi => ?_)
    rw [BitVec.getLsbD_and,BitVec.getLsbD_or,BitVec.getLsbD_not,getLsbD_tagIdToValue hid]
    by_cases hii : i = id
    · simp [hii,hbit]
    · simp [hii,hi]
  simp only [Tagging.attach,Tagging.setEntry,Tagging.detach,Tagging.clearEntry,Tagging.mk.injEq,
    Function.update_self,Function.update_idem,hsites,hids,List.isEmpty_iff,true_and,and_true]
  refine ⟨Function.update_eq_self g v.tagIds,?_,Function.update_eq_self t v.tag⟩
  rw [← hfree,Function.update_eq_self,Function.update_eq_self]

end Tagging

namespace Daemon

open Tagging Lightsd.Core

variable {d : Daemon} {t : TagRef}

/-- Giving up one id of a listed tag. -/
theorem tagging_deallocateTagId (h : d.tagging.Sound) {s : Site} (ht : t ∈ d.tags)
    (hs : s ∈ (d.tag t).sites) :
    (d.deallocateTagId s.gw s.tagId).tagging = (d.tagging.detach t s.gw).clearEntry s.gw s.tagId := by
  obtain ⟨hg,hentry⟩ : s.gw ∈ d.gateways ∧ (d.gw s.gw).tags s.tagId = some t := h.site_entry ht hs
  have hid : s.tagId < maxTags := h.id_lt hg hentry
  have hbit : hasTagId (d.gw s.gw).tagIds s.tagId = true := by
    have hiff : hasTagId (d.gw s.gw).tagIds s.tagId = ((d.gw s.gw).tags s.tagId).isSome := h.bit_iff hg hid
    simp [hiff,hentry]
  simp only [deallocateTagId,hbit,if_true,hentry]
  rw [tagging_clearTag,tagging_decref s.gw ht]

/-- What giving up all ids of a tag that had none at first leaves behind. -/
theorem undo_links {v w : Tagging} (hlinks : Links t v w) (hv : v.Sound) (ht : t ∈ v.tags)
    (hempty : (v.tag t).sites = []) :
    ((w.tag t).sites = [] ∧ w = v) ∨ (w.tag t).sites ≠ [] ∧ ∀ d : Daemon, d.tagging = w →
      ((d.tag t).sites.foldl (fun d site => d.deallocateTagId site.gw site.tagId) d).tagging =
        v.dropTag t := by
  induction hlinks with
  | refl => exact Or.inl ⟨hempty,rfl⟩
  | @tail u w hbefore hlink ih =>
    obtain ⟨hsound,-⟩ := Links.sound hbefore hv ht
    obtain ⟨hsound',hmem',-⟩ := Links.sound (hbefore.tail hlink) hv ht
    cases hlink with
    | @mk g id hg hid hnew hfree =>
      have hsites : (((u.attach t g id).setEntry g id t).tag t).sites = ⟨id,g⟩ :: (u.tag t).sites := by
        simp [Tagging.attach,Tagging.setEntry,Tag.addSite]
      refine Or.inr ⟨by simp [hsites],fun d hd => ?_⟩
      have hdsites : (d.tag t).sites = ⟨id,g⟩ :: (u.tag t).sites := by
        rw [← hsites,← hd]
        rfl
      have hhead : (d.deallocateTagId g id).tagging =
          { u with tags := if (u.tag t).sites = [] then u.tags.erase t else u.tags } := by
        have hstep := tagging_deallocateTagId (d := d) (t := t) (s := ⟨id,g⟩) (hd ▸ hsound')
          (show t ∈ d.tagging.tags from hd ▸ hmem') (by simp [hdsites])
        rw [hd] at hstep
        exact hstep.trans (unlink_link hsound t hg hid hfree)
      rw [hdsites,List.foldl_cons]
      rcases ih with ⟨hnil,rfl⟩ | ⟨hne,hrest⟩
      · simp only [hnil,List.foldl_nil,hhead,if_true]
        rfl
      · rw [if_neg hne] at hhead
        have hsame : (u.tag t).sites = ((d.deallocateTagId g id).tag t).sites := by
          have htag : (d.deallocateTagId g id).tag = u.tag := congrArg Tagging.tag hhead
          rw [htag]
        rw [hsame]
        exact hrest _ hhead

theorem abandonTag_new {w : Tagging} (hlinks : Links t w d.tagging) (hw : w.Sound) (ht : t ∈ w.tags)
    (hempty : (w.tag t).sites = []) : (d.abandonTag t).tagging = w.dropTag t := by
  unfold abandonTag
  rcases undo_links hlinks hw ht hempty with ⟨hnil,heq⟩ | ⟨hne,hundo⟩
  · have hsites : (d.tag t).sites = [] := hnil
    simp only [hsites,List.isEmpty_nil,if_true]
    rw [tagging_deallocateTag hsites,heq]
  · have hsites : (d.tag t).sites ≠ [] := hne
    simp only [List.isEmpty_iff,if_neg hsites]
    exact hundo d rfl

/-- A tag that is abandoned is freed, whether it is new or not. -/
theorem freed_deallocateTagIds {sites : List Site} (h : d.tagging.Sound) (ht : t ∈ d.tags)
    (hsites : (d.tag t).sites = sites) (hne : sites ≠ []) :
    t ∉ (sites.foldl (fun d site => d.deallocateTagId site.gw site.tagId) d).tags := by
  induction sites generalizing d with
  | nil => exact (hne rfl).elim
  | cons s sites ih =>
    have hs : s ∈ (d.tag t).sites := by simp [hsites]
    have hview := tagging_deallocateTagId h ht hs
    have hrest : ((d.tag t).removeSite s.gw).sites = sites := by simp [Tag.removeSite,hsites]
    have htags : (d.deallocateTagId s.gw s.tagId).tags =
        if sites.isEmpty then d.tags.erase t else d.tags := by
      have hproj : (d.deallocateTagId s.gw s.tagId).tags = _ := congrArg Tagging.tags hview
      rw [hproj,← hrest]
      rfl
    rw [List.foldl_cons]
    by_cases hlast : sites = []
    · subst hlast
      simp only [List.foldl_nil,htags,List.isEmpty_nil,if_true]
      exact h.tags_nodup.not_mem_erase
    · obtain ⟨hg,hentry⟩ := h.site_entry ht hs
      have hsound : (d.deallocateTagId s.gw s.tagId).tagging.Sound := by
        rw [hview]
        exact h.unlink hg (h.id_lt hg hentry) hentry
      refine ih hsound ?_ ?_ hlast
      · rw [htags,if_neg (by simpa using hlast)]
        exact ht
      · have htag : (d.deallocateTagId s.gw s.tagId).tag t = _ := congrFun (congrArg Tagging.tag hview) t
        rw [htag,← hrest]
        simp [Tagging.clearEntry,Tagging.detach,tagging]

theorem freed_abandonTag (h : d.tagging.Sound) (ht : t ∈ d.tags) : t ∉ (d.abandonTag t).tags := by
  unfold abandonTag
  split
  · have htags : (d.deallocateTag t).tags = d.tags.erase t := by
      simp [deallocateTag,check_tags]
    rw [htags]
    exact h.tags_nodup.not_mem_erase
  · rename_i hne
    exact freed_deallocateTagIds h ht rfl (by simpa using hne)

end Daemon
end Lightsd.Lifx

namespace Lightsd.Core

open Lifx Lifx.Daemon Lifx.Tagging Runs

/-- The list of tags, the tags in it, and the ids and the packets handed to the gateways are
the same. -/
structure RegistryUnchanged (d d' : Daemon) : Prop where
  tags : d'.tags = d.tags
  tag : ∀ t ∈ d.tags, d'.tag t = d.tag t
  tagIds : ∀ g, (d'.gw g).tagIds = (d.gw g).tagIds
  table : ∀ g, (d'.gw g).tags = (d.gw g).tags
  enqueued : ∀ g, (d'.gw g).enqueued = (d.gw g).enqueued

/-- A tag command that fails for want of a free id leaves everything as it was exactly if
there was no tag with the label before. -/
theorem failed_tag_unchanged_iff {d : Daemon} (hd : Reachable d) (now : Time) (targets : List TargetName)
    (label : List UInt8) (hlabel : label.length < labelSize)
    (hfail : (d.protoTag now targets label).2 = .couldNotAllocateTag) :
    RegistryUnchanged d (d.protoTag now targets label).1 ↔ d.findTag label = none := by
  obtain ⟨d₁,t,⟨d₂,ok⟩,hprep,halloc,heq,hnew,hold⟩ :=
    protoTag_stages hd.partition hd.numbered hd.sound hlabel now targets
  rw [heq] at hfail ⊢
  cases ok with
  | true => cases hfail
  | false =>
    obtain ⟨hsound,hmem,-,htags,-⟩ := halloc.links.sound hprep.sound hprep.mem
    change RegistryUnchanged d (d₂.abandonTag t) ↔ _
    constructor
    · intro hsame
      cases hfind : d.findTag label with
      | none => rfl
      | some t' =>
        obtain ⟨rfl,rfl⟩ := hold t' hfind
        have hlisted : t ∈ (d₂.abandonTag t).tags := hsame.tags ▸ hprep.mem
        exact (freed_abandonTag hsound hmem hlisted).elim
    · intro hnone
      obtain ⟨hview,rfl⟩ := hnew hnone
      have hempty : (d₁.tagging.tag d.nextTag).sites = [] := by
        rw [hview]
        simp [Tagging.newTag,tagging]
      have hend := abandonTag_new halloc.links hprep.sound hprep.mem hempty
      rw [hview] at hend
      have hbox : (d₂.abandonTag d.nextTag).outbox = d.outbox :=
        (outbox_tags.abandonTag d₂ d.nextTag).trans (halloc.outbox.trans hprep.outbox)
      refine ⟨?_,fun t ht => ?_,fun g => ?_,fun g => ?_,fun g => ?_⟩
      · have hproj : (d₂.abandonTag d.nextTag).tags = _ := congrArg Tagging.tags hend
        simpa [Tagging.newTag,Tagging.dropTag,tagging] using hproj
      · have hproj : (d₂.abandonTag d.nextTag).tag t = _ := congrFun (congrArg Tagging.tag hend) t
        have hne : t ≠ d.nextTag := (hd.numbered.lt t ht).ne
        simpa [Tagging.newTag,Tagging.dropTag,tagging,hne] using hproj
      · exact congrFun (congrArg Tagging.tagIds hend) g
      · exact congrFun (congrArg Tagging.table hend) g
      · have hqueue : ((d₂.abandonTag d.nextTag).gw g).queuePart = (d.gw g).queuePart :=
          congrFun (congrArg Prod.snd hbox) g
        have hlog := congrArg Gateway.enqueued hqueue
        exact hlog

/-- A gateway with a bulb that knows a label for each of its ids, and a second one that
knows another label. -/
def crowdedRun : List Event :=
  lampsRun [[0,0,0,0,0,0,0,0]] ++
    (List.range maxTags).map (fun id => .gatewayReceive 0 3
      (.sent [1] .allDevices .tagLabels
        (ByteOrder.bytes 8 (2 ^ id) ++ [.ofNat (id + 1)] ++ List.replicate 31 0)) {}) ++
    [.broadcastReceive 4 (.sent [2] .allDevices .panGateway (List.replicate 5 0)) {},
     .gatewayReceive 1 5 (.sent [2] .allDevices .tagLabels (labelPayload 1 [200])) {}]

def crowded : Daemon := daemonSystem.exec (started 7) crowdedRun

theorem crowded_spec :
    (daemonSystem.Legal (started 7) crowdedRun ∧ crowded.faults = []) ∧
    (crowded.findTag [201] = none ∧ (crowded.protoTag 6 [[42]] [201]).2 = .couldNotAllocateTag) ∧
    crowded.findTag [200] = some 64 ∧ (crowded.gw 1).tags 0 = some 64 ∧
    (crowded.protoTag 6 [[42]] [200]).2 = .couldNotAllocateTag ∧
    ((crowded.protoTag 6 [[42]] [200]).1.gw 1).tags 0 = none := by
  decide +kernel

theorem reachable_crowded : Reachable crowded := ⟨7,crowdedRun,crowded_spec.1.1,rfl,crowded_spec.1.2⟩

theorem failed_tag_unchanged_crowded :
    (crowded.protoTag 6 [[42]] [201]).2 = .couldNotAllocateTag ∧
    RegistryUnchanged crowded (crowded.protoTag 6 [[42]] [201]).1 :=
  ⟨crowded_spec.2.1.2,(failed_tag_unchanged_iff reachable_crowded 6 [[42]] [201] (by decide)
    crowded_spec.2.1.2).mpr crowded_spec.2.1.1⟩

/-- The second gateway has nothing to do with the command, and loses its tag. -/
theorem failed_tag_frees_tag :
    Reachable crowded ∧ (crowded.protoTag 6 [[42]] [200]).2 = .couldNotAllocateTag ∧
    (crowded.gw 1).tags 0 = some 64 ∧ ((crowded.protoTag 6 [[42]] [200]).1.gw 1).tags 0 = none ∧
    ¬ RegistryUnchanged crowded (crowded.protoTag 6 [[42]] [200]).1 := by
  obtain ⟨-,-,-,hbefore,hreply,hafter⟩ := crowded_spec
  refine ⟨reachable_crowded,hreply,hbefore,hafter,fun hsame => ?_⟩
  rw [hsame.table 1,hbefore] at hafter
  cases hafter
end Lightsd.Core
