import Lightsd.Core.Reachable

/-! # Tags without sites

A tag is listed because some gateway knows it, except that the tag command creates its tag
before it looks at the bulbs. A command for an unknown label that selects no bulb leaves
behind a tag that no gateway knows and that nothing will ever free. Every other event leaves
no such tag.
-/
namespace Lightsd.Lifx.Daemon

open Tagging Lightsd.Core

section NewTag
variable {d : Daemon} {label : List UInt8}

theorem findTag_allocateTag (hlabel : label.length < labelSize) :
    (d.allocateTag label).findTag label = some d.nextTag := by
  have hview := tagging_allocateTag (d := d) hlabel
  have htags : (d.allocateTag label).tags = d.nextTag :: d.tags := congrArg Tagging.tags hview
  have htag : (d.allocateTag label).tag = _ := congrArg Tagging.tag hview
  simp [findTag,htags,htag,Tagging.newTag,tagging]

theorem sites_allocateTag (hlabel : label.length < labelSize) :
    ((d.allocateTag label).tag d.nextTag).sites = [] := by
  have hview := tagging_allocateTag (d := d) hlabel
  have htag : (d.allocateTag label).tag = _ := congrArg Tagging.tag hview
  simp [htag,Tagging.newTag,tagging]

/-- No gateway knows a tag that has just been created. -/
theorem getTagId_newTag {d₁ : Daemon} (hn : d.tagging.Numbered) (hview : d₁.tagging = d.tagging.newTag label)
    (g : GatewayRef) : (d₁.gw g).getTagId d.nextTag = none := by
  refine List.find?_eq_none.mpr (fun id _ => ?_)
  have hentry : (d₁.gw g).tags id = (d.gw g).tags id := congrFun₂ (congrArg Tagging.table hview) g id
  simp only [decide_eq_true_eq,hentry]
  intro hsome
  exact absurd (hn.entry_lt g id _ hsome) (lt_irrefl _)

/-- The first id a new tag is given. -/
theorem tagging_allocateFirst (hlabel : label.length < labelSize) {g : GatewayRef} {id : ℕ}
    (hbit : hasTagId ((d.allocateTag label).gw g).tagIds id = false) :
    ((d.allocateTag label).allocateTagId g id label true true).1.tagging =
      ((d.tagging.newTag label).attach d.nextTag g id).setEntry g id d.nextTag ∧
    ((d.allocateTag label).allocateTagId g id label true true).2 = id := by
  have hneg : (id : ℤ) ≠ -1 := by omega
  have hsite : findSite ((d.allocateTag label).tag d.nextTag).sites g = none := by
    simp [sites_allocateTag hlabel,findSite]
  have hattach : ((d.allocateTag label).modifyTag d.nextTag (·.addSite id g)).tagging =
      (d.allocateTag label).tagging.attach d.nextTag g id := rfl
  simp only [allocateTagId,if_neg hneg,Int.toNat_natCast,hbit,Bool.false_eq_true,if_false,incref,
    check_short _ hlabel,findOrAllocateTag,findTag_allocateTag hlabel,addSite,hsite,if_true]
  rw [tagging_setTag,hattach,tagging_allocateTag hlabel]
  exact ⟨rfl,trivial⟩

end NewTag

/-- With a known label or a bulb to tag, the tag command ends with no more than changes of
the registry. -/
theorem changes_protoTag_of_bulb {d : Daemon} {label : List UInt8} (hn : d.tagging.Numbered)
    (hlabel : label.length < labelSize) (now : Time) (targets : List TargetName)
    (h : (d.findTag label).isSome = true ∨ d.targetsToDevices targets ≠ []) :
    Changes d.tagging (d.protoTag now targets label).1.tagging := by
  cases hfind : d.findTag label with
  | some t =>
    have hchanges := changes_protoTag hlabel d now targets
    have hsame : (d.tagging.findOrNew label).1 = d.tagging := by
      have hview : d.tagging.tags.find? (fun t => (d.tagging.tag t).label = label) = some t := hfind
      simp [findOrNew,hview]
    rwa [hsame] at hchanges
  | none =>
    have hbulbs : d.targetsToDevices targets ≠ [] := by simpa [hfind] using h
    have hnew : ∀ t ∈ d.tags, (d.tag t).label ≠ label := by simpa [findTag] using hfind
    rw [protoTag_eq,hfind]
    simp only [findOrAllocateTag,hfind,if_true,Option.getD_none]
    cases hbs : d.targetsToDevices targets with
    | nil => exact (hbulbs hbs).elim
    | cons b bs =>
      unfold allocateOnGateways
      simp only [getTagId_newTag hn (tagging_allocateTag hlabel)]
      generalize ((d.allocateTag label).bulb b).gw = g
      rcases allocateTagId_any (d.allocateTag label) g label with heq | ⟨id,hid,hbit,heq⟩
      · simp only [heq,if_true,finishTag,abandonTag,sites_allocateTag hlabel,List.isEmpty_nil]
        rw [tagging_deallocateTag (sites_allocateTag hlabel),tagging_allocateTag hlabel]
        exact .single (.discard d.tagging hlabel)
      · refine Relation.ReflTransGen.trans ?_ (changes_finishTag now _ label _ _)
        obtain ⟨hview,hret⟩ := tagging_allocateFirst (d := d) hlabel hbit
        have hne : (id : ℤ) ≠ -1 := by omega
        have hfirst : Changes d.tagging
            ((d.allocateTag label).allocateTagId g id label true true).1.tagging := by
          rw [hview]
          exact (Changes.single (.introduce d.tagging g id hlabel hnew)).tail
            (.setEntry _ g id List.mem_cons_self)
        simp only [heq,hret,if_neg hne]
        exact hfirst.trans (changes_allocateOnGateways hlabel bs _)

/-- A new tag for no bulb is left without a site. -/
theorem orphan_protoTag {d : Daemon} {label : List UInt8} (hlabel : label.length < labelSize) (now : Time)
    (targets : List TargetName) (hfind : d.findTag label = none)
    (hbulbs : d.targetsToDevices targets = []) :
    ¬ (d.protoTag now targets label).1.tagging.NoOrphans := by
  intro h
  have hview := tagging_allocateTag (d := d) hlabel
  have hend : (d.protoTag now targets label).1 = d.allocateTag label := by
    simp [protoTag_eq,hfind,findOrAllocateTag,hbulbs,allocateOnGateways,finishTag,sendTagLabels,
      sites_allocateTag hlabel]
  rw [hend,hview] at h
  exact h d.nextTag List.mem_cons_self (by simp [Tagging.newTag,tagging])

end Lightsd.Lifx.Daemon

namespace Lightsd.Core

open Lifx Lifx.Daemon Lifx.Tagging Runs

/-- A tag command is for a label in use or selects a bulb. -/
def Event.TagsSomething (d : Daemon) : Event → Prop
  | command _ (.tag targets label) => (d.findTag label).isSome = true ∨ d.targetsToDevices targets ≠ []
  | _ => True

/-- Every tag has a site and, unless an assertion has failed, is in the table of a gateway. -/
structure TagsKnown (d : Daemon) : Prop where
  sites : ∀ t ∈ d.tags, (d.tag t).sites ≠ []
  gateway : d.faults = [] → ∀ t ∈ d.tags, ∃ g ∈ d.gateways, ∃ id, (d.gw g).tags id = some t

theorem tagsKnown_of_noOrphans {d : Daemon} (hr : Regular d) (h : d.tagging.NoOrphans) : TagsKnown d where
  sites := h
  gateway := by
    intro hfaults t ht
    have hok : d.tagging.ok := by
      intro f hf
      simp [hfaults] at hf
    obtain ⟨s,hs⟩ := List.exists_mem_of_ne_nil _ (h t ht)
    obtain ⟨hg,hentry⟩ := (hr.sound hok).site_entry ht hs
    exact ⟨s.gw,hg,s.tagId,hentry⟩

/-- What one event does to a registry whose tags all have sites. -/
theorem Event.noOrphans_apply {d : Daemon} {e : Event} (hn : d.tagging.Numbered) (ho : d.tagging.NoOrphans)
    (hlabel : ∀ label, e.tagLabel? = some label → label.length < labelSize) :
    (e.apply d).tagging.Numbered ∧ ((e.apply d).tagging.NoOrphans ↔ e.TagsSomething d) := by
  cases hcmd : e.tagLabel? with
  | none =>
    have hchanges := Event.changes d hcmd
    have htags : e.TagsSomething d := by
      unfold Event.TagsSomething
      split
      · cases hcmd
      · trivial
    exact ⟨hn.changes hchanges,fun _ => htags,fun _ => ho.changes hn hchanges⟩
  | some label =>
    have hshort := hlabel label hcmd
    obtain ⟨now,targets,rfl⟩ := Event.eq_of_tagLabel? hcmd
    refine ⟨(numbered_findOrNew hn hshort).changes (changes_protoTag hshort d now targets),?_,?_⟩
    · intro h
      by_contra hnot
      simp only [Event.TagsSomething,not_or,not_not,Bool.not_eq_true,Option.isSome_eq_false_iff,
        Option.isNone_iff_eq_none] at hnot
      exact orphan_protoTag hshort now targets hnot.1 hnot.2 h
    · exact fun h => ho.changes hn (changes_protoTag_of_bulb hn hshort now targets h)

theorem tagsKnown_run {d : Daemon} {es : List Event} (hr : Regular d) (hn : d.tagging.Numbered)
    (ho : d.tagging.NoOrphans) (hl : daemonSystem.Legal d es)
    (hlabels : ∀ e ∈ es, ∀ label, e.tagLabel? = some label → label.length < labelSize) :
    daemonSystem.Always TagsKnown d es ↔
      (daemonSystem.restrict (fun d e => e.TagsSomething d)).Legal d es := by
  induction es generalizing d with
  | nil => exact ⟨fun _ => trivial,fun _ => System.always_nil.mpr (tagsKnown_of_noOrphans hr ho)⟩
  | cons e es ih =>
    obtain ⟨he,hl⟩ := hl
    obtain ⟨hn',hiff⟩ := Event.noOrphans_apply hn ho (hlabels e List.mem_cons_self)
    have hlabels' : ∀ e ∈ es, ∀ label, e.tagLabel? = some label → label.length < labelSize :=
      fun x hx => hlabels x (List.mem_cons_of_mem _ hx)
    rw [System.always_cons]
    constructor
    · rintro ⟨-,hall⟩
      have ho' : (e.apply d).tagging.NoOrphans := hall.head.sites
      exact ⟨⟨he,hiff.mp ho'⟩,(ih (hr.step he) hn' ho' hl hlabels').mp hall⟩
    · rintro ⟨⟨-,htags⟩,hlegal⟩
      exact ⟨tagsKnown_of_noOrphans hr ho,
        (ih (hr.step he) hn' (hiff.mpr htags) hl hlabels').mpr hlegal⟩

/-- No tag is ever left without a site exactly along the runs in which every tag command
is for a label in use or selects at least one bulb. -/
theorem tags_known_iff (clientId : UInt32) (es : List Event)
    (hl : daemonSystem.Legal (started clientId) es)
    (hlabels : ∀ e ∈ es, ∀ label, e.tagLabel? = some label → label.length < labelSize) :
    daemonSystem.Always TagsKnown (started clientId) es ↔
      (daemonSystem.restrict (fun d e => e.TagsSomething d)).Legal (started clientId) es :=
  tagsKnown_run (regular_started clientId) (numbered_started clientId) nofun hl hlabels

/-- A gateway reports a label and forgets it. -/
def forgottenLabelRun : List Event := labelsRun [labelPayload 1 [120],labelPayload 1 []]

theorem tags_known_forgottenLabelRun :
    (daemonSystem.exec (started 7) (forgottenLabelRun.take 2)).tags = [0] ∧
    daemonSystem.Always TagsKnown (started 7) forgottenLabelRun := by
  refine ⟨by decide +kernel,(tags_known_iff 7 forgottenLabelRun (by decide +kernel) ?_).mpr ?_⟩
  · simp [forgottenLabelRun,labelsRun,Event.tagLabel?]
  · exact ⟨⟨trivial,trivial⟩,⟨by decide +kernel,trivial⟩,⟨by decide +kernel,trivial⟩,trivial⟩

/-- A client tags everything while no bulb is known. -/
def tagNothingRun : List Event := [.command 1 (.tag [[42]] [120])]

theorem orphan_tag_tagNothingRun :
    daemonSystem.Legal (started 7) tagNothingRun ∧
    (daemonSystem.exec (started 7) tagNothingRun).findTag [120] = some 0 ∧
    ((daemonSystem.exec (started 7) tagNothingRun).tag 0).sites = [] ∧
    ¬ daemonSystem.Always TagsKnown (started 7) tagNothingRun := by
  refine ⟨by decide +kernel,by decide +kernel,by decide +kernel,fun h => ?_⟩
  have hsites := h.last.sites 0 (by decide +kernel)
  exact hsites (by decide +kernel)

end Lightsd.Core
