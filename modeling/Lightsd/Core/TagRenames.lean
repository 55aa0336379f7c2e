import Lightsd.Core.FailedTag
import Lightsd.Lifx.LabelReads

/-! # Label packets and the tables of a gateway

A label packet that names one id says what the label of this id is from now on; an empty
label deletes the id. The handler gives an id without a label the one from the packet and
deletes ids as told, but it never renames an id: a packet with another label for an id the
gateway knows is dropped.
-/
namespace Lightsd.Lifx

namespace Tagging

/-- The label a gateway has for an id. -/
def idLabel (v : Tagging) (g : GatewayRef) (id : ℕ) : Option (List UInt8) :=
  (v.table g id).map (fun t => (v.tag t).label)

/-- The table of a gateway says of one id what a label packet said, and of all others what
it said before. -/
structure Follows (v w : Tagging) (g : GatewayRef) (id : ℕ) (label : List UInt8) : Prop where
  deleted : label = [] → (w.tagIds g).getLsbD id = false ∧ w.table g id = none
  named : label ≠ [] → (w.tagIds g).getLsbD id = true ∧ w.idLabel g id = some label
  others : ∀ i, i ≠ id → (w.tagIds g).getLsbD i = (v.tagIds g).getLsbD i ∧ w.table g i = v.table g i ∧
    w.idLabel g i = v.idLabel g i

section Views
variable {v : Tagging} {g : GatewayRef} {id : ℕ} {t : TagRef} {label : List UInt8}

theorem follows_same (h : v.Sound) (hg : g ∈ v.gateways) :
    v.Follows v g id label ↔ if label = [] then v.table g id = none else v.idLabel g id = some label := by
  have hbit := h.masked g hg id
  constructor
  · intro hfollows
    split
    · rename_i hempty
      exact (hfollows.deleted hempty).2
    · rename_i hne
      exact (hfollows.named hne).2
  · intro hsame
    refine ⟨fun hempty => ?_,fun hne => ?_,fun _ _ => ⟨rfl,rfl,rfl⟩⟩
    · rw [if_pos hempty] at hsame
      exact ⟨by simp [hbit,hsame],hsame⟩
    · rw [if_neg hne] at hsame
      obtain ⟨t,ht,-⟩ := Option.map_eq_some_iff.mp hsame
      exact ⟨by simp [hbit,ht],hsame⟩

theorem follows_clearEntry (hid : id < maxTags) :
    v.Follows ((v.detach t g).clearEntry g id) g id [] := by
  refine ⟨fun _ => ⟨?_,?_⟩,fun hne => absurd rfl hne,fun i hi => ?_⟩
  · simp only [clearEntry,detach,Function.update_self,BitVec.getLsbD_and,BitVec.getLsbD_not,
      getLsbD_tagIdToValue hid]
    simp
  · simp [clearEntry,detach]
  · have htable : ((v.detach t g).clearEntry g id).table g i = v.table g i := by
      simp [clearEntry,detach,hi]
    refine ⟨?_,htable,?_⟩
    · simp only [clearEntry,detach,Function.update_self,BitVec.getLsbD_and,BitVec.getLsbD_not,
        getLsbD_tagIdToValue hid]
      by_cases hlt : i < 64
      · simp [hlt,hi]
      · simp [BitVec.getLsbD_of_ge _ _ (not_lt.mp hlt)]
    · rw [idLabel,idLabel,htable]
      refine Option.map_congr (fun t' _ => ?_)
      by_cases ht : t' = t
      · subst ht
        simp [clearEntry,detach,Tag.removeSite]
      · simp [clearEntry,detach,ht]

theorem follows_setEntry (h : v.Sound) (hg : g ∈ v.gateways) (hid : id < maxTags) (hne : label ≠ []) :
    v.Follows (((v.findOrNew label).1.attach (v.findOrNew label).2 g id).setEntry g id
      (v.findOrNew label).2) g id label := by
  obtain ⟨-,-,htl,htable,hmask,-,hkept⟩ := h.findOrNew label
  generalize v.findOrNew label = w at htl htable hmask hkept
  obtain ⟨w,t⟩ := w
  simp only at htl htable hmask hkept
  refine ⟨fun hempty => absurd hempty hne,fun _ => ⟨?_,?_⟩,fun i hi => ?_⟩
  · simp only [setEntry,attach,Function.update_self,BitVec.getLsbD_or,getLsbD_tagIdToValue hid]
    simp
  · simp [idLabel,setEntry,attach,Tag.addSite,htl]
  · have hentry : ((w.attach t g id).setEntry g id t).table g i = v.table g i := by
      simp [setEntry,attach,hi,htable]
    refine ⟨?_,hentry,?_⟩
    · simp only [setEntry,attach,Function.update_self,BitVec.getLsbD_or,getLsbD_tagIdToValue hid,hmask]
      simp [hi]
    · rw [idLabel,idLabel,hentry]
      refine Option.map_congr (fun t' ht' => ?_)
      have hmem : t' ∈ v.tags := ((h.entries g hg i t').mp ht').1
      by_cases ht : t' = t
      · subst ht
        simp [setEntry,attach,Tag.addSite,hkept t' hmem]
      · simp [setEntry,attach,ht,hkept t' hmem]

end Views
end Tagging

namespace Daemon

theorem foreachTagId_tagIdToValue {id : ℕ} (hid : id < maxTags) : foreachTagId (tagIdToValue id) = [id] := by
  refine List.perm_singleton.mp ((List.perm_ext_iff_of_nodup (foreachTagId_nodup _)
    (List.nodup_singleton id)).mpr (fun i => ?_))
  rw [mem_foreachTagId,getLsbD_tagIdToValue hid,List.mem_singleton]
  simp [eq_comm]

section LabelPacket
variable {d : Daemon} {g : GatewayRef} {id : ℕ} {label : List UInt8} {env : Env}

theorem follows_emptyLabel (h : d.tagging.Sound) (hg : g ∈ d.gateways) (hid : id < maxTags) :
    d.tagging.Follows (handleTagLabel g env [] d id).tagging g id [] := by
  cases hentry : (d.gw g).tags id with
  | none =>
    have hsame : handleTagLabel g env [] d id = d := by simp [handleTagLabel,hentry]
    rw [hsame]
    exact (Tagging.follows_same h hg).mpr hentry
  | some t =>
    have hdel : handleTagLabel g env [] d id = d.deallocateTagId g id := by simp [handleTagLabel,hentry]
    obtain ⟨ht,hsite⟩ := (h.entries g hg id t).mp hentry
    have hview := tagging_deallocateTagId h ht hsite
    rw [hdel,hview]
    exact Tagging.follows_clearEntry hid

/-- An id the gateway does not know gets the label where memory allows. -/
theorem follows_newLabel (h : d.tagging.Sound) (hg : g ∈ d.gateways) (hid : id < maxTags)
    (hlabel : label.length < labelSize) (hne : label ≠ []) (hentry : (d.gw g).tags id = none)
    (hfree : d.tagging.LabelFree g label) :
    d.tagging.Follows (handleTagLabel g env label d id).tagging g id label ↔
      env.siteOk id = true ∧ (d.findTag label = none → env.tagOk id = true) := by
  have hbit : hasTagId (d.gw g).tagIds id = false := (hasTagId_of_none h hg hid).mpr hentry
  have hstep : handleTagLabel g env label d id =
      (d.allocateTagId g id label (env.tagOk id) (env.siteOk id)).1 := by simp [handleTagLabel,hne]
  rw [hstep]
  by_cases hmemory : env.siteOk id = true ∧ (d.findTag label = none → env.tagOk id = true)
  · refine iff_of_true ?_ hmemory
    obtain ⟨hview,-⟩ := tagging_allocateTagId h hg hid hlabel hentry (h.findOrNew_free hg hfree)
    rw [allocateTagId_enough hlabel hmemory.1 hmemory.2,hview]
    exact Tagging.follows_setEntry h hg hid hne
  · refine iff_of_false (fun hfollows => ?_) hmemory
    have hfail : env.siteOk id = false ∨ d.findTag label = none ∧ env.tagOk id = false := by
      simp only [not_and_or,Classical.not_imp,Bool.not_eq_true] at hmemory
      exact hmemory
    obtain ⟨-,heq⟩ := allocateTagId_fails hbit hlabel
      (fun t hfind => findSite_none_of_labelFree h hg hfree hfind) hfail
    have hnone : (d.allocateTagId g id label (env.tagOk id) (env.siteOk id)).1.tagging.table g id = none := by
      rcases heq with heq | ⟨-,heq⟩
      · rw [heq]
        exact hentry
      · rw [heq]
        exact hentry
    have hnamed := (hfollows.named hne).2
    simp [Tagging.idLabel,hnone] at hnamed

end LabelPacket
end Daemon
end Lightsd.Lifx

namespace Lightsd.Core

open Lifx Lifx.Daemon

/-- The table of a gateway follows a label packet exactly if the packet deletes the id or
repeats its label, or if the id had none and there is memory for the new one. -/
theorem table_follows_iff {d : Daemon} (hd : Reachable d) {g : GatewayRef} (hg : g ∈ d.gateways)
    (env : Env) (buf : Buffer) {id : ℕ} (hid : id < maxTags)
    (hmask : (decodeTagLabels buf).tags = tagIdToValue id)
    (hunused : ∀ i, i ≠ id → d.tagging.idLabel g i ≠ some (cString (decodeTagLabels buf).label.toList)) :
    d.tagging.Follows (d.handleTagLabels g env (decodeTagLabels buf)).tagging g id
        (cString (decodeTagLabels buf).label.toList) ↔
      cString (decodeTagLabels buf).label.toList = [] ∨
      d.tagging.idLabel g id = some (cString (decodeTagLabels buf).label.toList) ∨
      (d.gw g).tags id = none ∧ env.siteOk id = true ∧
        (d.findTag (cString (decodeTagLabels buf).label.toList) = none → env.tagOk id = true) := by
  have h := hd.sound
  have hlabel := label_decodeTagLabels buf
  rw [handleTagLabels,hmask,foreachTagId_tagIdToValue hid,List.foldl_cons,List.foldl_nil]
  generalize cString (decodeTagLabels buf).label.toList = label at hlabel hunused
  by_cases hempty : label = []
  · subst hempty
    exact iff_of_true (follows_emptyLabel h hg hid) (Or.inl rfl)
  cases hentry : (d.gw g).tags id with
  | some t =>
    have hiff : hasTagId (d.gw g).tagIds id = ((d.gw g).tags id).isSome := h.bit_iff hg hid
    have hbit : hasTagId (d.gw g).tagIds id = true := by simp [hiff,hentry]
    rw [handleTagLabel_known hbit (Or.inl hempty),Tagging.follows_same h hg,if_neg hempty]
    simp [hempty]
  | none =>
    have hlabelFree : d.tagging.LabelFree g label := by
      intro i t ht htl
      by_cases hi : i = id
      · subst hi
        have hsome : (d.gw g).tags i = some t := ht
        rw [hentry] at hsome
        cases hsome
      · exact hunused i hi (by simp [Tagging.idLabel,ht,htl])
    have hnoLabel : d.tagging.idLabel g id = none := Option.map_eq_none_iff.mpr hentry
    rw [follows_newLabel h hg hid hlabel hempty hentry hlabelFree]
    simp [hempty,hnoLabel]

/-- Only the ids of the protocol have labels. -/
theorem unused_of_lt {d : Daemon} (hd : Reachable d) {g : GatewayRef} (hg : g ∈ d.gateways) {id : ℕ}
    {label : List UInt8}
    (h : ∀ i < maxTags, i ≠ id → d.tagging.idLabel g i ≠ some label) :
    ∀ i, i ≠ id → d.tagging.idLabel g i ≠ some label := by
  intro i hi
  by_cases hlt : i < maxTags
  · exact h i hlt hi
  · simp [Tagging.idLabel,hd.sound.table_none hg (not_lt.mp hlt)]

def oneLabelRun : List Event := labelsRun [labelPayload 1 [120]]

/-- A gateway that knows id 0 by one label. -/
def oneLabel : Daemon := daemonSystem.exec (started 7) oneLabelRun

theorem reachable_oneLabel : Reachable oneLabel := ⟨7,oneLabelRun,by decide +kernel,rfl,by decide +kernel⟩

def labelBuffer (mask : UInt8) (label : List UInt8) : Buffer :=
  fun i => (labelPayload mask label).getD i 0

theorem table_follows_oneLabel :
    oneLabel.tagging.idLabel 0 0 = some [120] ∧
    oneLabel.tagging.Follows (oneLabel.handleTagLabels 0 {} (decodeTagLabels (labelBuffer 2 [121]))).tagging 0 1
      (cString (decodeTagLabels (labelBuffer 2 [121])).label.toList) := by
  have hg : (0 : GatewayRef) ∈ oneLabel.gateways := by decide +kernel
  exact ⟨by decide +kernel,(table_follows_iff reachable_oneLabel hg {} (labelBuffer 2 [121]) (by decide)
    (by decide +kernel) (unused_of_lt reachable_oneLabel hg (by decide +kernel))).mpr
    (Or.inr (Or.inr (by decide +kernel)))⟩

/-- Another controller renames id 0, and the gateway keeps the old label. -/
theorem rename_dropped :
    Reachable oneLabel ∧ 0 ∈ oneLabel.gateways ∧
    (decodeTagLabels (labelBuffer 1 [121])).tags = tagIdToValue 0 ∧
    cString (decodeTagLabels (labelBuffer 1 [121])).label.toList = [121] ∧
    (∀ i, i ≠ 0 → oneLabel.tagging.idLabel 0 i ≠ some [121]) ∧
    (oneLabel.handleTagLabels 0 {} (decodeTagLabels (labelBuffer 1 [121]))).tagging.idLabel 0 0 = some [120] ∧
    ¬ oneLabel.tagging.Follows (oneLabel.handleTagLabels 0 {} (decodeTagLabels (labelBuffer 1 [121]))).tagging 0 0
      [121] := by
  have hg : (0 : GatewayRef) ∈ oneLabel.gateways := by decide +kernel
  have hkept : (oneLabel.handleTagLabels 0 {} (decodeTagLabels (labelBuffer 1 [121]))).tagging.idLabel 0 0 =
      some [120] := by decide +kernel
  refine ⟨reachable_oneLabel,hg,by decide +kernel,by decide +kernel,
    unused_of_lt reachable_oneLabel hg (by decide +kernel),hkept,fun hfollows => ?_⟩
  have hnamed := (hfollows.named (by simp)).2
  rw [hkept] at hnamed
  simp at hnamed

end Lightsd.Core
