import Lightsd.Lifx.DeviceTransitions
import Lightsd.Lifx.TagRegistry

/-! # Opening and closing in the registry of tags

Opening and closing gateways and giving up tag ids keep the registry of tags sound.
-/
namespace Lightsd.Lifx

namespace Tagging

theorem Masked.setEntry {v : Tagging} (h : v.Masked) {g : GatewayRef} {id : ℕ} (t : TagRef)
    (hid : id < maxTags) : (v.setEntry g id t).Masked := by
  intro g' hg' id'
  have hold := h g' hg' id'
  simp only [Tagging.setEntry]
  by_cases hgg : g' = g
  · subst hgg
    rw [Function.update_self,Function.update_self,BitVec.getLsbD_or,getLsbD_tagIdToValue hid,hold]
    by_cases hii : id' = id
    · subst hii
      simp
    · simp [hii]
  · rw [Function.update_of_ne hgg,Function.update_of_ne hgg]
    exact hold

theorem Masked.clearEntry {v : Tagging} (h : v.Masked) {g : GatewayRef} {id : ℕ}
    (hid : id < maxTags) : (v.clearEntry g id).Masked := by
  intro g' hg' id'
  have hold := h g' hg' id'
  simp only [Tagging.clearEntry]
  by_cases hgg : g' = g
  · subst hgg
    rw [Function.update_self,Function.update_self,BitVec.getLsbD_and,BitVec.getLsbD_not,
      getLsbD_tagIdToValue hid,hold]
    by_cases hii : id' = id
    · subst hii
      simp
    · have hlt : (v.table g' id').isSome = true → id' < 64 :=
        fun hs => BitVec.lt_of_getLsbD (hold.trans hs)
      rw [Function.update_of_ne hii]
      cases hs : (v.table g' id').isSome with
      | false => simp
      | true => simp [hii,hlt hs]
  · rw [Function.update_of_ne hgg,Function.update_of_ne hgg]
    exact hold

namespace Sound

variable {v : Tagging} {g : GatewayRef} {id : ℕ} {t : TagRef}

theorem unlink (h : v.Sound) (hg : g ∈ v.gateways) (hid : id < maxTags)
    (he : v.table g id = some t) : ((v.detach t g).clearEntry g id).Sound where
  toLinked := h.toLinked.unlink hg he
  masked := Masked.clearEntry (v := v.detach t g) h.masked hid
  ok := h.ok

theorem link (h : v.Sound) (hg : g ∈ v.gateways) (hid : id < maxTags) (ht : t ∈ v.tags)
    (hnew : ∀ s ∈ (v.tag t).sites, s.gw ≠ g) (hfree : v.table g id = none) :
    ((v.attach t g id).setEntry g id t).Sound where
  toLinked := h.toLinked.link hg ht hnew hfree
  masked := Masked.setEntry (v := v.attach t g id) h.masked t hid
  ok := h.ok

theorem newTag (h : v.Sound) {label : List UInt8} (hnew : ∀ t ∈ v.tags, (v.tag t).label ≠ label) :
    (v.newTag label).Sound := ⟨h.toLinked.newTag hnew,h.masked,h.ok⟩

theorem dropTag (h : v.Sound) (hempty : (v.tag t).sites = []) : (v.dropTag t).Sound :=
  ⟨h.toLinked.dropTag hempty,h.masked,h.ok⟩

theorem openGateway (h : v.Sound) : v.openGateway.Sound := by
  refine ⟨h.toLinked.openGateway,?_,h.ok⟩
  intro g hg id
  simp only [Tagging.openGateway] at hg ⊢
  rcases List.mem_cons.mp hg with rfl | hg
  · simp
  · have hne : g ≠ v.nextGw := (h.gateways_lt g hg).ne
    rw [Function.update_of_ne hne,Function.update_of_ne hne]
    exact h.masked g hg id

theorem bit_iff (h : v.Sound) (hg : g ∈ v.gateways) (hid : id < maxTags) :
    hasTagId (v.tagIds g) id = (v.table g id).isSome := (hasTagId_eq hid).trans (h.masked g hg id)

theorem table_none (h : v.Sound) (hg : g ∈ v.gateways) (hid : maxTags ≤ id) : v.table g id = none := by
  have hbit := h.masked g hg id
  rw [BitVec.getLsbD_of_ge _ _ (show 64 ≤ id from hid)] at hbit
  exact Option.isNone_iff_eq_none.mp (by simpa using hbit.symm)

theorem id_lt (h : v.Sound) (hg : g ∈ v.gateways) {t : TagRef} (he : v.table g id = some t) : id < maxTags := by
  by_contra hid
  rw [h.table_none hg (not_lt.mp hid)] at he
  cases he

end Sound

end Tagging

namespace Daemon

open Tagging

theorem tagging_releaseTag {d : Daemon} {g : GatewayRef} {id : ℕ}
    (h : ∀ t, d.tagging.table g id = some t → t ∈ d.tags) :
    (releaseTag g d id).tagging = release g d.tagging id := by
  unfold releaseTag release
  have htable : d.tagging.table g id = (d.gw g).tags id := rfl
  rw [htable] at h ⊢
  cases he : (d.gw g).tags id with
  | none => rfl
  | some t => exact tagging_decref g (h t he)

theorem release_dropGateway (v : Tagging) (g : GatewayRef) (id : ℕ) :
    release g (v.dropGateway g) id = (release g v id).dropGateway g := by
  have htable : (v.dropGateway g).table g id = v.table g id := rfl
  unfold release
  rw [htable]
  cases v.table g id <;> rfl

/-- The loop that unlinks the tags of a gateway which has already left the list of
gateways. -/
theorem tagging_releaseTags {d d' : Daemon} {g : GatewayRef} (h : d.tagging.Sound)
    (hg : g ∈ d.gateways) (hd' : d'.tagging = d.tagging.dropGateway g) (n : ℕ) :
    ((List.range n).foldl (releaseTag g) d').tagging =
      ((List.range n).foldl (release g) d.tagging).dropGateway g ∧
    (Linked.hide ((List.range n).foldl (release g) d.tagging) g n).Linked ∧
    ((List.range n).foldl (release g) d.tagging).gateways = d.gateways ∧
    ((List.range n).foldl (release g) d.tagging).tagIds = d.tagging.tagIds ∧
    ((List.range n).foldl (release g) d.tagging).table = d.tagging.table ∧
    ((List.range n).foldl (release g) d.tagging).ok = d.tagging.ok := by
  induction n with
  | zero =>
    refine ⟨hd',h.toLinked.congr rfl rfl (fun g' _ => ?_) rfl rfl rfl,rfl,rfl,rfl,rfl⟩
    simp only [Linked.hide,List.range_zero,List.foldl_nil,not_lt_zero,if_false]
    exact congrFun (Function.update_eq_self g _) g'
  | succ n ih =>
    obtain ⟨hview,hlinked,hgws,hmask,htable,hok⟩ := ih
    rw [List.range_succ,List.foldl_append,List.foldl_append,List.foldl_cons,List.foldl_nil,
      List.foldl_cons,List.foldl_nil]
    generalize (List.range n).foldl (releaseTag g) d' = dₙ at hview
    generalize (List.range n).foldl (release g) d.tagging = v at hview hlinked hgws hmask htable hok
    obtain ⟨hnext,hlive⟩ := Linked.release_hidden hlinked (hgws ▸ hg)
    have hkeep : (release g v n).gateways = v.gateways ∧ (release g v n).tagIds = v.tagIds ∧
        (release g v n).table = v.table ∧ (release g v n).ok = v.ok := by
      unfold release
      cases v.table g n <;> exact ⟨rfl,rfl,rfl,rfl⟩
    refine ⟨?_,hnext,hkeep.1.trans hgws,hkeep.2.1.trans hmask,hkeep.2.2.1.trans htable,
      hkeep.2.2.2.trans hok⟩
    rw [← release_dropGateway,← hview]
    refine tagging_releaseTag (fun t ht => ?_)
    have htags : dₙ.tags = v.tags := congrArg Tagging.tags hview
    rw [hview] at ht
    rw [htags]
    exact hlive t ht

theorem tagging_unlistGateway (d : Daemon) (g : GatewayRef) :
    ({ d.statsAdd .gateways (-1) with
      gateways := (d.statsAdd .gateways (-1)).gateways.erase g } : Daemon).tagging =
      d.tagging.dropGateway g := by
  have herase : ∀ d : Daemon, ({ d with gateways := d.gateways.erase g }).tagging =
      d.tagging.dropGateway g := fun d => rfl
  rw [herase,tagging_statsAdd]

theorem sound_gatewayClose {d : Daemon} {g : GatewayRef} (h : d.tagging.Sound) (hg : g ∈ d.gateways) :
    (d.gatewayClose g).tagging.Sound := by
  obtain ⟨hview,hlinked,hgws,hmask,htable,hok⟩ :=
    tagging_releaseTags h hg (tagging_unlistGateway d g) maxTags
  have hclose : (d.gatewayClose g).tagging =
      ((List.range maxTags).foldl (release g) d.tagging).dropGateway g := by
    unfold gatewayClose
    simp only
    rw [← hview,foldl_keeps tagging (fun d b => tagging_removeAndCloseBulb d g b)]
  rw [hclose]
  generalize (List.range maxTags).foldl (release g) d.tagging = v at hlinked hgws hmask htable hok
  have hempty : ∀ id, (Linked.hide v g maxTags).table g id = none := by
    intro id
    simp only [Linked.hide,Function.update_self]
    split
    · rfl
    · rename_i hid
      rw [htable]
      exact h.table_none hg (not_lt.mp hid)
  refine ⟨(hlinked.dropGateway hempty).congr rfl rfl (fun g' hg' => ?_) rfl rfl rfl,?_,hok ▸ h.ok⟩
  · have hne : g' ≠ g := by
      rintro rfl
      exact hlinked.gateways_nodup.not_mem_erase hg'
    simp only [Tagging.dropGateway,Linked.hide,Function.update_of_ne hne]
  · intro g' hg' id
    have hmem : g' ∈ d.gateways := hgws ▸ List.mem_of_mem_erase hg'
    simp only [Tagging.dropGateway,hmask,htable]
    exact h.masked g' hmem id

theorem sound_deallocateTagId {d : Daemon} {g : GatewayRef} {id : ℕ} (h : d.tagging.Sound)
    (hg : g ∈ d.gateways) (hid : id < maxTags) : (d.deallocateTagId g id).tagging.Sound := by
  unfold deallocateTagId
  have hbit : hasTagId (d.gw g).tagIds id = ((d.gw g).tags id).isSome := h.bit_iff hg hid
  rw [hbit]
  cases he : (d.gw g).tags id with
  | none => exact h
  | some t =>
    have ht : t ∈ d.tags := ((h.entries g hg id t).mp he).1
    simp only [Option.isSome_some,if_true]
    rw [tagging_clearTag,tagging_decref g ht]
    exact h.unlink hg hid he

end Daemon
end Lightsd.Lifx
