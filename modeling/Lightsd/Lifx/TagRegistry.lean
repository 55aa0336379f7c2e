import Lightsd.Library.KeyedList
import Lightsd.Lifx.TagOperations

/-! # The tag registry as an inverse pair

The tag table of a gateway maps ids to tags and the site list of a tag maps gateways to
ids. The two are inverse to each other, the bit mask of a gateway is the domain of its
table, and both stay so under linking and unlinking.
-/
namespace Lightsd.Lifx

namespace Tagging

structure Linked (v : Tagging) : Prop where
  gateways_nodup : v.gateways.Nodup
  gateways_lt : ∀ g ∈ v.gateways, g < v.nextGw
  entries : ∀ g ∈ v.gateways, ∀ id t, v.table g id = some t ↔ t ∈ v.tags ∧ ⟨id,g⟩ ∈ (v.tag t).sites
  sites_live : ∀ t ∈ v.tags, ∀ s ∈ (v.tag t).sites, s.gw ∈ v.gateways
  sites_nodup : ∀ t ∈ v.tags, ((v.tag t).sites.map Site.gw).Nodup
  tags_nodup : v.tags.Nodup
  tags_lt : ∀ t ∈ v.tags, t < v.nextTag
  labels : ∀ t ∈ v.tags, ∀ t' ∈ v.tags, (v.tag t).label = (v.tag t').label → t = t'

def Masked (v : Tagging) : Prop :=
  ∀ g ∈ v.gateways, ∀ id, (v.tagIds g).getLsbD id = (v.table g id).isSome

/-- Everything that is kept about tags between events. -/
structure Sound (v : Tagging) : Prop extends Linked v where
  masked : v.Masked
  ok : v.ok

/-- Of sites on different gateways, removing the one of a gateway keeps the others. -/
theorem mem_removeSite {tag : Tag} {g : GatewayRef} {s : Site} (h : (tag.sites.map Site.gw).Nodup) :
    s ∈ (tag.removeSite g).sites ↔ s ∈ tag.sites ∧ s.gw ≠ g := KeyedList.mem_eraseP_key h

theorem removeSite_nodup {tag : Tag} (g : GatewayRef) (h : (tag.sites.map Site.gw).Nodup) :
    ((tag.removeSite g).sites.map Site.gw).Nodup :=
  h.sublist (List.eraseP_sublist.map Site.gw)

namespace Linked

variable {v : Tagging} {g : GatewayRef} {id : ℕ} {t : TagRef}

/-- The links do not depend on the masks, nor on the tables of closed gateways. -/
theorem congr {w : Tagging} (h : v.Linked) (hg : w.gateways = v.gateways) (hn : w.nextGw = v.nextGw)
    (ht : ∀ g ∈ v.gateways, w.table g = v.table g) (hts : w.tags = v.tags)
    (hnt : w.nextTag = v.nextTag) (htag : w.tag = v.tag) : w.Linked := by
  obtain ⟨h1,h2,h3,h4,h5,h6,h7,h8⟩ := h
  refine ⟨by rwa [hg],by rwa [hg,hn],?_,?_,?_,by rwa [hts],by rwa [hts,hnt],?_⟩
  · intro g hgw id t
    rw [hg] at hgw
    rw [ht g hgw,hts,htag]
    exact h3 g hgw id t
  · rwa [hts,htag,hg]
  · rwa [hts,htag]
  · rwa [hts,htag]

theorem site_unique (h : v.Linked) (ht : t ∈ v.tags) {id' : ℕ} (hs : ⟨id,g⟩ ∈ (v.tag t).sites)
    (hs' : ⟨id',g⟩ ∈ (v.tag t).sites) : id = id' :=
  congrArg Site.tagId (List.inj_on_of_nodup_map (h.sites_nodup t ht) hs hs' rfl)

/-- A site of a listed tag is an entry in the table of an open gateway. -/
theorem site_entry (h : v.Linked) (ht : t ∈ v.tags) {s : Site} (hs : s ∈ (v.tag t).sites) :
    s.gw ∈ v.gateways ∧ v.table s.gw s.tagId = some t := by
  have hg := h.sites_live t ht s hs
  exact ⟨hg,(h.entries s.gw hg s.tagId t).mpr ⟨ht,hs⟩⟩

/-- No tag has two ids on one gateway. -/
theorem id_unique (h : v.Linked) (hg : g ∈ v.gateways) {id' : ℕ} (he : v.table g id = some t)
    (he' : v.table g id' = some t) : id = id' := by
  obtain ⟨ht,hs⟩ := (h.entries g hg id t).mp he
  exact h.site_unique ht hs ((h.entries g hg id' t).mp he').2

theorem detach_tags (v : Tagging) (t : TagRef) (g : GatewayRef) :
    ∀ t' ∈ (v.detach t g).tags, t' ∈ v.tags := by
  intro t' ht'
  simp only [detach] at ht'
  split at ht'
  · exact List.mem_of_mem_erase ht'
  · exact ht'

theorem unlinked_table (v : Tagging) (t : TagRef) (g g' : GatewayRef) (id id' : ℕ) :
    ((v.detach t g).clearEntry g id).table g' id' =
      if g' = g ∧ id' = id then none else v.table g' id' := by
  have htable : (v.detach t g).table = v.table := rfl
  simp only [clearEntry,htable]
  by_cases hg : g' = g
  · subst hg
    by_cases hid : id' = id
    · subst hid
      simp
    · simp [hid]
  · simp [hg]

/-- Unlinking a tag from a gateway, in the table and in the site list. -/
theorem unlink (h : v.Linked) (hg : g ∈ v.gateways) (he : v.table g id = some t) :
    ((v.detach t g).clearEntry g id).Linked := by
  obtain ⟨ht,hsite⟩ := (h.entries g hg id t).mp he
  have hsub := detach_tags v t g
  have hmem : ∀ s, s ∈ ((v.tag t).removeSite g).sites ↔ s ∈ (v.tag t).sites ∧ s.gw ≠ g :=
    fun s => mem_removeSite (h.sites_nodup t ht)
  have hother : ∀ t', t' ≠ t → (v.detach t g).tag t' = v.tag t' := fun t' hne => Function.update_of_ne hne _ _
  have hself : (v.detach t g).tag t = (v.tag t).removeSite g := Function.update_self _ _ _
  have hkeep : ∀ t', t' ≠ t → (t' ∈ (v.detach t g).tags ↔ t' ∈ v.tags) := by
    intro t' hne
    simp only [detach]
    split
    · exact List.mem_erase_of_ne hne
    · exact Iff.rfl
  have hlive : ∀ s ∈ ((v.tag t).removeSite g).sites, t ∈ (v.detach t g).tags := by
    intro s hs
    simp only [detach]
    rw [if_neg]
    · exact ht
    · intro hempty
      rw [List.isEmpty_iff.mp hempty] at hs
      cases hs
  have hlabel : ∀ t', ((v.detach t g).tag t').label = (v.tag t').label := by
    intro t'
    by_cases hne : t' = t
    · rw [hne,hself]
      rfl
    · rw [hother t' hne]
  refine ⟨h.gateways_nodup,h.gateways_lt,?_,?_,?_,?_,fun x hx => h.tags_lt x (hsub x hx),?_⟩
  · intro g' hg' id' t'
    rw [unlinked_table]
    by_cases htt : t' = t
    · subst htt
      have hsites : ((v.detach t' g).clearEntry g id).tag t' = (v.tag t').removeSite g := hself
      rw [hsites,hmem]
      constructor
      · intro hsome
        have hne : ¬ (g' = g ∧ id' = id) := fun hc => by simp [hc] at hsome
        rw [if_neg hne] at hsome
        have hs := ((h.entries g' hg' id' t').mp hsome).2
        have hgg : g' ≠ g := by
          rintro rfl
          exact hne ⟨rfl,h.id_unique hg hsome he⟩
        exact ⟨hlive _ ((hmem _).mpr ⟨hs,hgg⟩),hs,hgg⟩
      · rintro ⟨_,hs,hgg⟩
        rw [if_neg (fun hc => hgg hc.1)]
        exact (h.entries g' hg' id' t').mpr ⟨ht,hs⟩
    · have hsites : ((v.detach t g).clearEntry g id).tag t' = v.tag t' := hother t' htt
      have htags : t' ∈ ((v.detach t g).clearEntry g id).tags ↔ t' ∈ v.tags := hkeep t' htt
      rw [hsites,htags,← h.entries g' hg' id' t']
      by_cases hc : g' = g ∧ id' = id
      · rw [if_pos hc,hc.1,hc.2,he]
        simp [Ne.symm htt]
      · rw [if_neg hc]
  · intro t' ht' s hs
    by_cases htt : t' = t
    · subst htt
      have hsites : ((v.detach t' g).clearEntry g id).tag t' = (v.tag t').removeSite g := hself
      rw [hsites,hmem] at hs
      exact h.sites_live t' ht s hs.1
    · have hsites : ((v.detach t g).clearEntry g id).tag t' = v.tag t' := hother t' htt
      rw [hsites] at hs
      exact h.sites_live t' (hsub t' ht') s hs
  · intro t' ht'
    by_cases htt : t' = t
    · subst htt
      have hsites : ((v.detach t' g).clearEntry g id).tag t' = (v.tag t').removeSite g := hself
      rw [hsites]
      exact removeSite_nodup g (h.sites_nodup t' ht)
    · have hsites : ((v.detach t g).clearEntry g id).tag t' = v.tag t' := hother t' htt
      rw [hsites]
      exact h.sites_nodup t' (hsub t' ht')
  · simp only [clearEntry,detach]
    split
    · exact h.tags_nodup.erase t
    · exact h.tags_nodup
  · intro x hx y hy hxy
    have hxy' : ((v.detach t g).tag x).label = ((v.detach t g).tag y).label := hxy
    rw [hlabel,hlabel] at hxy'
    exact h.labels x (hsub x hx) y (hsub y hy) hxy'

theorem linked_table (v : Tagging) (t : TagRef) (g g' : GatewayRef) (id id' : ℕ) :
    ((v.attach t g id).setEntry g id t).table g' id' =
      if g' = g ∧ id' = id then some t else v.table g' id' := by
  have htable : (v.attach t g id).table = v.table := rfl
  simp only [setEntry,htable]
  by_cases hg : g' = g
  · subst hg
    by_cases hid : id' = id
    · subst hid
      simp
    · simp [hid]
  · simp [hg]

/-- Linking a tag and a gateway that do not know each other under a free id. -/
theorem link (h : v.Linked) (hg : g ∈ v.gateways) (ht : t ∈ v.tags)
    (hnew : ∀ s ∈ (v.tag t).sites, s.gw ≠ g) (hfree : v.table g id = none) :
    ((v.attach t g id).setEntry g id t).Linked := by
  have hself : ((v.attach t g id).setEntry g id t).tag t = (v.tag t).addSite id g :=
    Function.update_self _ _ _
  have hother : ∀ t', t' ≠ t → ((v.attach t g id).setEntry g id t).tag t' = v.tag t' :=
    fun t' hne => Function.update_of_ne hne _ _
  have hlabel : ∀ t', (((v.attach t g id).setEntry g id t).tag t').label = (v.tag t').label := by
    intro t'
    by_cases hne : t' = t
    · rw [hne,hself]
      rfl
    · rw [hother t' hne]
  refine ⟨h.gateways_nodup,h.gateways_lt,?_,?_,?_,h.tags_nodup,h.tags_lt,?_⟩
  · intro g' hg' id' t'
    rw [linked_table]
    by_cases htt : t' = t
    · subst htt
      rw [hself]
      simp only [Tag.addSite,List.mem_cons,Site.mk.injEq]
      by_cases hc : g' = g ∧ id' = id
      · rw [if_pos hc]
        exact ⟨fun _ => ⟨ht,Or.inl ⟨hc.2,hc.1⟩⟩,fun _ => rfl⟩
      · rw [if_neg hc,h.entries g' hg' id' t']
        have hnot : ¬ (id' = id ∧ g' = g) := fun hc' => hc ⟨hc'.2,hc'.1⟩
        simp only [hnot,false_or]
        exact Iff.rfl
    · rw [hother t' htt]
      by_cases hc : g' = g ∧ id' = id
      · rw [if_pos hc]
        have hold := h.entries g hg id t'
        rw [hfree] at hold
        rw [hc.1,hc.2]
        constructor
        · intro heq
          exact absurd (Option.some_inj.mp heq).symm htt
        · intro hs
          cases hold.mpr hs
      · rw [if_neg hc]
        exact h.entries g' hg' id' t'
  · intro t' ht' s hs
    by_cases htt : t' = t
    · subst htt
      rw [hself] at hs
      rcases List.mem_cons.mp hs with rfl | hs
      · exact hg
      · exact h.sites_live t' ht s hs
    · rw [hother t' htt] at hs
      exact h.sites_live t' ht' s hs
  · intro t' ht'
    by_cases htt : t' = t
    · subst htt
      rw [hself]
      refine List.nodup_cons.mpr ⟨?_,h.sites_nodup t' ht⟩
      intro hm
      obtain ⟨s,hs,hsg⟩ := List.mem_map.mp hm
      exact hnew s hs hsg
    · rw [hother t' htt]
      exact h.sites_nodup t' ht'
  · intro x hx y hy hxy
    rw [hlabel,hlabel] at hxy
    exact h.labels x hx y hy hxy

theorem newTag (h : v.Linked) {label : List UInt8} (hnew : ∀ t ∈ v.tags, (v.tag t).label ≠ label) :
    (v.newTag label).Linked := by
  have hfresh : ∀ t ∈ v.tags, t ≠ v.nextTag := fun t ht => (h.tags_lt t ht).ne
  have hself : (v.newTag label).tag v.nextTag = { label := label } := Function.update_self _ _ _
  have hother : ∀ t ∈ v.tags, (v.newTag label).tag t = v.tag t :=
    fun t ht => Function.update_of_ne (hfresh t ht) _ _
  refine ⟨h.gateways_nodup,h.gateways_lt,?_,?_,?_,?_,?_,?_⟩
  · intro g hg id t
    have htable : (v.newTag label).table g id = v.table g id := rfl
    rw [htable,h.entries g hg id t]
    constructor
    · rintro ⟨ht,hs⟩
      rw [hother t ht]
      exact ⟨List.mem_cons_of_mem _ ht,hs⟩
    · rintro ⟨ht,hs⟩
      rcases List.mem_cons.mp ht with rfl | ht
      · rw [hself] at hs
        cases hs
      · rw [hother t ht] at hs
        exact ⟨ht,hs⟩
  · intro t ht s hs
    rcases List.mem_cons.mp ht with rfl | ht
    · rw [hself] at hs
      cases hs
    · rw [hother t ht] at hs
      exact h.sites_live t ht s hs
  · intro t ht
    rcases List.mem_cons.mp ht with rfl | ht
    · rw [hself]
      exact List.nodup_nil
    · rw [hother t ht]
      exact h.sites_nodup t ht
  · exact List.nodup_cons.mpr ⟨fun hm => hfresh _ hm rfl,h.tags_nodup⟩
  · intro t ht
    rcases List.mem_cons.mp ht with rfl | ht
    · exact Nat.lt_succ_self _
    · exact Nat.lt_succ_of_lt (h.tags_lt t ht)
  · intro x hx y hy hxy
    rcases List.mem_cons.mp hx with rfl | hx <;> rcases List.mem_cons.mp hy with rfl | hy
    · rfl
    · rw [hself,hother y hy] at hxy
      exact absurd hxy.symm (hnew y hy)
    · rw [hself,hother x hx] at hxy
      exact absurd hxy (hnew x hx)
    · rw [hother x hx,hother y hy] at hxy
      exact h.labels x hx y hy hxy

theorem dropTag (h : v.Linked) (hempty : (v.tag t).sites = []) : (v.dropTag t).Linked := by
  have hsub : ∀ x ∈ v.tags.erase t, x ∈ v.tags := fun x hx => List.mem_of_mem_erase hx
  refine ⟨h.gateways_nodup,h.gateways_lt,?_,fun x hx => h.sites_live x (hsub x hx),
    fun x hx => h.sites_nodup x (hsub x hx),h.tags_nodup.erase t,fun x hx => h.tags_lt x (hsub x hx),
    fun x hx y hy => h.labels x (hsub x hx) y (hsub y hy)⟩
  intro g hg id t'
  refine (h.entries g hg id t').trans ?_
  constructor
  · rintro ⟨ht',hs⟩
    have hne : t' ≠ t := by
      rintro rfl
      rw [hempty] at hs
      cases hs
    exact ⟨(List.mem_erase_of_ne hne).mpr ht',hs⟩
  · rintro ⟨ht',hs⟩
    exact ⟨hsub t' ht',hs⟩

theorem openGateway (h : v.Linked) : v.openGateway.Linked := by
  have hfresh : ∀ g ∈ v.gateways, g ≠ v.nextGw := fun g hg => (h.gateways_lt g hg).ne
  refine ⟨List.nodup_cons.mpr ⟨fun hm => hfresh _ hm rfl,h.gateways_nodup⟩,?_,?_,
    fun t ht s hs => List.mem_cons_of_mem _ (h.sites_live t ht s hs),h.sites_nodup,h.tags_nodup,
    h.tags_lt,h.labels⟩
  · intro g hg
    rcases List.mem_cons.mp hg with rfl | hg
    · exact Nat.lt_succ_self _
    · exact Nat.lt_succ_of_lt (h.gateways_lt g hg)
  · intro g hg id t
    simp only [Tagging.openGateway] at hg ⊢
    rcases List.mem_cons.mp hg with rfl | hg
    · rw [Function.update_self]
      constructor
      · intro hnone
        cases hnone
      · rintro ⟨ht,hs⟩
        exact absurd rfl (hfresh _ (h.sites_live t ht _ hs))
    · rw [Function.update_of_ne (hfresh g hg)]
      exact h.entries g hg id t

theorem dropGateway (h : v.Linked) (hempty : ∀ id, v.table g id = none) :
    (v.dropGateway g).Linked := by
  have hsub : ∀ x ∈ v.gateways.erase g, x ∈ v.gateways := fun x hx => List.mem_of_mem_erase hx
  refine ⟨h.gateways_nodup.erase g,fun x hx => h.gateways_lt x (hsub x hx),
    fun x hx => h.entries x (hsub x hx),?_,h.sites_nodup,h.tags_nodup,h.tags_lt,h.labels⟩
  intro t ht s hs
  obtain ⟨hlive,hentry⟩ := h.site_entry ht hs
  refine (List.mem_erase_of_ne ?_).mpr hlive
  rintro rfl
  rw [hempty] at hentry
  cases hentry

/-- While a gateway is being closed, its table is only good from some id on. -/
def hide (v : Tagging) (g : GatewayRef) (n : ℕ) : Tagging :=
  { v with table := Function.update v.table g (fun id => if id < n then none else v.table g id) }

theorem release_hidden {n : ℕ} (h : (hide v g n).Linked) (hg : g ∈ v.gateways) :
    (hide (release g v n) g (n + 1)).Linked ∧ ∀ t, v.table g n = some t → t ∈ v.tags := by
  have hat : (hide v g n).table g n = v.table g n := by simp [hide]
  unfold release
  cases he : v.table g n with
  | none =>
    refine ⟨h.congr rfl rfl (fun g' _ => ?_) rfl rfl rfl,nofun⟩
    simp only [hide]
    by_cases hgg : g' = g
    · subst hgg
      simp only [Function.update_self]
      funext id
      by_cases hid : id = n
      · subst hid
        simp [he]
      · have hiff : id < n + 1 ↔ id < n := by omega
        simp only [hiff]
    · simp only [Function.update_of_ne hgg]
  | some t =>
    rw [he] at hat
    refine ⟨(h.unlink hg hat).congr rfl rfl (fun g' _ => ?_) rfl rfl rfl,?_⟩
    · funext id
      rw [unlinked_table]
      simp only [hide]
      by_cases hgg : g' = g
      · subst hgg
        simp only [Function.update_self,true_and]
        by_cases hid : id = n
        · subst hid
          simp
        · have hiff : id < n + 1 ↔ id < n := by omega
          simp only [hid,hiff,if_false]
          rfl
      · simp only [Function.update_of_ne hgg,hgg,false_and,if_false]
        rfl
    · rintro _ ⟨⟩
      exact ((h.entries g hg n t).mp hat).1

end Linked
end Tagging
end Lightsd.Lifx
