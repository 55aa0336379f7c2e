import Lightsd.Lifx.TagAllocations

/-! # The changes the registry of tags goes through

Whatever happens to the registry of tags outside the tag command is a sequence of a few
changes, a failed assertion among them. What each of them keeps is kept between events,
also in a registry that is no longer sound.
-/
namespace Lightsd.Lifx

namespace Tagging

inductive Change : Tagging → Tagging → Prop
  | introduce (v : Tagging) {label : List UInt8} (g : GatewayRef) (id : ℕ) (hlabel : label.length < labelSize)
      (hnew : ∀ t ∈ v.tags, (v.tag t).label ≠ label) :
      Change v ((v.newTag label).attach v.nextTag g id)
  | discard (v : Tagging) {label : List UInt8} (hlabel : label.length < labelSize) :
      Change v ((v.newTag label).dropTag v.nextTag)
  | attach (v : Tagging) (t : TagRef) (g : GatewayRef) (id : ℕ) : Change v (v.attach t g id)
  | detach (v : Tagging) (t : TagRef) (g : GatewayRef) : Change v (v.detach t g)
  | dropTag (v : Tagging) (t : TagRef) : Change v (v.dropTag t)
  | setEntry (v : Tagging) (g : GatewayRef) (id : ℕ) {t : TagRef} (ht : t ∈ v.tags) :
      Change v (v.setEntry g id t)
  | clearEntry (v : Tagging) (g : GatewayRef) (id : ℕ) : Change v (v.clearEntry g id)
  | openGateway (v : Tagging) : Change v v.openGateway
  | dropGateway (v : Tagging) (g : GatewayRef) : Change v (v.dropGateway g)
  | fail (v : Tagging) : Change v { v with ok := False }

abbrev Changes : Tagging → Tagging → Prop := Relation.ReflTransGen Change

/-- Tags are numbered in the order they are created, and their labels are short and
differ. -/
structure Numbered (v : Tagging) : Prop where
  nodup : v.tags.Nodup
  lt : ∀ t ∈ v.tags, t < v.nextTag
  entry_lt : ∀ g id t, v.table g id = some t → t < v.nextTag
  short : ∀ t, (v.tag t).label.length < labelSize
  labels : ∀ t ∈ v.tags, ∀ t' ∈ v.tags, (v.tag t).label = (v.tag t').label → t = t'

/-- Every tag has a site. -/
def NoOrphans (v : Tagging) : Prop := ∀ t ∈ v.tags, (v.tag t).sites ≠ []

namespace Numbered

variable {v : Tagging} {t : TagRef} {g : GatewayRef}

theorem newTag (h : v.Numbered) {label : List UInt8} (hlabel : label.length < labelSize)
    (hnew : ∀ t ∈ v.tags, (v.tag t).label ≠ label) : (v.newTag label).Numbered := by
  have hne : ∀ t ∈ v.tags, t ≠ v.nextTag := fun t ht => (h.lt t ht).ne
  refine ⟨List.nodup_cons.mpr ⟨fun hm => hne _ hm rfl,h.nodup⟩,?_,?_,?_,?_⟩
  · intro t ht
    rcases List.mem_cons.mp ht with rfl | ht
    · exact Nat.lt_succ_self _
    · exact Nat.lt_succ_of_lt (h.lt t ht)
  · exact fun g id t he => Nat.lt_succ_of_lt (h.entry_lt g id t he)
  · intro t
    by_cases ht : t = v.nextTag
    · simpa [Tagging.newTag,ht] using hlabel
    · simpa [Tagging.newTag,ht] using h.short t
  · intro t ht t' ht' heq
    rcases List.mem_cons.mp ht with rfl | ht <;> rcases List.mem_cons.mp ht' with rfl | ht'
    · rfl
    · simp only [Tagging.newTag,Function.update_self,Function.update_of_ne (hne t' ht')] at heq
      exact absurd heq.symm (hnew t' ht')
    · simp only [Tagging.newTag,Function.update_self,Function.update_of_ne (hne t ht)] at heq
      exact absurd heq (hnew t ht)
    · simp only [Tagging.newTag,Function.update_of_ne (hne t ht),Function.update_of_ne (hne t' ht')] at heq
      exact h.labels t ht t' ht' heq

theorem of_tags {w : Tagging} (h : v.Numbered) (htags : w.tags.Sublist v.tags)
    (hnext : w.nextTag = v.nextTag) (htable : ∀ g id t, w.table g id = some t → v.table g id = some t)
    (hlabel : ∀ t, (w.tag t).label = (v.tag t).label) : w.Numbered where
  nodup := h.nodup.sublist htags
  lt := fun t ht => hnext ▸ h.lt t (htags.subset ht)
  entry_lt := fun g id t he => hnext ▸ h.entry_lt g id t (htable g id t he)
  short := fun t => (hlabel t) ▸ h.short t
  labels := fun t ht t' ht' heq =>
    h.labels t (htags.subset ht) t' (htags.subset ht') (by rwa [hlabel,hlabel] at heq)

theorem attach (h : v.Numbered) (t : TagRef) (g : GatewayRef) (id : ℕ) : (v.attach t g id).Numbered := by
  refine h.of_tags (List.Sublist.refl _) rfl (fun _ _ _ he => he) (fun t' => ?_)
  by_cases ht : t' = t
  · simp [Tagging.attach,Tag.addSite,ht]
  · simp [Tagging.attach,ht]

theorem dropTag (h : v.Numbered) (t : TagRef) : (v.dropTag t).Numbered :=
  h.of_tags List.erase_sublist rfl (fun _ _ _ he => he) (fun _ => rfl)

theorem detach (h : v.Numbered) (t : TagRef) (g : GatewayRef) : (v.detach t g).Numbered := by
  refine h.of_tags ?_ rfl (fun _ _ _ he => he) (fun t' => ?_)
  · simp only [Tagging.detach]
    split
    · exact List.erase_sublist
    · exact List.Sublist.refl _
  · by_cases ht : t' = t
    · simp [Tagging.detach,Tag.removeSite,ht]
    · simp [Tagging.detach,ht]

theorem setEntry (h : v.Numbered) (g : GatewayRef) (id : ℕ) (ht : t ∈ v.tags) :
    (v.setEntry g id t).Numbered := by
  refine ⟨h.nodup,h.lt,fun g' id' t' he => ?_,h.short,h.labels⟩
  simp only [Tagging.setEntry,Function.update_apply] at he
  split at he
  · simp only [Function.update_apply] at he
    split at he
    · cases he
      exact h.lt _ ht
    · exact h.entry_lt _ _ _ he
  · exact h.entry_lt _ _ _ he

theorem clearEntry (h : v.Numbered) (g : GatewayRef) (id : ℕ) : (v.clearEntry g id).Numbered := by
  refine h.of_tags (List.Sublist.refl _) rfl (fun g' id' t' he => ?_) (fun _ => rfl)
  simp only [Tagging.clearEntry,Function.update_apply] at he
  split at he
  · rename_i hg
    simp only [Function.update_apply] at he
    split at he
    · cases he
    · exact hg ▸ he
  · exact he

theorem openGateway (h : v.Numbered) : v.openGateway.Numbered := by
  refine h.of_tags (List.Sublist.refl _) rfl (fun g id t he => ?_) (fun _ => rfl)
  simp only [Tagging.openGateway,Function.update_apply] at he
  split at he
  · cases he
  · exact he

theorem change {w : Tagging} (h : v.Numbered) (hc : Change v w) : w.Numbered := by
  cases hc with
  | introduce g id hlabel hnew => exact (h.newTag hlabel hnew).attach _ g id
  | discard hlabel =>
    refine ⟨?_,fun t ht => ?_,fun g id t he => Nat.lt_succ_of_lt (h.entry_lt g id t he),fun t => ?_,?_⟩
    · simpa [Tagging.newTag,Tagging.dropTag] using h.nodup
    · simp only [Tagging.newTag,Tagging.dropTag,List.erase_cons_head] at ht ⊢
      exact Nat.lt_succ_of_lt (h.lt t ht)
    · by_cases ht : t = v.nextTag
      · simpa [Tagging.newTag,Tagging.dropTag,ht] using hlabel
      · simpa [Tagging.newTag,Tagging.dropTag,ht] using h.short t
    · intro t ht t' ht' heq
      simp only [Tagging.newTag,Tagging.dropTag,List.erase_cons_head] at ht ht' heq
      rw [Function.update_of_ne (h.lt t ht).ne,Function.update_of_ne (h.lt t' ht').ne] at heq
      exact h.labels t ht t' ht' heq
  | attach t g id => exact h.attach t g id
  | detach t g => exact h.detach t g
  | dropTag t => exact h.dropTag t
  | setEntry g id ht => exact h.setEntry g id ht
  | clearEntry g id => exact h.clearEntry g id
  | openGateway => exact h.openGateway
  | dropGateway g => exact h.of_tags (List.Sublist.refl _) rfl (fun _ _ _ he => he) (fun _ => rfl)
  | fail => exact h.of_tags (List.Sublist.refl _) rfl (fun _ _ _ he => he) (fun _ => rfl)

theorem changes {w : Tagging} (h : v.Numbered) (hc : Changes v w) : w.Numbered := by
  induction hc with
  | refl => exact h
  | tail _ hstep ih => exact ih.change hstep

end Numbered

theorem NoOrphans.change {v w : Tagging} (h : v.NoOrphans) (hn : v.Numbered) (hc : Change v w) :
    w.NoOrphans := by
  intro t' ht'
  cases hc with
  | introduce g id hlabel hnew =>
    rcases List.mem_cons.mp ht' with rfl | ht'
    · simp [Tagging.attach,Tag.addSite]
    · have hne : t' ≠ v.nextTag := (hn.lt t' ht').ne
      simpa [Tagging.attach,Tagging.newTag,hne] using h t' ht'
  | discard hlabel =>
    simp only [Tagging.newTag,Tagging.dropTag,List.erase_cons_head] at ht' ⊢
    have hne : t' ≠ v.nextTag := (hn.lt t' ht').ne
    simpa [hne] using h t' ht'
  | attach t g id =>
    by_cases hne : t' = t
    · simp [Tagging.attach,Tag.addSite,hne]
    · simpa [Tagging.attach,hne] using h t' ht'
  | detach t g =>
    by_cases hne : t' = t
    · subst hne
      simp only [Tagging.detach,Function.update_self] at ht' ⊢
      intro hempty
      simp only [hempty,List.isEmpty_nil,if_true] at ht'
      exact hn.nodup.not_mem_erase ht'
    · simpa [Tagging.detach,hne] using h t' (Linked.detach_tags v t g t' ht')
  | dropTag t => exact h t' (List.mem_of_mem_erase ht')
  | setEntry g id ht => exact h t' ht'
  | clearEntry g id => exact h t' ht'
  | openGateway => exact h t' ht'
  | dropGateway g => exact h t' ht'
  | fail => exact h t' ht'

theorem NoOrphans.changes {v w : Tagging} (h : v.NoOrphans) (hn : v.Numbered) (hc : Changes v w) :
    w.NoOrphans := by
  induction hc with
  | refl => exact h
  | tail hcs hstep ih => exact ih.change (hn.changes hcs) hstep

/-- A failed assertion is not forgotten. -/
theorem Changes.ok {v w : Tagging} (hc : Changes v w) (hw : w.ok) : v.ok := by
  induction hc with
  | refl => exact hw
  | tail hcs hstep ih =>
    cases hstep with
    | fail => exact hw.elim
    | introduce => exact ih hw
    | discard => exact ih hw
    | attach => exact ih hw
    | detach => exact ih hw
    | dropTag => exact ih hw
    | setEntry => exact ih hw
    | clearEntry => exact ih hw
    | openGateway => exact ih hw
    | dropGateway => exact ih hw

theorem Changes.single {v w : Tagging} (h : Change v w) : Changes v w := Relation.ReflTransGen.single h

theorem Changes.of_eq {v w : Tagging} (h : w = v) : Changes v w := h ▸ Relation.ReflTransGen.refl

end Tagging

namespace Daemon

open Tagging

variable {d : Daemon} {g : GatewayRef} {t : TagRef} {id : ℕ} {label : List UInt8}

theorem changes_foldl {α : Type} {f : Daemon → α → Daemon} {l : List α}
    (hf : ∀ d, ∀ x ∈ l, Changes d.tagging (f d x).tagging) (d : Daemon) :
    Changes d.tagging (l.foldl f d).tagging :=
  Runs.foldl_related (R := fun d d' => Changes d.tagging d'.tagging) (fun _ => Relation.ReflTransGen.refl)
    Relation.ReflTransGen.trans hf d

theorem changes_fault (d : Daemon) (f : Fault) : Changes d.tagging (d.fault f).tagging := by
  cases hf : f.isTagging with
  | false => exact .of_eq (tagging_fault hf)
  | true =>
    have hview : (d.fault f).tagging = { d.tagging with ok := False } := by
      simp only [tagging,fault,Tagging.mk.injEq,true_and,eq_iff_iff,iff_false,not_forall,
        List.mem_append,List.mem_singleton,not_not]
      exact ⟨f,Or.inr rfl,hf⟩
    rw [hview]
    exact .single (.fail _)

theorem changes_check (d : Daemon) (c : Bool) (f : Fault) : Changes d.tagging (d.check c f).tagging := by
  cases c with
  | true => exact Relation.ReflTransGen.refl
  | false => exact changes_fault d f

theorem check_tags (d : Daemon) (c : Bool) (f : Fault) : (d.check c f).tags = d.tags := by
  cases c <;> rfl

theorem changes_deallocateTag (d : Daemon) (t : TagRef) : Changes d.tagging (d.deallocateTag t).tagging :=
  (changes_check d _ _).trans (.single (.dropTag _ t))

theorem changes_decref (d : Daemon) (t : TagRef) (g : GatewayRef) :
    Changes d.tagging (d.decref t g).tagging := by
  by_cases ht : t ∈ d.tags
  · rw [tagging_decref g ht]
    exact .single (.detach _ t g)
  · rw [decref,if_neg ht]
    exact changes_fault d _

/-- Linking a gateway to the tag with a label, and that tag is listed afterwards. -/
theorem changes_incref (hlabel : label.length < labelSize) (g : GatewayRef) (id : ℕ) (tagOk siteOk : Bool) :
    Changes d.tagging (d.incref label g id tagOk siteOk).1.tagging ∧
    ∀ t, (d.incref label g id tagOk siteOk).2 = some t →
      t ∈ (d.incref label g id tagOk siteOk).1.tags := by
  have hcheck := check_short d hlabel
  unfold incref
  simp only [hcheck]
  unfold findOrAllocateTag
  cases hfind : d.findTag label with
  | some t =>
    have ht : t ∈ d.tags := List.mem_of_find?_eq_some hfind
    simp only [Option.isNone_some]
    unfold addSite
    cases hsite : findSite (d.tag t).sites g with
    | some site =>
      refine ⟨changes_check d _ _,fun t' ht' => ?_⟩
      cases ht'
      rw [check_tags]
      exact ht
    | none =>
      cases siteOk with
      | true =>
        refine ⟨.single (.attach _ t g id),fun t' ht' => ?_⟩
        cases ht'
        exact ht
      | false => exact ⟨Relation.ReflTransGen.refl,by simp⟩
  | none =>
    have hnew : ∀ t ∈ d.tags, (d.tag t).label ≠ label := by
      simpa [findTag] using hfind
    cases tagOk with
    | false => exact ⟨Relation.ReflTransGen.refl,by simp⟩
    | true =>
      have hview := tagging_allocateTag (d := d) hlabel
      have hempty : ((d.allocateTag label).tag d.nextTag).sites = [] := by
        have htag : (d.allocateTag label).tag d.nextTag = _ := congrFun (congrArg Tagging.tag hview) d.nextTag
        rw [htag]
        simp [Tagging.newTag,tagging]
      have hnone : findSite ((d.allocateTag label).tag d.nextTag).sites g = none := by
        simp [hempty,findSite]
      simp only [Option.isNone_none,if_true]
      unfold addSite
      rw [hnone]
      cases siteOk with
      | true =>
        refine ⟨?_,fun t' ht' => ?_⟩
        · have hattach : ((d.allocateTag label).modifyTag d.nextTag (·.addSite id g)).tagging =
              (d.allocateTag label).tagging.attach d.nextTag g id := rfl
          simp only [if_true,hattach,hview]
          exact .single (.introduce d.tagging g id hlabel hnew)
        · cases ht'
          have htags : (d.allocateTag label).tags = d.nextTag :: d.tags := congrArg Tagging.tags hview
          simp [modifyTag,htags]
      | false =>
        refine ⟨?_,by simp⟩
        simp only [if_true,Bool.false_eq_true,if_false]
        rw [tagging_deallocateTag hempty,hview]
        exact .single (.discard d.tagging hlabel)

theorem changes_allocateTagId (hlabel : label.length < labelSize) (d : Daemon) (g : GatewayRef) (tagId : ℤ)
    (tagOk siteOk : Bool) : Changes d.tagging (d.allocateTagId g tagId label tagOk siteOk).1.tagging := by
  unfold allocateTagId
  simp only
  generalize (if tagId = -1 then bitscan64Forward (~~~(d.gw g).tagIds) else tagId) = id
  split
  · exact Relation.ReflTransGen.refl
  · split
    · exact Relation.ReflTransGen.refl
    · obtain ⟨hchanges,hlisted⟩ := changes_incref (d := d) hlabel g id.toNat tagOk siteOk
      generalize d.incref label g id.toNat tagOk siteOk = s at hchanges hlisted
      obtain ⟨d',o⟩ := s
      cases o with
      | none => exact hchanges
      | some t =>
        refine hchanges.trans ?_
        simp only
        rw [tagging_setTag]
        exact .single (.setEntry _ g id.toNat (hlisted t rfl))

theorem changes_deallocateTagId (d : Daemon) (g : GatewayRef) (id : ℕ) :
    Changes d.tagging (d.deallocateTagId g id).tagging := by
  unfold deallocateTagId
  split
  · simp only
    rw [tagging_clearTag]
    refine Relation.ReflTransGen.tail ?_ (.clearEntry _ g id)
    cases (d.gw g).tags id with
    | some t => exact changes_decref d t g
    | none => exact changes_fault d _
  · exact Relation.ReflTransGen.refl

theorem changes_handleTagLabel (hlabel : label.length < labelSize) (g : GatewayRef) (env : Env) (d : Daemon)
    (id : ℕ) : Changes d.tagging (handleTagLabel g env label d id).tagging := by
  unfold handleTagLabel
  split
  · exact changes_allocateTagId hlabel d g id _ _
  · split
    · exact changes_deallocateTagId d g id
    · exact Relation.ReflTransGen.refl

theorem changes_handleTagLabels (d : Daemon) (g : GatewayRef) (env : Env) (pkt : Buffer) :
    Changes d.tagging (d.handleTagLabels g env (decodeTagLabels pkt)).tagging :=
  changes_foldl (fun d id _ => changes_handleTagLabel (label_decodeTagLabels pkt) g env d id) d

theorem changes_dispatch (d : Daemon) (now : Time) (g : GatewayRef) (info : PacketInfo) (hdr : Header)
    (pkt : Buffer) (env : Env) : Changes d.tagging (d.dispatch now g info hdr pkt env).tagging := by
  by_cases hinfo : info.handle = .tagLabels
  · obtain ⟨d',hsilent,heq⟩ := exists_dispatch d now g info hdr pkt env
    rw [heq,hinfo]
    exact (Changes.of_eq hsilent.tagging).trans (changes_handleTagLabels d' g env pkt)
  · exact .of_eq (tagging_dispatch hinfo)

theorem changes_handlePacket (d : Daemon) (now : Time) (gw : Option GatewayRef) (peer : SockAddr)
    (info : PacketInfo) (hdr : Header) (pkt : Buffer) (env : Env) :
    Changes d.tagging (d.handlePacket now gw peer info hdr pkt env).tagging := by
  unfold handlePacket
  cases gw with
  | some g => exact (changes_check d _ _).trans (changes_dispatch _ now g info hdr pkt env)
  | none =>
    cases d.gatewayGet peer with
    | some g => exact changes_dispatch d now g info hdr pkt env
    | none =>
      simp only
      split
      · refine Relation.ReflTransGen.trans (b := (d.gatewayOpen peer hdr.site now).tagging) ?_
          (changes_dispatch _ now d.nextGw info hdr pkt env)
        rw [tagging_gatewayOpen]
        exact .single (.openGateway _)
      · exact Relation.ReflTransGen.refl

theorem changes_handleReceive (d : Daemon) (now : Time) (gw : Option GatewayRef) (dg : Datagram)
    (env : Env) : Changes d.tagging (d.handleReceive now gw dg env).1.tagging := by
  unfold handleReceive
  cases dg.receive with
  | error => exact Relation.ReflTransGen.refl
  | ignored => exact Relation.ReflTransGen.refl
  | packet info hdr => exact changes_handlePacket d now gw dg.peer info hdr _ env

theorem changes_releaseTag (g : GatewayRef) (d : Daemon) (id : ℕ) :
    Changes d.tagging (releaseTag g d id).tagging := by
  unfold releaseTag
  cases (d.gw g).tags id with
  | some t => exact changes_decref d t g
  | none => exact Relation.ReflTransGen.refl

theorem changes_gatewayClose (d : Daemon) (g : GatewayRef) :
    Changes d.tagging (d.gatewayClose g).tagging := by
  unfold gatewayClose
  simp only
  rw [foldl_keeps tagging (fun d b => tagging_removeAndCloseBulb d g b)]
  refine Relation.ReflTransGen.trans (.single (.dropGateway d.tagging g)) ?_
  rw [← tagging_unlistGateway]
  exact changes_foldl (fun d id _ => changes_releaseTag g d id) _

end Daemon
end Lightsd.Lifx
