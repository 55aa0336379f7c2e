import Lightsd.Lifx.TagTransitions

/-! # Tag ids and label packets

Introducing a tag id on a gateway, and the label packets by which gateways report their
ids. A packet with a label keeps the registry sound exactly when it introduces at most
one id, for a label the gateway does not have yet.
-/
namespace Lightsd.Lifx

namespace Tagging

/-- The gateway knows no tag with the label. -/
def LabelFree (v : Tagging) (g : GatewayRef) (label : List UInt8) : Prop :=
  ∀ id t, v.table g id = some t → (v.tag t).label ≠ label

theorem LabelFree.no_site {v : Tagging} {g : GatewayRef} {label : List UInt8} {t : TagRef}
    (hfree : v.LabelFree g label) (h : v.Linked) (hg : g ∈ v.gateways) (ht : t ∈ v.tags)
    (hlabel : (v.tag t).label = label) : ∀ s ∈ (v.tag t).sites, s.gw ≠ g := by
  rintro s hs rfl
  exact hfree s.tagId t ((h.entries s.gw hg s.tagId t).mpr ⟨ht,hs⟩) hlabel

/-- The tag with a label, or a new one. -/
def findOrNew (v : Tagging) (label : List UInt8) : Tagging × TagRef :=
  match v.tags.find? (fun t => (v.tag t).label = label) with
  | some t => (v,t)
  | none => (v.newTag label,v.nextTag)

theorem Sound.findOrNew {v : Tagging} (h : v.Sound) (label : List UInt8) :
    (v.findOrNew label).1.Sound ∧ (v.findOrNew label).2 ∈ (v.findOrNew label).1.tags ∧
    ((v.findOrNew label).1.tag (v.findOrNew label).2).label = label ∧
    (v.findOrNew label).1.table = v.table ∧ (v.findOrNew label).1.tagIds = v.tagIds ∧
    (v.findOrNew label).1.gateways = v.gateways ∧
    ∀ t ∈ v.tags, (v.findOrNew label).1.tag t = v.tag t := by
  unfold Tagging.findOrNew
  cases hfind : v.tags.find? (fun t => (v.tag t).label = label) with
  | some t =>
    have hlabel : (v.tag t).label = label := by simpa using List.find?_some hfind
    exact ⟨h,List.mem_of_find?_eq_some hfind,hlabel,rfl,rfl,rfl,fun _ _ => rfl⟩
  | none =>
    have hnew : ∀ t ∈ v.tags, (v.tag t).label ≠ label := by
      intro t ht
      simpa using List.find?_eq_none.mp hfind t ht
    refine ⟨h.newTag hnew,List.mem_cons_self,?_,rfl,rfl,rfl,?_⟩
    · simp [Tagging.newTag]
    · intro t ht
      exact Function.update_of_ne (h.tags_lt t ht).ne _ _

theorem Sound.findOrNew_free {v : Tagging} (h : v.Sound) {g : GatewayRef} {label : List UInt8}
    (hg : g ∈ v.gateways) (hfree : v.LabelFree g label) :
    ∀ s ∈ ((v.findOrNew label).1.tag (v.findOrNew label).2).sites, s.gw ≠ g := by
  unfold Tagging.findOrNew
  cases hfind : v.tags.find? (fun t => (v.tag t).label = label) with
  | some t =>
    have hlabel : (v.tag t).label = label := by simpa using List.find?_some hfind
    exact hfree.no_site h.toLinked hg (List.mem_of_find?_eq_some hfind) hlabel
  | none => simp [Tagging.newTag]

/-- Those of the ids that the gateway does not know yet. -/
def newIds (v : Tagging) (g : GatewayRef) (ids : List ℕ) : List ℕ :=
  ids.filter (fun id => !hasTagId (v.tagIds g) id)

/-- At most one of the ids is new to the gateway, and then the gateway has no tag with
the label yet. -/
def Introducible (v : Tagging) (g : GatewayRef) (label : List UInt8) (ids : List ℕ) : Prop :=
  v.newIds g ids = [] ∨ (v.newIds g ids).length = 1 ∧ v.LabelFree g label

theorem newIds_known {v : Tagging} {g : GatewayRef} {id : ℕ} (ids : List ℕ)
    (hbit : hasTagId (v.tagIds g) id = true) : v.newIds g (id :: ids) = v.newIds g ids := by
  simp [newIds,hbit]

theorem newIds_unknown {v : Tagging} {g : GatewayRef} {id : ℕ} (ids : List ℕ)
    (hbit : hasTagId (v.tagIds g) id = false) : v.newIds g (id :: ids) = id :: v.newIds g ids := by
  simp [newIds,hbit]

theorem newIds_introduced {v w : Tagging} {g : GatewayRef} {id : ℕ} {ids : List ℕ}
    (hid : id < maxTags) (hids : ∀ i ∈ ids, i < maxTags) (hnew : id ∉ ids)
    (hmask : w.tagIds g = v.tagIds g ||| tagIdToValue id) : w.newIds g ids = v.newIds g ids := by
  refine List.filter_congr (fun i hi => ?_)
  have hne : i ≠ id := fun heq => hnew (heq ▸ hi)
  rw [hasTagId_eq (hids i hi),hasTagId_eq (hids i hi),hmask,BitVec.getLsbD_or,
    getLsbD_tagIdToValue hid]
  simp [hne]

theorem introducible_cons_unknown {v : Tagging} {g : GatewayRef} {id : ℕ} {label : List UInt8}
    {ids : List ℕ} (hbit : hasTagId (v.tagIds g) id = false) :
    v.Introducible g label (id :: ids) ↔ v.newIds g ids = [] ∧ v.LabelFree g label := by
  unfold Introducible
  rw [newIds_unknown ids hbit,List.length_cons]
  simp

/-- A label packet that keeps the registry sound: it forgets ids, or the ids it names can
be introduced. -/
def Acceptable (v : Tagging) (g : GatewayRef) (pkt : TagLabels) : Prop :=
  cString pkt.label.toList = [] ∨ v.Introducible g (cString pkt.label.toList) (foreachTagId pkt.tags)

end Tagging

namespace Daemon

open Tagging

theorem tagging_findOrAllocateTag {d : Daemon} {label : List UInt8} (h : label.length < labelSize) :
    (d.findOrAllocateTag label true).1.tagging = (d.tagging.findOrNew label).1 ∧
    (d.findOrAllocateTag label true).2 = some (d.tagging.findOrNew label).2 := by
  unfold findOrAllocateTag Tagging.findOrNew
  have hfind : d.findTag label = d.tagging.tags.find? (fun t => (d.tagging.tag t).label = label) := rfl
  rw [hfind]
  cases d.tagging.tags.find? (fun t => (d.tagging.tag t).label = label) with
  | some t => exact ⟨rfl,rfl⟩
  | none => exact ⟨tagging_allocateTag h,rfl⟩

theorem check_short (d : Daemon) {label : List UInt8} (hlabel : label.length < labelSize) :
    d.check (label.length < labelSize) (.longLabel label) = d := by
  simp [check,hlabel]

theorem bit_of_none {d : Daemon} {g : GatewayRef} {id : ℕ} (h : d.tagging.Sound) (hg : g ∈ d.gateways)
    (hid : id < maxTags) (hnone : (d.gw g).tags id = none) : hasTagId (d.gw g).tagIds id = false := by
  have hiff : hasTagId (d.gw g).tagIds id = ((d.gw g).tags id).isSome := h.bit_iff hg hid
  rw [hiff,hnone]
  rfl

/-- Introducing a free id for a label the gateway does not have yet. -/
theorem tagging_allocateTagId {d : Daemon} {g : GatewayRef} {id : ℕ} {label : List UInt8}
    (h : d.tagging.Sound) (hg : g ∈ d.gateways) (hid : id < maxTags) (hlabel : label.length < labelSize)
    (hnone : (d.gw g).tags id = none)
    (hsites : ∀ s ∈ ((d.tagging.findOrNew label).1.tag (d.tagging.findOrNew label).2).sites, s.gw ≠ g) :
    (d.allocateTagId g id label true true).1.tagging =
      ((d.tagging.findOrNew label).1.attach (d.tagging.findOrNew label).2 g id).setEntry g id
        (d.tagging.findOrNew label).2 ∧
    (d.allocateTagId g id label true true).2 = id := by
  have hneg : (id : ℤ) ≠ -1 := by omega
  have hbit := bit_of_none h hg hid hnone
  have hcheck := check_short d hlabel
  obtain ⟨hview,hres⟩ := tagging_findOrAllocateTag (d := d) hlabel
  unfold allocateTagId
  simp only [if_neg hneg,Int.toNat_natCast,hbit,Bool.false_eq_true,if_false,incref,hcheck]
  generalize d.findOrAllocateTag label true = s at hview hres
  obtain ⟨d₁,o⟩ := s
  simp only at hview hres
  subst hres
  generalize hw : d.tagging.findOrNew label = w at hview hsites
  obtain ⟨w₁,t⟩ := w
  simp only at hview hsites
  have hfind : findSite (d₁.tag t).sites g = none := by
    refine List.find?_eq_none.mpr (fun s hs => ?_)
    have htag : d₁.tag = w₁.tag := congrArg Tagging.tag hview
    rw [htag] at hs
    simpa using hsites s hs
  simp only [addSite,hfind,if_true]
  rw [tagging_setTag]
  have hattach : (d₁.modifyTag t (·.addSite id g)).tagging = d₁.tagging.attach t g id := rfl
  rw [hattach,hview]
  exact ⟨rfl,trivial⟩

/-- Introducing a second id for a label the gateway already has fails the assertion that
the site of the gateway has the new id. -/
theorem allocateTagId_taken {d : Daemon} {g : GatewayRef} {id : ℕ} {label : List UInt8}
    (h : d.tagging.Sound) (hg : g ∈ d.gateways) (hid : id < maxTags) (hlabel : label.length < labelSize)
    (hnone : (d.gw g).tags id = none) (htaken : ¬ d.tagging.LabelFree g label) :
    ∃ t, .siteTagId t g id ∈ (d.allocateTagId g id label true true).1.faults := by
  simp only [LabelFree,not_forall,not_not] at htaken
  obtain ⟨id',t,hentry,htl⟩ := htaken
  obtain ⟨ht,hsite⟩ := (h.entries g hg id' t).mp hentry
  have hne : id' ≠ id := by
    rintro rfl
    rw [show d.tagging.table g id' = (d.gw g).tags id' from rfl,hnone] at hentry
    cases hentry
  have hneg : (id : ℤ) ≠ -1 := by omega
  have hbit := bit_of_none h hg hid hnone
  have hcheck := check_short d hlabel
  have hfind : d.findTag label = some t := by
    have hkey := KeyedList.find?_key h.labels ht
    rw [htl] at hkey
    exact hkey
  have hsites : findSite (d.tag t).sites g = some ⟨id',g⟩ :=
    KeyedList.find?_key (f := Site.gw)
      (fun x hx y hy => List.inj_on_of_nodup_map (h.sites_nodup t ht) hx hy) hsite
  unfold allocateTagId
  simp only [if_neg hneg,Int.toNat_natCast,hbit,Bool.false_eq_true,if_false,incref,hcheck,
    findOrAllocateTag,hfind,addSite,hsites]
  refine ⟨t,?_⟩
  simp [modifyGw,check,fault,hne]

theorem allocateTagId_known {d : Daemon} {g : GatewayRef} {id : ℕ} (label : List UInt8)
    (hbit : hasTagId (d.gw g).tagIds id = true) : d.allocateTagId g id label true true = (d,(id : ℤ)) := by
  have hneg : (id : ℤ) ≠ -1 := by omega
  unfold allocateTagId
  simp only [if_neg hneg,Int.toNat_natCast,hbit,if_true]

/-- Introducing one id: what the gateway knows afterwards. -/
theorem allocateTagId_new {d : Daemon} {g : GatewayRef} {id : ℕ} {label : List UInt8}
    (h : d.tagging.Sound) (hg : g ∈ d.gateways) (hid : id < maxTags) (hlabel : label.length < labelSize)
    (hbit : hasTagId (d.gw g).tagIds id = false) (hfree : d.tagging.LabelFree g label) :
    ∃ d', d' = (d.allocateTagId g id label true true).1 ∧ d'.tagging.Sound ∧ g ∈ d'.gateways ∧
      ¬ d'.tagging.LabelFree g label ∧ (d'.gw g).tagIds = (d.gw g).tagIds ||| tagIdToValue id := by
  have hnone : (d.gw g).tags id = none := by
    have hiff : hasTagId (d.gw g).tagIds id = ((d.gw g).tags id).isSome := h.bit_iff hg hid
    rw [hbit] at hiff
    exact Option.isNone_iff_eq_none.mp (by simpa using hiff.symm)
  obtain ⟨hview,-⟩ := tagging_allocateTagId h hg hid hlabel hnone (h.findOrNew_free hg hfree)
  obtain ⟨hsound,ht,htl,htable,hmask,hgws,-⟩ := h.findOrNew label
  have hnosite := h.findOrNew_free hg hfree
  generalize d.tagging.findOrNew label = w at hview hsound ht htl htable hmask hgws hnosite
  obtain ⟨v,t⟩ := w
  simp only at hview hsound ht htl htable hmask hgws hnosite
  generalize (d.allocateTagId g id label true true).1 = d' at hview
  refine ⟨d',rfl,?_,?_,?_,?_⟩
  · rw [hview]
    exact hsound.link (hgws ▸ hg) hid ht hnosite ((congrFun₂ htable g id).trans hnone)
  · have hgws' : d'.gateways = v.gateways := congrArg Tagging.gateways hview
    rw [hgws',hgws]
    exact hg
  · intro hfree'
    rw [hview] at hfree'
    refine hfree' id t ?_ ?_
    · simp [Tagging.setEntry]
    · simpa [Tagging.setEntry,Tagging.attach,Tag.addSite] using htl
  · have hmask' : (d'.gw g).tagIds = _ := congrFun (congrArg Tagging.tagIds hview) g
    rw [hmask']
    simp only [Tagging.setEntry,Function.update_self]
    exact congrArg (· ||| tagIdToValue id) (congrFun hmask g)

/-- The loop of the handler of a label packet with a label: it keeps the registry sound
where the ids can be introduced, and fails an assertion where they cannot. -/
theorem handleTagLabels_labelled {d : Daemon} {g : GatewayRef} {env : Env} {label : List UInt8}
    (hne : label ≠ []) (hlabel : label.length < labelSize) (htagOk : ∀ i, env.tagOk i = true)
    (hsiteOk : ∀ i, env.siteOk i = true) {ids : List ℕ} (hnodup : ids.Nodup)
    (hids : ∀ i ∈ ids, i < maxTags) (h : d.tagging.Sound) (hg : g ∈ d.gateways) :
    (d.tagging.Introducible g label ids → (ids.foldl (handleTagLabel g env label) d).tagging.Sound) ∧
    (¬ d.tagging.Introducible g label ids →
      ∃ t id, .siteTagId t g id ∈ (ids.foldl (handleTagLabel g env label) d).faults) := by
  induction ids generalizing d with
  | nil => exact ⟨fun _ => h,fun hnot => (hnot (Or.inl rfl)).elim⟩
  | cons id ids ih =>
    obtain ⟨hnew,hnodup⟩ := List.nodup_cons.mp hnodup
    have hid : id < maxTags := hids id List.mem_cons_self
    have hids' : ∀ i ∈ ids, i < maxTags := fun i hi => hids i (List.mem_cons_of_mem _ hi)
    have hstep : handleTagLabel g env label d id = (d.allocateTagId g id label true true).1 := by
      rw [handleTagLabel,if_pos hne,htagOk,hsiteOk]
    rw [List.foldl_cons,hstep]
    cases hbit : hasTagId (d.gw g).tagIds id with
    | true =>
      rw [allocateTagId_known label hbit]
      have hsame : d.tagging.Introducible g label (id :: ids) ↔ d.tagging.Introducible g label ids := by
        rw [Introducible,newIds_known ids hbit]
        rfl
      rw [hsame]
      exact ih hnodup hids' h hg
    | false =>
      rw [introducible_cons_unknown hbit]
      by_cases hfree : d.tagging.LabelFree g label
      · obtain ⟨d',hd',hsound,hg',hused,hmask⟩ := allocateTagId_new h hg hid hlabel hbit hfree
        rw [← hd']
        have hrest : d'.tagging.Introducible g label ids ↔ d.tagging.newIds g ids = [] := by
          rw [Introducible,newIds_introduced (v := d.tagging) hid hids' hnew hmask]
          simp [hused]
        have hih := ih hnodup hids' hsound hg'
        rw [hrest] at hih
        exact ⟨fun hi => hih.1 hi.1,fun hnot => hih.2 (fun hi => hnot ⟨hi,hfree⟩)⟩
      · have hnone : (d.gw g).tags id = none := by
          have hiff : hasTagId (d.gw g).tagIds id = ((d.gw g).tags id).isSome := h.bit_iff hg hid
          rw [hbit] at hiff
          exact Option.isNone_iff_eq_none.mp (by simpa using hiff.symm)
        obtain ⟨t,ht⟩ := allocateTagId_taken h hg hid hlabel hnone hfree
        exact ⟨fun hi => (hfree hi.2).elim,
          fun _ => ⟨t,id,faults_tags.foldl_handleTagLabel (Set.mem_univ _) g env _ ids ht⟩⟩

theorem handleTagLabels_unlabelled {d : Daemon} {g : GatewayRef} {env : Env} {ids : List ℕ}
    (hids : ∀ i ∈ ids, i < maxTags) (h : d.tagging.Sound) (hg : g ∈ d.gateways) :
    (ids.foldl (handleTagLabel g env []) d).tagging.Sound := by
  induction ids generalizing d with
  | nil => exact h
  | cons id ids ih =>
    have hids' : ∀ i ∈ ids, i < maxTags := fun i hi => hids i (List.mem_cons_of_mem _ hi)
    have hid : id < maxTags := hids id List.mem_cons_self
    have hstep : handleTagLabel g env [] d id =
        if ((d.gw g).tags id).isSome then d.deallocateTagId g id else d := by
      simp [handleTagLabel]
    rw [List.foldl_cons,hstep]
    split
    · have hdev : (d.deallocateTagId g id).devices = d.devices := devices_tags.deallocateTagId d g id
      have hgws : (d.deallocateTagId g id).gateways = d.gateways := congrArg Devices.gateways hdev
      exact ih hids' (sound_deallocateTagId h hg hid) (hgws ▸ hg)
    · exact ih hids' h hg

theorem sound_handleTagLabels {d : Daemon} {g : GatewayRef} {env : Env} {pkt : TagLabels}
    (hlabel : (cString pkt.label.toList).length < labelSize) (htagOk : ∀ i, env.tagOk i = true)
    (hsiteOk : ∀ i, env.siteOk i = true) (h : d.tagging.Sound) (hg : g ∈ d.gateways) :
    (d.tagging.Acceptable g pkt → (d.handleTagLabels g env pkt).tagging.Sound) ∧
    (¬ d.tagging.Acceptable g pkt →
      ∃ t id, .siteTagId t g id ∈ (d.handleTagLabels g env pkt).faults) := by
  have hids : ∀ i ∈ foreachTagId pkt.tags, i < maxTags := fun i hi => lt_of_mem_foreachTagId hi
  unfold handleTagLabels Acceptable
  by_cases hempty : cString pkt.label.toList = []
  · rw [hempty]
    exact ⟨fun _ => handleTagLabels_unlabelled hids h hg,fun hnot => (hnot (Or.inl rfl)).elim⟩
  · obtain ⟨hsound,hfault⟩ := handleTagLabels_labelled hempty hlabel htagOk hsiteOk
      (foreachTagId_nodup pkt.tags) hids h hg
    exact ⟨fun hacc => hsound (hacc.resolve_left hempty),
      fun hnot => hfault (fun hintro => hnot (Or.inr hintro))⟩

end Daemon
end Lightsd.Lifx
