import Lightsd.Lifx.PayloadReads

/-! # Reading the labels of tags

A packet with tag labels does nothing for the ids a gateway has already, unless its label
is empty, and then forgets those it has a tag for. For an id the gateway does not have, the
label it carried can be read off the tag the gateway has for the id afterwards. In an
arbitrary state another tag may be overwritten on the way, but with the same label.
-/
namespace Lightsd.Lifx

theorem hasTagId_or (mask : TagMask) {id id' : ℕ} (hid : id < 64) (hne : id' ≠ id) (hid' : id' < 64) :
    hasTagId (mask ||| tagIdToValue id') id = hasTagId mask id := by
  rw [hasTagId_eq hid,hasTagId_eq hid,BitVec.getLsbD_or,getLsbD_tagIdToValue hid']
  simp [Ne.symm hne]

theorem hasTagId_and_not (mask : TagMask) {id id' : ℕ} (hid : id < 64) (hid' : id' < 64) :
    hasTagId (mask &&& ~~~tagIdToValue id') id = (hasTagId mask id && decide (id' ≠ id)) := by
  rw [hasTagId_eq hid,hasTagId_eq hid,BitVec.getLsbD_and,BitVec.getLsbD_not,getLsbD_tagIdToValue hid']
  simp [hid,eq_comm]

namespace Daemon

/-- What a gateway knows about a tag id. -/
def slot (d : Daemon) (g : GatewayRef) (id : ℕ) : Bool × Option TagRef :=
  (hasTagId (d.gw g).tagIds id,(d.gw g).tags id)

/-- The gateway has a tag with the given label for the id. -/
def Named (d : Daemon) (g : GatewayRef) (id : ℕ) (label : List UInt8) : Prop :=
  ∃ t, (d.gw g).tags id = some t ∧ (d.tag t).label = label

variable {d : Daemon} {g : GatewayRef} {id : ℕ} {label : List UInt8} {env : Env}

theorem Named.unique {label' : List UInt8} (h : d.Named g id label) (h' : d.Named g id label') :
    label = label' := by
  obtain ⟨t,ht,hl⟩ := h
  obtain ⟨t',ht',hl'⟩ := h'
  cases ht.symm.trans ht'
  exact hl.symm.trans hl'

theorem handleTagLabel_known (h : hasTagId (d.gw g).tagIds id = true)
    (hlabel : label ≠ [] ∨ (d.gw g).tags id = none) : handleTagLabel g env label d id = d := by
  have hneg : (id : ℤ) ≠ -1 := by omega
  unfold handleTagLabel
  by_cases hnil : label = []
  · have hnone : (d.gw g).tags id = none := hlabel.resolve_left (not_not.mpr hnil)
    simp [hnil,hnone]
  · simp only [if_pos hnil,allocateTagId,if_neg hneg,Int.toNat_natCast,h,if_true]

/-- A free id is given to the tag with the label, which may be a new one. -/
theorem handleTagLabel_free (h : hasTagId (d.gw g).tagIds id = false) (hne : label ≠ [])
    (hlen : label.length < labelSize) :
    ∃ t, (handleTagLabel g {} label d id).gw = Function.update d.gw g ((d.gw g).setTag id t) ∧
      ((handleTagLabel g {} label d id).tag t).label = label ∧
      ∀ x, ((handleTagLabel g {} label d id).tag x).label = (d.tag x).label ∨
        ((handleTagLabel g {} label d id).tag x).label = label := by
  have hneg : (id : ℤ) ≠ -1 := by omega
  have hcheck : d.check (label.length < labelSize) (.longLabel label) = d := by
    rw [check,if_pos (decide_eq_true hlen)]
  have htake : label.take (labelSize - 1) = label := List.take_of_length_le (by omega)
  have hfound : ∃ d₁ t, d.findOrAllocateTag label true = (d₁,some t) ∧ d₁.gw = d.gw ∧
      (d₁.tag t).label = label ∧ ∀ x, (d₁.tag x).label = (d.tag x).label ∨ (d₁.tag x).label = label := by
    unfold findOrAllocateTag
    cases hfind : d.findTag label with
    | some t =>
      have hlabel : (d.tag t).label = label := by simpa using List.find?_some hfind
      exact ⟨d,t,rfl,rfl,hlabel,fun x => Or.inl rfl⟩
    | none =>
      refine ⟨d.allocateTag label,d.nextTag,rfl,?_,?_,fun x => ?_⟩
      · simp [allocateTag,hcheck]
      · simp [allocateTag,hcheck,htake]
      · by_cases hx : x = d.nextTag
        · right
          simp [allocateTag,hcheck,htake,hx]
        · left
          simp [allocateTag,hcheck,hx]
  obtain ⟨d₁,t,hfind,hgw,hlabel,hothers⟩ := hfound
  have hsite : ∃ d₂, d₁.addSite t g id (d.findTag label).isNone true = (d₂,some t) ∧ d₂.gw = d₁.gw ∧
      ∀ x, (d₂.tag x).label = (d₁.tag x).label := by
    unfold addSite
    cases findSite (d₁.tag t).sites g with
    | some site =>
      refine ⟨_,rfl,?_,fun x => ?_⟩
      · cases decide (site.tagId = id) <;> rfl
      · cases decide (site.tagId = id) <;> rfl
    | none =>
      refine ⟨_,rfl,rfl,fun x => ?_⟩
      by_cases hx : x = t
      · subst hx
        simp [modifyTag,Tag.addSite]
      · simp [modifyTag,hx]
  obtain ⟨d₂,hadd,hgw₂,hlabels⟩ := hsite
  have heq : handleTagLabel g {} label d id = d₂.modifyGw g (·.setTag id t) := by
    unfold handleTagLabel
    simp only [if_pos hne,allocateTagId,if_neg hneg,Int.toNat_natCast,h,Bool.false_eq_true,if_false,
      incref,hcheck,hfind,hadd]
  rw [heq]
  refine ⟨t,?_,?_,fun x => ?_⟩
  · simp only [modifyGw,hgw₂,hgw]
  · exact (hlabels t).trans hlabel
  · have hx := hothers x
    rw [← hlabels x] at hx
    exact hx

theorem handleTagLabel_nil (h : hasTagId (d.gw g).tagIds id = true) {t : TagRef}
    (ht : (d.gw g).tags id = some t) :
    (handleTagLabel g env [] d id).gw = Function.update d.gw g ((d.gw g).clearTag id) := by
  have hdecref : (d.decref t g).gw = d.gw := by
    unfold decref
    simp only
    split
    · split
      · unfold deallocateTag
        simp only
        cases ((d.modifyTag t (·.removeSite g)).tag t).sites.isEmpty <;> rfl
      · rfl
    · rfl
  unfold handleTagLabel
  simp [ht,deallocateTagId,h,modifyGw,hdecref]

/-- All that one round can do to the table of the gateway. -/
theorem handleTagLabel_gw (d : Daemon) (g : GatewayRef) (id : ℕ) (hlen : label.length < labelSize) :
    (handleTagLabel g {} label d id).gw = d.gw ∨
    (∃ t, (handleTagLabel g {} label d id).gw = Function.update d.gw g ((d.gw g).setTag id t)) ∨
    (handleTagLabel g {} label d id).gw = Function.update d.gw g ((d.gw g).clearTag id) := by
  cases hbit : hasTagId (d.gw g).tagIds id with
  | false =>
    by_cases hnil : label = []
    · left
      simp [handleTagLabel,hnil,deallocateTagId,hbit]
    · obtain ⟨t,hgw,-⟩ := handleTagLabel_free hbit hnil hlen
      exact Or.inr (Or.inl ⟨t,hgw⟩)
  | true =>
    cases htag : (d.gw g).tags id with
    | none => exact Or.inl (by rw [handleTagLabel_known hbit (Or.inr htag)])
    | some t =>
      by_cases hnil : label = []
      · subst hnil
        exact Or.inr (Or.inr (handleTagLabel_nil hbit htag))
      · exact Or.inl (by rw [handleTagLabel_known hbit (Or.inl hnil)])

theorem slot_handleTagLabel {id' : ℕ} (hlen : label.length < labelSize) (hid : id < 64) (hid' : id' < 64)
    (hne : id' ≠ id) : (handleTagLabel g {} label d id').slot g id = d.slot g id := by
  rcases handleTagLabel_gw d g id' hlen with hgw | ⟨t,hgw⟩ | hgw
  · simp [slot,hgw]
  · simp [slot,hgw,Gateway.setTag,hasTagId_or _ hid hne hid',Ne.symm hne]
  · simp [slot,hgw,Gateway.clearTag,hasTagId_and_not _ hid hid',Ne.symm hne,hne]

theorem slot_foldl {ids : List ℕ} (hlen : label.length < labelSize) (hid : id < 64)
    (hids : ∀ x ∈ ids, x < 64 ∧ x ≠ id) : (ids.foldl (handleTagLabel g {} label) d).slot g id = d.slot g id := by
  induction ids generalizing d with
  | nil => simp
  | cons x xs ih =>
    obtain ⟨hx,hne⟩ := hids x List.mem_cons_self
    have hrest := ih (d := handleTagLabel g {} label d x) (fun y hy => hids y (List.mem_cons_of_mem _ hy))
    rw [List.foldl_cons,hrest,slot_handleTagLabel hlen hid hx hne]

theorem Named.handleTagLabel (h : d.Named g id label) (hne : label ≠ []) (hlen : label.length < labelSize)
    (id' : ℕ) : (handleTagLabel g {} label d id').Named g id label := by
  obtain ⟨t,ht,hlabel⟩ := h
  cases hbit : hasTagId (d.gw g).tagIds id' with
  | true =>
    rw [handleTagLabel_known hbit (Or.inl hne)]
    exact ⟨t,ht,hlabel⟩
  | false =>
    obtain ⟨t',hgw,hnew,hothers⟩ := handleTagLabel_free hbit hne hlen
    by_cases hid : id = id'
    · subst hid
      exact ⟨t',by simp [hgw,Gateway.setTag],hnew⟩
    · refine ⟨t,by simpa [hgw,Gateway.setTag,hid] using ht,?_⟩
      rcases hothers t with hold | hsame
      · exact hold.trans hlabel
      · exact hsame

theorem Named.foldl (h : d.Named g id label) (hne : label ≠ []) (hlen : label.length < labelSize)
    (ids : List ℕ) : (ids.foldl (Daemon.handleTagLabel g {} label) d).Named g id label := by
  induction ids generalizing d with
  | nil => exact h
  | cons x xs ih => exact ih (h.handleTagLabel hne hlen x)

/-- The loop, split at the visit of one of its ids. -/
theorem handleTagLabels_split {pkt : TagLabels} (hmem : id ∈ foreachTagId pkt.tags)
    (hlen : (cString pkt.label.toList).length < labelSize) :
    ∃ (d₁ : Daemon) (ids : List ℕ), d₁.slot g id = d.slot g id ∧ (∀ x ∈ ids, x < 64 ∧ x ≠ id) ∧
      d.handleTagLabels g {} pkt =
        ids.foldl (handleTagLabel g {} (cString pkt.label.toList))
          (handleTagLabel g {} (cString pkt.label.toList) d₁ id) := by
  have hid := lt_of_mem_foreachTagId hmem
  have hlt : ∀ x ∈ foreachTagId pkt.tags, x < 64 := fun x hx => lt_of_mem_foreachTagId hx
  have hnodup := foreachTagId_nodup pkt.tags
  unfold handleTagLabels
  generalize foreachTagId pkt.tags = all at *
  obtain ⟨pre,post,rfl⟩ := List.append_of_mem hmem
  obtain ⟨-,hpost,hdisj⟩ := List.nodup_append.mp hnodup
  refine ⟨pre.foldl (handleTagLabel g {} (cString pkt.label.toList)) d,post,?_,?_,?_⟩
  · apply slot_foldl hlen hid
    intro x hx
    exact ⟨hlt x (List.mem_append_left _ hx),hdisj x hx id List.mem_cons_self⟩
  · intro x hx
    refine ⟨hlt x (List.mem_append_right _ (List.mem_cons_of_mem _ hx)),?_⟩
    rintro rfl
    exact (List.nodup_cons.mp hpost).1 hx
  · rw [List.foldl_append,List.foldl_cons]

section OneId
variable {pkt : TagLabels} (hmem : id ∈ foreachTagId pkt.tags)
  (hlen : (cString pkt.label.toList).length < labelSize)
include hmem hlen

/-- The gateway knows a free id by the label of the packet afterwards. -/
theorem handleTagLabels_free (hfree : hasTagId (d.gw g).tagIds id = false)
    (hne : cString pkt.label.toList ≠ []) :
    (d.handleTagLabels g {} pkt).Named g id (cString pkt.label.toList) := by
  obtain ⟨d₁,ids,hslot,-,heq⟩ := handleTagLabels_split (d := d) (g := g) hmem hlen
  have hbit : hasTagId (d₁.gw g).tagIds id = false := (congrArg Prod.fst hslot).trans hfree
  obtain ⟨t,hgw,hlabel,-⟩ := handleTagLabel_free hbit hne hlen
  rw [heq]
  apply Named.foldl _ hne hlen
  exact ⟨t,by simp [hgw,Gateway.setTag],hlabel⟩

theorem handleTagLabels_kept (hknown : hasTagId (d.gw g).tagIds id = true)
    (hne : cString pkt.label.toList ≠ []) :
    (d.handleTagLabels g {} pkt).slot g id = d.slot g id := by
  obtain ⟨d₁,ids,hslot,hids,heq⟩ := handleTagLabels_split (d := d) (g := g) hmem hlen
  have hbit : hasTagId (d₁.gw g).tagIds id = true := (congrArg Prod.fst hslot).trans hknown
  rw [heq,slot_foldl hlen (lt_of_mem_foreachTagId hmem) hids,handleTagLabel_known hbit (Or.inl hne),hslot]

theorem handleTagLabels_forgotten (hknown : hasTagId (d.gw g).tagIds id = true) {t : TagRef}
    (ht : (d.gw g).tags id = some t) (hnil : cString pkt.label.toList = []) :
    (d.handleTagLabels g {} pkt).slot g id = (false,none) := by
  have hid := lt_of_mem_foreachTagId hmem
  obtain ⟨d₁,ids,hslot,hids,heq⟩ := handleTagLabels_split (d := d) (g := g) hmem hlen
  have hbit : hasTagId (d₁.gw g).tagIds id = true := (congrArg Prod.fst hslot).trans hknown
  have htag : (d₁.gw g).tags id = some t := (congrArg Prod.snd hslot).trans ht
  rw [hnil] at hlen heq
  rw [heq,slot_foldl hlen hid hids]
  simp [slot,handleTagLabel_nil hbit htag,Gateway.clearTag,hasTagId_and_not _ hid hid]

end OneId

/-- Nothing is done for ids the gateway has already, when the label is not empty or there is
no tag to forget. -/
theorem handleTagLabels_known {pkt : TagLabels}
    (h : ∀ id ∈ foreachTagId pkt.tags, hasTagId (d.gw g).tagIds id = true ∧
      (cString pkt.label.toList ≠ [] ∨ (d.gw g).tags id = none)) :
    d.handleTagLabels g env pkt = d := by
  unfold handleTagLabels
  generalize foreachTagId pkt.tags = ids at h
  induction ids with
  | nil => rfl
  | cons id ids ih =>
    obtain ⟨hbit,hlabel⟩ := h id List.mem_cons_self
    rw [List.foldl_cons,handleTagLabel_known hbit hlabel]
    exact ih (fun x hx => h x (List.mem_cons_of_mem _ hx))

end Daemon
end Lightsd.Lifx
