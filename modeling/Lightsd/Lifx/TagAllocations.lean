import Lightsd.Lifx.TagHandlers

/-! # Label packets when memory is short

Whatever allocations fail while a label packet is handled, the registry of tags stays
sound, unless the assertion about the id of an existing site fails.
-/
namespace Lightsd.Lifx.Daemon

open Tagging

section Allocation
variable {d : Daemon} {g : GatewayRef} {id : ℕ} {label : List UInt8}

theorem hasTagId_of_none (h : d.tagging.Sound) (hg : g ∈ d.gateways) (hid : id < maxTags) :
    hasTagId (d.gw g).tagIds id = false ↔ (d.gw g).tags id = none := by
  have hiff : hasTagId (d.gw g).tagIds id = ((d.gw g).tags id).isSome := h.bit_iff hg hid
  rw [hiff]
  simp

/-- Memory for a tag is only needed where there is none with the label. -/
theorem allocateTagId_tagOk (hfind : (d.findTag label).isSome = true) (hlabel : label.length < labelSize)
    (tagId : ℤ) (tagOk siteOk : Bool) :
    d.allocateTagId g tagId label tagOk siteOk = d.allocateTagId g tagId label true siteOk := by
  obtain ⟨t,ht⟩ := Option.isSome_iff_exists.mp hfind
  simp [allocateTagId,incref,check_short d hlabel,findOrAllocateTag,ht]

/-- Memory for a site is only needed where the tag has none for the gateway. -/
theorem allocateTagId_siteOk {t : TagRef} (hfind : d.findTag label = some t)
    (hsite : (findSite (d.tag t).sites g).isSome = true) (hlabel : label.length < labelSize)
    (tagId : ℤ) (tagOk siteOk : Bool) :
    d.allocateTagId g tagId label tagOk siteOk = d.allocateTagId g tagId label true true := by
  obtain ⟨s,hs⟩ := Option.isSome_iff_exists.mp hsite
  simp [allocateTagId,incref,check_short d hlabel,findOrAllocateTag,hfind,addSite,hs]

/-- Nothing is left of an allocation that fails. -/
theorem allocateTagId_fails (hbit : hasTagId (d.gw g).tagIds id = false) (hlabel : label.length < labelSize)
    {tagOk siteOk : Bool} (hsites : ∀ t, d.findTag label = some t → findSite (d.tag t).sites g = none)
    (hfail : siteOk = false ∨ d.findTag label = none ∧ tagOk = false) :
    (d.allocateTagId g id label tagOk siteOk).2 = -1 ∧
      ((d.allocateTagId g id label tagOk siteOk).1 = d ∨
        d.findTag label = none ∧ (d.allocateTagId g id label tagOk siteOk).1.tagging =
          (d.tagging.newTag label).dropTag d.nextTag) := by
  have hneg : (id : ℤ) ≠ -1 := by omega
  cases hfind : d.findTag label with
  | some t =>
    have hsite : siteOk = false := by simpa [hfind] using hfail
    simp [allocateTagId,hneg,hbit,incref,check_short d hlabel,findOrAllocateTag,hfind,addSite,hsites t hfind,hsite]
  | none =>
    cases tagOk with
    | false => simp [allocateTagId,hneg,hbit,incref,check_short d hlabel,findOrAllocateTag,hfind]
    | true =>
      have hsite : siteOk = false := by simpa using hfail
      have hempty : ((d.allocateTag label).tag d.nextTag).sites = [] := by
        simp [allocateTag,check_short d hlabel]
      have hdrop := tagging_deallocateTag hempty
      rw [tagging_allocateTag hlabel] at hdrop
      have hnone : findSite ((d.allocateTag label).tag d.nextTag).sites g = none := by
        rw [hempty]
        rfl
      simp [allocateTagId,hneg,hbit,incref,check_short d hlabel,findOrAllocateTag,hfind,addSite,hnone,hsite,hdrop]

/-- An allocation that does not fail is as good as one with all the memory there is. -/
theorem allocateTagId_enough (hlabel : label.length < labelSize) {tagOk siteOk : Bool}
    (hsite : siteOk = true) (htag : d.findTag label = none → tagOk = true) (tagId : ℤ) :
    d.allocateTagId g tagId label tagOk siteOk = d.allocateTagId g tagId label true true := by
  subst hsite
  cases hfind : d.findTag label with
  | some t => exact allocateTagId_tagOk (by simp [hfind]) hlabel _ _ _
  | none => rw [htag hfind]

theorem findSite_none_of_labelFree (h : d.tagging.Sound) (hg : g ∈ d.gateways)
    (hfree : d.tagging.LabelFree g label) {t : TagRef} (hfind : d.findTag label = some t) :
    findSite (d.tag t).sites g = none := by
  have ht : t ∈ d.tags := List.mem_of_find?_eq_some hfind
  have hlabel : (d.tag t).label = label := by simpa using List.find?_some hfind
  refine List.find?_eq_none.mpr (fun s hs => ?_)
  simpa using hfree.no_site h.toLinked hg ht hlabel s hs

theorem findSite_some_of_taken (h : d.tagging.Sound) (hg : g ∈ d.gateways)
    (htaken : ¬ d.tagging.LabelFree g label) :
    ∃ t, d.findTag label = some t ∧ (findSite (d.tag t).sites g).isSome = true := by
  simp only [LabelFree,not_forall,not_not] at htaken
  obtain ⟨id',t,hentry,htl⟩ := htaken
  obtain ⟨ht,hsite⟩ := (h.entries g hg id' t).mp hentry
  refine ⟨t,?_,?_⟩
  · have hkey := KeyedList.find?_key h.labels ht
    rwa [htl] at hkey
  · exact List.find?_isSome.mpr ⟨_,hsite,by simp⟩

/-- The registry stays sound whether memory is found or not, or the assertion fails. -/
theorem sound_allocateTagId (h : d.tagging.Sound) (hg : g ∈ d.gateways) (hid : id < maxTags)
    (hlabel : label.length < labelSize) (tagOk siteOk : Bool) :
    (d.allocateTagId g id label tagOk siteOk).1.tagging.Sound ∨
      ∃ t, .siteTagId t g id ∈ (d.allocateTagId g id label tagOk siteOk).1.faults := by
  cases hbit : hasTagId (d.gw g).tagIds id with
  | true =>
    have hneg : (id : ℤ) ≠ -1 := by omega
    left
    simpa [allocateTagId,hneg,hbit] using h
  | false =>
    by_cases hfree : d.tagging.LabelFree g label
    · left
      by_cases hfail : siteOk = false ∨ d.findTag label = none ∧ tagOk = false
      · obtain ⟨-,heq | ⟨hnone,heq⟩⟩ := allocateTagId_fails hbit hlabel
          (fun t hfind => findSite_none_of_labelFree h hg hfree hfind) hfail
        · simpa [heq] using h
        · rw [heq]
          have hnew : ∀ t ∈ d.tags, (d.tag t).label ≠ label := by
            simpa [findTag] using hnone
          exact (h.newTag hnew).dropTag (by simp [Tagging.newTag,tagging])
      · have hsite : siteOk = true := by simpa using fun hf => hfail (Or.inl hf)
        have htag : d.findTag label = none → tagOk = true := by
          simpa using fun hfind hf => hfail (Or.inr ⟨hfind,hf⟩)
        have hsame := allocateTagId_enough (g := g) hlabel hsite htag id
        obtain ⟨d',hd',hsound,-⟩ := allocateTagId_new h hg hid hlabel hbit hfree
        rw [hsame,← hd']
        exact hsound
    · right
      obtain ⟨t,hfind,hsite⟩ := findSite_some_of_taken h hg hfree
      rw [allocateTagId_siteOk hfind hsite hlabel]
      exact allocateTagId_taken h hg hid hlabel ((hasTagId_of_none h hg hid).mp hbit) hfree

end Allocation

/-- One round of the loop over the ids of a label packet. -/
theorem sound_handleTagLabel {d : Daemon} {g : GatewayRef} {id : ℕ} {label : List UInt8} (env : Env)
    (h : d.tagging.Sound) (hg : g ∈ d.gateways) (hid : id < maxTags) (hlabel : label.length < labelSize) :
    (handleTagLabel g env label d id).tagging.Sound ∨
      ∃ t, .siteTagId t g id ∈ (handleTagLabel g env label d id).faults := by
  unfold handleTagLabel
  split
  · exact sound_allocateTagId h hg hid hlabel _ _
  · split
    · exact Or.inl (sound_deallocateTagId h hg hid)
    · exact Or.inl h

theorem handleTagLabel_gateways (g : GatewayRef) (env : Env) (label : List UInt8) (d : Daemon) (id : ℕ) :
    (handleTagLabel g env label d id).gateways = d.gateways := by
  unfold handleTagLabel
  split
  · exact congrArg Devices.gateways (devices_tags.allocateTagId (Set.mem_univ _) d g id _ _)
  · split
    · exact congrArg Devices.gateways (devices_tags.deallocateTagId d g id)
    · rfl

/-- The handler of label packets, with any allocations failing. -/
theorem sound_handleTagLabels_env {d : Daemon} {g : GatewayRef} (env : Env) {label : List UInt8}
    (hlabel : label.length < labelSize) {ids : List ℕ} (hids : ∀ i ∈ ids, i < maxTags)
    (h : d.tagging.Sound) (hg : g ∈ d.gateways) :
    (ids.foldl (handleTagLabel g env label) d).tagging.Sound ∨
      ∃ t id, .siteTagId t g id ∈ (ids.foldl (handleTagLabel g env label) d).faults := by
  induction ids generalizing d with
  | nil => exact Or.inl h
  | cons id ids ih =>
    have hids' : ∀ i ∈ ids, i < maxTags := fun i hi => hids i (List.mem_cons_of_mem _ hi)
    rw [List.foldl_cons]
    rcases sound_handleTagLabel env h hg (hids id List.mem_cons_self) hlabel with hsound | ⟨t,hfault⟩
    · exact ih hids' hsound (by rw [handleTagLabel_gateways]; exact hg)
    · exact Or.inr ⟨t,id,faults_tags.foldl_handleTagLabel (Set.mem_univ _) g env _ ids hfault⟩

theorem sound_dispatch_env {d : Daemon} {now : Time} {g : GatewayRef} {info : PacketInfo} {hdr : Header}
    {pkt : Buffer} (env : Env) (h : d.tagging.Sound) (hg : g ∈ d.gateways) :
    (d.dispatch now g info hdr pkt env).tagging.Sound ∨
      ∃ t id, .siteTagId t g id ∈ (d.dispatch now g info hdr pkt env).faults := by
  by_cases hinfo : info.handle = .tagLabels
  · obtain ⟨d',hsilent,heq⟩ := exists_dispatch d now g info hdr pkt env
    have hgws : d'.gateways = d.gateways := congrArg Devices.gateways hsilent.devices
    rw [← hsilent.tagging] at h
    rw [heq,hinfo]
    exact sound_handleTagLabels_env env (label_decodeTagLabels pkt)
      (fun i hi => lt_of_mem_foreachTagId hi) h (hgws ▸ hg)
  · left
    rw [tagging_dispatch hinfo]
    exact h

theorem sound_handlePacket_env {d : Daemon} {now : Time} {gw : Option GatewayRef} {peer : SockAddr}
    {info : PacketInfo} {hdr : Header} {pkt : Buffer} (env : Env)
    (h : d.tagging.Sound) (hg : ∀ g, gw = some g → g ∈ d.gateways) :
    (d.handlePacket now gw peer info hdr pkt env).tagging.Sound ∨
      ∃ t g id, .siteTagId t g id ∈ (d.handlePacket now gw peer info hdr pkt env).faults := by
  have hwith : ∀ {d : Daemon} {g : GatewayRef}, d.tagging.Sound → g ∈ d.gateways →
      (d.dispatch now g info hdr pkt env).tagging.Sound ∨
        ∃ t g' id, .siteTagId t g' id ∈ (d.dispatch now g info hdr pkt env).faults := by
    intro d g h hg
    rcases sound_dispatch_env env h hg with hsound | ⟨t,id,hfault⟩
    · exact Or.inl hsound
    · exact Or.inr ⟨t,g,id,hfault⟩
  unfold handlePacket
  cases gw with
  | some g =>
    have hsilent : Silent d (d.check ((d.gw g).peer = peer) (.peerMismatch g)) :=
      silent_check (by simp) rfl rfl
    have hgws : (d.check ((d.gw g).peer = peer) (.peerMismatch g)).gateways = d.gateways :=
      congrArg Devices.gateways hsilent.devices
    exact hwith (hsilent.tagging ▸ h) (hgws ▸ hg g rfl)
  | none =>
    cases hget : d.gatewayGet peer with
    | some g => exact hwith h (mem_of_gatewayGet hget)
    | none =>
      simp only
      split
      · rename_i hopen
        refine hwith ?_ ?_
        · rw [tagging_gatewayOpen]
          exact h.openGateway
        · have hview := tagging_gatewayOpen d peer hdr.site now
          have hgws : (d.gatewayOpen peer hdr.site now).gateways = d.nextGw :: d.gateways :=
            congrArg Tagging.gateways hview
          rw [hgws]
          exact List.mem_cons_self
      · exact Or.inl h

theorem sound_handleReceive_env {d : Daemon} (now : Time) (gw : Option GatewayRef) (dg : Datagram)
    (env : Env) (h : d.tagging.Sound) (hg : ∀ g, gw = some g → g ∈ d.gateways) :
    (d.handleReceive now gw dg env).1.tagging.Sound ∨
      ∃ t g id, .siteTagId t g id ∈ (d.handleReceive now gw dg env).1.faults := by
  unfold handleReceive
  cases hrecv : dg.receive with
  | error => exact Or.inl h
  | ignored => exact Or.inl h
  | packet info hdr => exact sound_handlePacket_env env h hg

end Lightsd.Lifx.Daemon
