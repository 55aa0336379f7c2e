import Lightsd.Core.OrphanTags
import Lightsd.Lifx.Outbox

/-! # Where the tag command places its tag

On the gateway of each bulb the tag keeps the id it has, or is given the lowest free one.
The loop over the bulbs links the tag to one gateway after the other and stops at a gateway
without either. Which id a tag has or would be given on a gateway is not changed by the loop.
-/
namespace Lightsd.Lifx

/-- The lowest id that is not in use on the gateway. -/
def Gateway.freeTagId (gw : Gateway) : Option ℕ :=
  (List.range maxTags).find? (fun id => !hasTagId gw.tagIds id)

/-- The id the gateway has or would choose for the tag. -/
def Gateway.tagIdFor (gw : Gateway) (t : TagRef) : Option ℕ := (gw.getTagId t).or gw.freeTagId

namespace Tagging

/-- A tag and a gateway that do not know each other are linked under a free id. -/
inductive Link (t : TagRef) : Tagging → Tagging → Prop
  | mk {v : Tagging} {g : GatewayRef} {id : ℕ} (hg : g ∈ v.gateways) (hid : id < maxTags)
      (hnew : ∀ s ∈ (v.tag t).sites, s.gw ≠ g) (hfree : v.table g id = none) :
      Link t v ((v.attach t g id).setEntry g id t)

abbrev Links (t : TagRef) : Tagging → Tagging → Prop := Relation.ReflTransGen (Link t)

theorem Links.sound {t : TagRef} {v w : Tagging} (h : Links t v w) (hv : v.Sound) (ht : t ∈ v.tags) :
    w.Sound ∧ t ∈ w.tags ∧ (w.tag t).label = (v.tag t).label ∧ w.tags = v.tags ∧ w.gateways = v.gateways := by
  induction h with
  | refl => exact ⟨hv,ht,rfl,rfl,rfl⟩
  | tail _ hlink ih =>
    obtain ⟨hsound,hmem,hlabel,htags,hgws⟩ := ih
    cases hlink with
    | mk hg hid hnew hfree =>
      refine ⟨hsound.link hg hid hmem hnew hfree,hmem,?_,htags,hgws⟩
      simpa [Tagging.setEntry,Tagging.attach,Tag.addSite] using hlabel

end Tagging

namespace Daemon

open Tagging Lightsd.Core BitScan

variable {d : Daemon} {g : GatewayRef} {t : TagRef} {id : ℕ} {label : List UInt8}

/-- The scan for a free id returns the lowest one. -/
theorem allocateTagId_free (d : Daemon) (g : GatewayRef) (label : List UInt8) :
    match (d.gw g).freeTagId with
    | none => d.allocateTagId g (-1) label true true = (d,-1)
    | some id => id < maxTags ∧ hasTagId (d.gw g).tagIds id = false ∧
        d.allocateTagId g (-1) label true true = d.allocateTagId g (id : ℕ) label true true := by
  cases hfree : (d.gw g).freeTagId with
  | none =>
    have hall : ∀ id < maxTags, hasTagId (d.gw g).tagIds id = true := by
      simpa [Gateway.freeTagId] using hfree
    have hfull : ~~~(d.gw g).tagIds = 0 := by
      refine BitVec.eq_of_getLsbD_eq (fun i hi => ?_)
      have hbit := hall i hi
      rw [hasTagId_eq hi] at hbit
      simp [hbit]
    have hscan : bitscan64Forward (~~~(d.gw g).tagIds) = -1 := by
      rw [hfull]
      exact bitscan64Forward_zero
    simp [allocateTagId,hscan]
  | some id =>
    obtain ⟨hclear,hid,hlower⟩ := List.find?_range_eq_some.mp hfree
    simp only [Bool.not_eq_true',Bool.not_eq_false'] at hclear hlower
    have hid' : id < maxTags := List.mem_range.mp hid
    have hlow : IsLowest (~~~(d.gw g).tagIds) id := by
      refine ⟨?_,fun j hj => ?_⟩
      · rw [hasTagId_eq hid'] at hclear
        simpa [hclear,maxTags] using hid'
      · have hj' : j < maxTags := hj.trans hid'
        have hbit := hlower j hj
        rw [hasTagId_eq hj'] at hbit
        simp [hbit]
    have hneg : (id : ℤ) ≠ -1 := by omega
    refine ⟨hid',hclear,?_⟩
    simp [allocateTagId,bitscan64Forward_eq hlow,hneg]

/-- The id of a tag on a gateway is where the table has the tag. -/
theorem getTagId_eq_some (h : d.tagging.Sound) (hg : g ∈ d.gateways) :
    (d.gw g).getTagId t = some id ↔ (d.gw g).tags id = some t := by
  constructor
  · intro hfind
    simpa using List.find?_some hfind
  · intro hentry
    cases hfind : (d.gw g).getTagId t with
    | none => exact (table_of_getTagId h hg hfind id hentry).elim
    | some id' =>
      have hentry' : (d.gw g).tags id' = some t := by simpa using List.find?_some hfind
      rw [h.toLinked.id_unique hg hentry hentry']

/-- The ids on a gateway only depend on its mask and its table. -/
theorem tagIdFor_congr {gw gw' : Gateway} (hids : gw'.tagIds = gw.tagIds) (htags : gw'.tags = gw.tags)
    (t : TagRef) : gw'.tagIdFor t = gw.tagIdFor t ∧ gw'.getTagId t = gw.getTagId t := by
  simp [Gateway.tagIdFor,Gateway.getTagId,Gateway.freeTagId,hids,htags]

/-- One allocation in the loop of the tag command. -/
structure Placed (d d' : Daemon) (g : GatewayRef) (t : TagRef) (id : ℕ) : Prop where
  link : Link t d.tagging d'.tagging
  devices : d'.devices = d.devices
  bulb : d'.bulb = d.bulb
  outbox : d'.outbox = d.outbox
  known : (d'.gw g).getTagId t = some id
  others : ∀ g' ≠ g, (d'.gw g').tagIds = (d.gw g').tagIds ∧ (d'.gw g').tags = (d.gw g').tags

theorem allocateTagId_placed (h : d.tagging.Sound) (hg : g ∈ d.gateways) (ht : t ∈ d.tags)
    (htl : (d.tag t).label = label) (hlabel : label.length < labelSize) (hid : id < maxTags)
    (hbit : hasTagId (d.gw g).tagIds id = false) (hnone : (d.gw g).getTagId t = none) :
    (d.allocateTagId g id label true true).2 = id ∧
      Placed d (d.allocateTagId g id label true true).1 g t id := by
  have hunknown := table_of_getTagId h hg hnone
  have hlabelFree := labelFree_of_unknown h.toLinked hg ht htl hunknown
  have hempty : (d.gw g).tags id = none := (hasTagId_of_none h hg hid).mp hbit
  obtain ⟨hview,hret⟩ := tagging_allocateTagId h hg hid hlabel hempty (h.findOrNew_free hg hlabelFree)
  rw [h.toLinked.findOrNew_eq ht htl] at hview
  have hlink : Link t d.tagging (d.allocateTagId g id label true true).1.tagging := by
    rw [hview]
    exact .mk hg hid (hlabelFree.no_site h.toLinked hg ht htl) hempty
  have hdev := devices_tags.allocateTagId (Set.mem_univ label) d g id true true
  have hsound := (Links.sound (.single hlink) h ht).1
  refine ⟨hret,⟨hlink,hdev,(quiet_tags.allocateTagId (Set.mem_univ _) d g id true true).bulb,
    outbox_tags.allocateTagId (Set.mem_univ _) d g id true true,?_,?_⟩⟩
  · refine (getTagId_eq_some hsound ?_).mpr ?_
    · have hgws : (d.allocateTagId g id label true true).1.gateways = d.gateways :=
        congrArg Devices.gateways hdev
      exact hgws ▸ hg
    · have hentry := congrFun₂ (congrArg Tagging.table hview) g id
      refine hentry.trans ?_
      simp [Tagging.setEntry]
  · intro g' hne
    constructor
    · have hids := congrFun (congrArg Tagging.tagIds hview) g'
      exact hids.trans (Function.update_of_ne hne _ _)
    · have htags := congrFun (congrArg Tagging.table hview) g'
      exact htags.trans (Function.update_of_ne hne _ _)

theorem tagIdFor_known {gw : Gateway} (h : gw.getTagId t = some id) : gw.tagIdFor t = some id := by
  simp [Gateway.tagIdFor,h]

theorem Placed.tagIdFor {d' : Daemon} (h : Placed d d' g t id) (hfor : (d.gw g).tagIdFor t = some id)
    (g' : GatewayRef) : (d'.gw g').tagIdFor t = (d.gw g').tagIdFor t := by
  by_cases hgg : g' = g
  · subst hgg
    rw [hfor,tagIdFor_known h.known]
  · exact (tagIdFor_congr (h.others g' hgg).1 (h.others g' hgg).2 t).1

theorem Placed.kept {d' : Daemon} (h : Placed d d' g t id) (hnone : (d.gw g).getTagId t = none)
    {g' : GatewayRef} {id' : ℕ} (hget : (d.gw g').getTagId t = some id') :
    (d'.gw g').getTagId t = some id' := by
  have hgg : g' ≠ g := by
    rintro rfl
    rw [hnone] at hget
    cases hget
  rw [(tagIdFor_congr (h.others g' hgg).1 (h.others g' hgg).2 t).2,hget]

/-- What the loop of the tag command over the bulbs leaves behind. -/
structure Allocated (d : Daemon) (t : TagRef) (bs : List BulbRef) (s : Daemon × Bool) : Prop where
  links : Links t d.tagging s.1.tagging
  devices : s.1.devices = d.devices
  bulb : s.1.bulb = d.bulb
  outbox : s.1.outbox = d.outbox
  tagIdFor : ∀ g, (s.1.gw g).tagIdFor t = (d.gw g).tagIdFor t
  kept : ∀ g id, (d.gw g).getTagId t = some id → (s.1.gw g).getTagId t = some id
  only : ∀ g id, (s.1.gw g).getTagId t = some id →
    (d.gw g).getTagId t = some id ∨ ∃ b ∈ bs, (d.bulb b).gw = g
  placed : s.2 = true → ∀ b ∈ bs, ∃ id, (s.1.gw (d.bulb b).gw).getTagId t = some id
  full : s.2 = false → ∃ b ∈ bs, (d.gw (d.bulb b).gw).tagIdFor t = none

/-- The loop goes on after a bulb whose gateway has an id for the tag. -/
theorem Allocated.cons {b : BulbRef} {bs : List BulbRef} {s : Daemon × Bool} (h : Allocated d t bs s)
    (hget : (d.gw (d.bulb b).gw).getTagId t = some id) : Allocated d t (b :: bs) s := by
  refine ⟨h.links,h.devices,h.bulb,h.outbox,h.tagIdFor,h.kept,fun g id hid => ?_,fun hok x hx => ?_,
    fun hfail => ?_⟩
  · rcases h.only g id hid with hold | ⟨x,hx,hown⟩
    · exact Or.inl hold
    · exact Or.inr ⟨x,List.mem_cons_of_mem _ hx,hown⟩
  · rcases List.mem_cons.mp hx with rfl | hx
    · exact ⟨id,h.kept _ id hget⟩
    · exact h.placed hok x hx
  · obtain ⟨x,hx,hnone⟩ := h.full hfail
    exact ⟨x,List.mem_cons_of_mem _ hx,hnone⟩

theorem Allocated.after {d' : Daemon} {bs : List BulbRef} {s : Daemon × Bool} (h : Allocated d' t bs s)
    (hp : Placed d d' g t id) (hnone : (d.gw g).getTagId t = none)
    (hfor : (d.gw g).tagIdFor t = some id) (hown : ∃ b ∈ bs, (d.bulb b).gw = g) : Allocated d t bs s where
  links := (Relation.ReflTransGen.single hp.link).trans h.links
  devices := h.devices.trans hp.devices
  bulb := h.bulb.trans hp.bulb
  outbox := h.outbox.trans hp.outbox
  tagIdFor := fun g' => (h.tagIdFor g').trans (hp.tagIdFor hfor g')
  kept := fun g' id' hget => h.kept g' id' (hp.kept hnone hget)
  only := fun g' id' hget => by
    rcases h.only g' id' hget with hold | ⟨b,hb,hg'⟩
    · by_cases hgg : g' = g
      · exact Or.inr (hgg ▸ hown)
      · rw [(tagIdFor_congr (hp.others g' hgg).1 (hp.others g' hgg).2 t).2] at hold
        exact Or.inl hold
    · exact Or.inr ⟨b,hb,by rwa [hp.bulb] at hg'⟩
  placed := fun hok b hb => by simpa [hp.bulb] using h.placed hok b hb
  full := fun hfail => by
    obtain ⟨b,hb,hfull⟩ := h.full hfail
    rw [hp.tagIdFor hfor,hp.bulb] at hfull
    exact ⟨b,hb,hfull⟩

theorem allocateOnGateways_allocated {bs : List BulbRef} (hlabel : label.length < labelSize)
    (h : d.tagging.Sound) (ht : t ∈ d.tags) (htl : (d.tag t).label = label)
    (hbs : ∀ b ∈ bs, (d.bulb b).gw ∈ d.gateways) :
    Allocated d t bs (allocateOnGateways t label d bs) := by
  induction bs generalizing d with
  | nil => exact ⟨.refl,rfl,rfl,rfl,fun _ => rfl,fun _ _ hget => hget,fun _ _ => Or.inl,nofun,nofun⟩
  | cons b bs ih =>
    have hg : (d.bulb b).gw ∈ d.gateways := hbs b List.mem_cons_self
    have hbs' : ∀ b ∈ bs, (d.bulb b).gw ∈ d.gateways := fun x hx => hbs x (List.mem_cons_of_mem _ hx)
    unfold allocateOnGateways
    simp only
    cases hget : (d.gw (d.bulb b).gw).getTagId t with
    | some id => exact (ih h ht htl hbs').cons hget
    | none =>
      have hfree := allocateTagId_free d (d.bulb b).gw label
      cases hscan : (d.gw (d.bulb b).gw).freeTagId with
      | none =>
        simp only [hscan] at hfree
        simp only [hfree,if_true]
        refine ⟨.refl,rfl,rfl,rfl,fun _ => rfl,fun _ _ hget => hget,fun _ _ => Or.inl,nofun,fun _ => ?_⟩
        exact ⟨b,List.mem_cons_self,by simp [Gateway.tagIdFor,hget,hscan]⟩
      | some id =>
        simp only [hscan] at hfree
        obtain ⟨hid,hbit,hsame⟩ := hfree
        obtain ⟨hret,hp⟩ := allocateTagId_placed h hg ht htl hlabel hid hbit hget
        have hfor : (d.gw (d.bulb b).gw).tagIdFor t = some id := by simp [Gateway.tagIdFor,hget,hscan]
        have hne : (id : ℤ) ≠ -1 := by omega
        simp only [hsame,hret,if_neg hne]
        obtain ⟨hsound,hmem,hsameLabel,-,hgws⟩ := Links.sound (.single hp.link) h ht
        have hrest := ih hsound hmem (hsameLabel.trans htl) (by
          intro x hx
          have hlive : (d.allocateTagId (d.bulb b).gw id label true true).1.gateways = d.gateways := hgws
          rw [hp.bulb,hlive]
          exact hbs' x hx)
        have hknown : ((d.allocateTagId (d.bulb b).gw id label true true).1.gw
            ((d.allocateTagId (d.bulb b).gw id label true true).1.bulb b).gw).getTagId t = some id := by
          rw [hp.bulb]
          exact hp.known
        have hhead := hrest.cons hknown
        exact hhead.after hp hget hfor ⟨b,List.mem_cons_self,rfl⟩

/-- The id the tag with a label has or would be given on a gateway. -/
def tagIdFor (d : Daemon) (label : List UInt8) (g : GatewayRef) : Option ℕ :=
  ((d.findTag label).bind (d.gw g).getTagId).or (d.gw g).freeTagId

/-- The state in which the tag command starts to allocate ids. -/
structure Prepared (d : Daemon) (label : List UInt8) (d₁ : Daemon) (t : TagRef) : Prop where
  sound : d₁.tagging.Sound
  mem : t ∈ d₁.tags
  labelled : (d₁.tag t).label = label
  devices : d₁.devices = d.devices
  bulb : d₁.bulb = d.bulb
  outbox : d₁.outbox = d.outbox
  tagIdFor : ∀ g, (d₁.gw g).tagIdFor t = d.tagIdFor label g

theorem findOrAllocateTag_prepared (hn : d.tagging.Numbered) (h : d.tagging.Sound)
    (hlabel : label.length < labelSize) :
    Prepared d label (d.findOrAllocateTag label true).1 ((d.findTag label).getD d.nextTag) := by
  obtain ⟨hview,hres⟩ := tagging_findOrAllocateTag (d := d) hlabel
  obtain ⟨hsound,hmem,htl,-⟩ := h.findOrNew label
  have hfind : (d.findOrAllocateTag label true).2 = some ((d.findTag label).getD d.nextTag) := by
    unfold findOrAllocateTag
    cases d.findTag label <;> rfl
  have ht : (d.tagging.findOrNew label).2 = (d.findTag label).getD d.nextTag :=
    Option.some_inj.mp (hres.symm.trans hfind)
  rw [← hview,ht] at hmem htl
  rw [← hview] at hsound
  refine ⟨hsound,hmem,htl,devices_tags.findOrAllocateTag (Set.mem_univ _) d true,
    (quiet_tags.findOrAllocateTag (Set.mem_univ _) d true).bulb,
    outbox_tags.findOrAllocateTag (Set.mem_univ _) d true,fun g => ?_⟩
  unfold Daemon.tagIdFor Gateway.tagIdFor
  cases hknown : d.findTag label with
  | some t => simp [findOrAllocateTag,hknown]
  | none =>
    have hids : ((d.allocateTag label).gw g).tagIds = (d.gw g).tagIds :=
      congrFun (congrArg Tagging.tagIds (tagging_allocateTag hlabel)) g
    simp [findOrAllocateTag,hknown,getTagId_newTag hn (tagging_allocateTag hlabel),Gateway.freeTagId,hids]

/-- The tag command as two stages: the loop that allocates ids, and what follows it. -/
theorem protoTag_stages (hp : d.devices.Partition) (hn : d.tagging.Numbered) (h : d.tagging.Sound)
    (hlabel : label.length < labelSize) (now : Time) (targets : List TargetName) :
    ∃ d₁ t s, Prepared d label d₁ t ∧ Allocated d₁ t (d.targetsToDevices targets) s ∧
      d.protoTag now targets label = finishTag now t label (d.targetsToDevices targets) s ∧
      (d.findTag label = none → d₁.tagging = d.tagging.newTag label ∧ t = d.nextTag) ∧
      (∀ t', d.findTag label = some t' → d₁ = d ∧ t = t') := by
  have hprep := findOrAllocateTag_prepared hn h hlabel
  refine ⟨_,_,_,hprep,allocateOnGateways_allocated hlabel hprep.sound hprep.mem hprep.labelled ?_,
    protoTag_eq d now targets label,?_,?_⟩
  · intro b hb
    have hgws : (d.findOrAllocateTag label true).1.gateways = d.gateways :=
      congrArg Devices.gateways hprep.devices
    rw [hprep.bulb,hgws]
    exact (owner_targetsToDevices hp targets b hb).2
  · intro hnone
    simpa [findOrAllocateTag,hnone] using tagging_allocateTag hlabel
  · intro t' hsome
    simp [findOrAllocateTag,hsome]

end Daemon
end Lightsd.Lifx
