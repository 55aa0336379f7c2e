import Lightsd.Core.DeviceRuns

/-! # The two ways of selecting devices agree

Sending a request and listing devices go through the targets separately. Both are
compared with the set of bulbs a target stands for: sending a power command marks
exactly the bulbs of these sets, and the list of devices has exactly these members.
-/
namespace Lightsd.Lifx.Daemon

open Lightsd.Core

variable {now : Time} {req : Request}

def taggedSet (d : Daemon) (t : TagRef) : Set BulbRef :=
  {b | ∃ site ∈ (d.tag t).sites, b ∈ (d.gw site.gw).bulbs ∧ hasTagId (d.bulb b).state.tags site.tagId}

def labelledSet (d : Daemon) (label : List UInt8) : Set BulbRef :=
  {b | b ∈ d.bulbs ∧ (d.bulb b).hasLabel label}

/-- The bulbs a target stands for. -/
def selected (d : Daemon) (target : TargetName) : Set BulbRef :=
  if target = [42] then {b | b ∈ d.bulbs}
  else match target with
  | [] => ∅
  | c :: cs =>
    if c = 35 then
      match d.findTag cs with
      | some t => d.taggedSet t
      | none => ∅
    else if isXDigit c then
      match d.deviceAddrToDevice target with
      | some b => {b}
      | none => d.labelledSet target
    else d.labelledSet target

/-- The request was noted on the bulbs of a set and nothing else that selections depend
on has changed. -/
structure Routed (now : Time) (req : Request) (s : Set BulbRef) (d d' : Daemon) : Prop where
  gateways : d'.gateways = d.gateways
  members : ∀ g, (d'.gw g).bulbs = (d.gw g).bulbs
  bulbs : d'.bulbs = d.bulbs
  tags : d'.tags = d.tags
  tag : d'.tag = d.tag
  marked : ∀ b ∈ s, d'.bulb b = Bulb.expectPower now req (d.bulb b)
  kept : ∀ b, b ∉ s → d'.bulb b = d.bulb b

namespace Routed

variable {s : Set BulbRef} {d d' d'' : Daemon}

theorem refl (d : Daemon) : Routed now req ∅ d d :=
  ⟨rfl,fun _ => rfl,rfl,rfl,rfl,fun _ hb => absurd hb (Set.notMem_empty _),fun _ _ => rfl⟩

theorem expectPower_idem (b : Bulb) :
    Bulb.expectPower now req (Bulb.expectPower now req b) = Bulb.expectPower now req b := by
  unfold Bulb.expectPower
  cases Request.power? req <;> rfl

theorem trans {s' : Set BulbRef} (h : Routed now req s d d') (h' : Routed now req s' d' d'') :
    Routed now req (s ∪ s') d d'' := by
  refine ⟨h'.gateways.trans h.gateways,fun g => (h'.members g).trans (h.members g),
    h'.bulbs.trans h.bulbs,h'.tags.trans h.tags,h'.tag.trans h.tag,?_,?_⟩
  · intro b hb
    by_cases hb' : b ∈ s'
    · rw [h'.marked b hb']
      by_cases hbs : b ∈ s
      · rw [h.marked b hbs,expectPower_idem]
      · rw [h.kept b hbs]
    · rw [h'.kept b hb',h.marked b (hb.resolve_right hb')]
  · intro b hb
    rw [h'.kept b (fun hm => hb (Or.inr hm)),h.kept b (fun hm => hb (Or.inl hm))]

theorem of_eq {s' : Set BulbRef} (h : Routed now req s d d') (heq : s = s') : Routed now req s' d d' :=
  heq ▸ h

theorem bulb_keeps (h : Routed now req s d d') (b : BulbRef) :
    (d'.bulb b).state = (d.bulb b).state ∧ (d'.bulb b).addr = (d.bulb b).addr := by
  obtain ⟨ha,_,hs⟩ := expectPower_keeps now req (d.bulb b)
  by_cases hb : b ∈ s
  · rw [h.marked b hb]
    exact ⟨hs,ha⟩
  · rw [h.kept b hb]
    exact ⟨rfl,rfl⟩

/-- A loop whose rounds each note the request on a set marks the union of the sets. -/
theorem foldl {α : Type} {f : Daemon → α → Daemon} {S : Daemon → α → Set BulbRef}
    (hf : ∀ d x, Routed now req (S d x) d (f d x))
    (hS : ∀ {s d d'}, Routed now req s d d' → ∀ x, S d' x = S d x) (d : Daemon) (l : List α) :
    Routed now req {b | ∃ x ∈ l, b ∈ S d x} d (l.foldl f d) := by
  induction l generalizing d with
  | nil =>
    refine (refl d).of_eq ?_
    simp
  | cons x xs ih =>
    refine ((hf d x).trans (ih (f d x))).of_eq ?_
    ext b
    simp only [hS (hf d x),Set.mem_union,Set.mem_ofPred_eq,List.mem_cons,exists_eq_or_imp]

/-- A loop over bulbs that notes the request on those with a property. -/
theorem foldl_bulbs {f : Daemon → BulbRef → Daemon} {p : Daemon → BulbRef → Bool}
    (hf : ∀ d b, Routed now req {x | x = b ∧ p d b = true} d (f d b))
    (hp : ∀ {s d d'}, Routed now req s d d' → ∀ b, p d' b = p d b) (d : Daemon) (l : List BulbRef) :
    Routed now req {b | b ∈ l ∧ p d b = true} d (l.foldl f d) := by
  refine (foldl hf (fun h b => ?_) d l).of_eq ?_
  · rw [hp h b]
  · ext b
    constructor
    · rintro ⟨x,hx,rfl,hpx⟩
      exact ⟨hx,hpx⟩
    · rintro ⟨hb,hpb⟩
      exact ⟨b,hb,rfl,hpb⟩

theorem findTag_eq (h : Routed now req s d d') (label : List UInt8) : d'.findTag label = d.findTag label := by
  rw [findTag,findTag,h.tags,h.tag]

theorem deviceAddr_eq (h : Routed now req s d d') (addr : List UInt8) :
    d'.deviceAddrToDevice addr = d.deviceAddrToDevice addr := by
  have hget : ∀ a, d'.bulbGet a = d.bulbGet a := by
    intro a
    unfold bulbGet
    rw [h.bulbs]
    congr 1
    funext b
    rw [(h.bulb_keeps b).2]
  simp only [deviceAddrToDevice,hget]

theorem taggedSet_eq (h : Routed now req s d d') (t : TagRef) : d'.taggedSet t = d.taggedSet t := by
  have hstate : ∀ b, (d'.bulb b).state = (d.bulb b).state := fun b => (h.bulb_keeps b).1
  simp only [taggedSet,h.tag,h.members,hstate]

theorem hasLabel_eq (h : Routed now req s d d') (label : List UInt8) (b : BulbRef) :
    (d'.bulb b).hasLabel label = (d.bulb b).hasLabel label := by
  rw [Bulb.hasLabel,Bulb.hasLabel,(h.bulb_keeps b).1]

theorem labelledSet_eq (h : Routed now req s d d') (label : List UInt8) :
    d'.labelledSet label = d.labelledSet label := by
  simp only [labelledSet,h.bulbs,h.hasLabel_eq]

theorem selected_eq (h : Routed now req s d d') (target : TargetName) :
    d'.selected target = d.selected target := by
  simp only [selected,h.bulbs,h.findTag_eq,h.deviceAddr_eq,h.taggedSet_eq,h.labelledSet_eq]

end Routed

theorem routed_check (d : Daemon) (c : Bool) (f : Fault) : Routed now req ∅ d (d.check c f) := by
  cases c <;> exact ⟨rfl,fun _ => rfl,rfl,rfl,rfl,fun _ hb => absurd hb (Set.notMem_empty _),
    fun _ _ => rfl⟩

theorem routed_enqueue (d : Daemon) (g : GatewayRef) (target : Target) (r : Request) :
    Routed now req ∅ d (d.enqueue g target r) := by
  refine ⟨rfl,fun x => ?_,rfl,rfl,rfl,fun _ hb => absurd hb (Set.notMem_empty _),fun _ _ => rfl⟩
  exact congrFun (update_keeps Gateway.bulbs (enqueuePacket_keeps _ _).1) x

theorem routed_expectPower (d : Daemon) (b : BulbRef) :
    Routed now req {b} d (d.expectPower now req b) := by
  refine ⟨rfl,fun _ => rfl,rfl,rfl,rfl,?_,?_⟩
  · rintro x rfl
    simp only [expectPower,modifyBulb,Function.update_self]
  · intro x hx
    have hne : x ≠ b := hx
    simp only [expectPower,modifyBulb,Function.update_of_ne hne]

theorem routed_sendToDevice (d : Daemon) (b : BulbRef) :
    Routed now req {b} d (d.sendToDevice now req b) :=
  ((routed_enqueue d _ _ _).trans (routed_expectPower _ b)).of_eq (Set.empty_union _)

theorem routed_broadcastTo (d : Daemon) (g : GatewayRef) :
    Routed now req {b | b ∈ (d.gw g).bulbs} d (broadcastTo now req d g) := by
  have henq : Routed now req ∅ d (d.enqueue g .allDevices req) := routed_enqueue d g _ _
  have hone : ∀ d b, Routed now req {b} d (d.expectPower now req b) := routed_expectPower
  have hloop := Routed.foldl (S := fun _ b => {b}) hone (fun _ _ => rfl)
    (d.enqueue g .allDevices req) ((d.enqueue g .allDevices req).gw g).bulbs
  refine (henq.trans hloop).of_eq ?_
  ext b
  simp only [henq.members,Set.empty_union,Set.mem_ofPred_eq,Set.mem_singleton_iff,exists_eq_right']

theorem routed_broadcast (d : Daemon) :
    Routed now req {b | ∃ g ∈ d.gateways, b ∈ (d.gw g).bulbs} d (d.broadcast now req) := by
  refine Routed.foldl (S := fun d g => {b | b ∈ (d.gw g).bulbs}) routed_broadcastTo (fun h g => ?_) d _
  rw [h.members]

theorem routed_ite {s : Set BulbRef} {d d' : Daemon} {p : Bool} (h : Routed now req s d d') :
    Routed now req {x | x ∈ s ∧ p = true} d (if p then d' else d) := by
  cases p with
  | true => exact h.of_eq (by simp)
  | false => exact (Routed.refl d).of_eq (by simp)

theorem routed_sendToSiteOfTag (t : TagRef) (d : Daemon) (site : Site) :
    Routed now req
      {b | b ∈ (d.gw site.gw).bulbs ∧ hasTagId (d.bulb b).state.tags site.tagId = true} d
      (sendToSiteOfTag now req t d site) := by
  have hpre : Routed now req ∅ d ((d.check ((d.gw site.gw).tags site.tagId = some t)
      (.routedTag t site.gw site.tagId)).enqueue site.gw (.tags (tagIdToValue site.tagId)) req) :=
    ((routed_check d _ _).trans (routed_enqueue _ _ _ _)).of_eq (Set.empty_union _)
  unfold sendToSiteOfTag
  simp only
  generalize (d.check ((d.gw site.gw).tags site.tagId = some t)
    (.routedTag t site.gw site.tagId)).enqueue site.gw (.tags (tagIdToValue site.tagId)) req = d₁ at hpre
  have hloop := Routed.foldl_bulbs (f := expectPowerIfTagged now req site.tagId)
    (p := fun d b => hasTagId (d.bulb b).state.tags site.tagId)
    (fun d b => routed_ite (routed_expectPower d b)) (fun h b => by rw [(h.bulb_keeps b).1]) d₁
    (d₁.gw site.gw).bulbs
  refine (hpre.trans hloop).of_eq ?_
  ext b
  simp only [Set.empty_union,hpre.members,(hpre.bulb_keeps b).1,Set.mem_ofPred_eq]

theorem routed_sendToTag (d : Daemon) (t : TagRef) :
    Routed now req (d.taggedSet t) d (d.sendToTag now req t) := by
  refine (Routed.foldl (S := fun d site =>
    {b | b ∈ (d.gw site.gw).bulbs ∧ hasTagId (d.bulb b).state.tags site.tagId = true})
    (routed_sendToSiteOfTag t) (fun h site => ?_) d (d.tag t).sites).of_eq rfl
  ext b
  simp only [h.members,(h.bulb_keeps b).1,Set.mem_ofPred_eq]

theorem routed_sendToLabel (d : Daemon) (label : List UInt8) :
    Routed now req (d.labelledSet label) d (d.sendToLabel now req label) :=
  Routed.foldl_bulbs (f := sendIfLabelled now req label) (p := fun d b => (d.bulb b).hasLabel label)
    (fun d b => routed_ite (routed_sendToDevice d b)) (fun h b => h.hasLabel_eq label b) d d.bulbs

/-- One target: the request is noted on the bulbs the target stands for. -/
theorem routed_sendToTarget {d : Daemon} (rv : Bool) (target : TargetName)
    (hall : ∀ b, b ∈ d.bulbs ↔ ∃ g ∈ d.gateways, b ∈ (d.gw g).bulbs) :
    Routed now req (d.selected target) d (sendToTarget now req (d,rv) target).1 := by
  unfold selected sendToTarget
  by_cases hstar : target = [42]
  · simp only [if_pos hstar]
    exact (routed_broadcast d).of_eq (Set.ext (fun b => (hall b).symm))
  · simp only [if_neg hstar]
    cases target with
    | nil => exact Routed.refl d
    | cons c cs =>
      simp only
      by_cases htag : c = 35
      · simp only [if_pos htag]
        cases d.findTag cs with
        | some t => exact routed_sendToTag d t
        | none => exact Routed.refl d
      · simp only [if_neg htag]
        by_cases hhex : isXDigit c
        · simp only [if_pos hhex]
          cases d.deviceAddrToDevice (c :: cs) with
          | some b => exact routed_sendToDevice d b
          | none => exact routed_sendToLabel d (c :: cs)
        · simp only [if_neg hhex]
          exact routed_sendToLabel d (c :: cs)

/-- All targets: sending marks the union of what the targets stand for. -/
theorem routed_routerSend {d : Daemon} (targets : List TargetName)
    (hall : ∀ b, b ∈ d.bulbs ↔ ∃ g ∈ d.gateways, b ∈ (d.gw g).bulbs) :
    Routed now req {b | ∃ target ∈ targets, b ∈ d.selected target} d (d.routerSend now targets req).1 := by
  have hrun : ∀ (d : Daemon) (rv : Bool), (∀ b, b ∈ d.bulbs ↔ ∃ g ∈ d.gateways, b ∈ (d.gw g).bulbs) →
      Routed now req {b | ∃ target ∈ targets, b ∈ d.selected target} d
        (targets.foldl (sendToTarget now req) (d,rv)).1 := by
    induction targets with
    | nil => exact fun d _ _ => (Routed.refl d).of_eq (by simp)
    | cons target targets ih =>
      intro d rv hall
      have hfirst : Routed now req (d.selected target) d (sendToTarget now req (d,rv) target).1 :=
        routed_sendToTarget rv target hall
      rw [List.foldl_cons]
      generalize sendToTarget now req (d,rv) target = s at hfirst
      obtain ⟨d',rv'⟩ := s
      change Routed now req (d.selected target) d d' at hfirst
      have hall' : ∀ b, b ∈ d'.bulbs ↔ ∃ g ∈ d'.gateways, b ∈ (d'.gw g).bulbs := by
        simpa only [hfirst.bulbs,hfirst.gateways,hfirst.members] using hall
      refine (hfirst.trans (ih d' rv' hall')).of_eq ?_
      ext b
      simp only [hfirst.selected_eq,Set.mem_union,Set.mem_ofPred_eq,List.mem_cons,exists_eq_or_imp]
  exact hrun d true hall

theorem mem_insertDevice {devices : List BulbRef} {b x : BulbRef} :
    x ∈ insertDeviceIfNotInList devices b ↔ x ∈ devices ∨ x = b := by
  unfold insertDeviceIfNotInList
  split
  · rename_i hb
    constructor
    · exact Or.inl
    · rintro (hx | rfl)
      · exact hx
      · exact hb
  · rw [List.mem_cons,or_comm]

theorem mem_insertWhere {p : BulbRef → Bool} {l devices : List BulbRef} {x : BulbRef} :
    x ∈ l.foldl (fun devices b => if p b then insertDeviceIfNotInList devices b else devices) devices ↔
      x ∈ devices ∨ (x ∈ l ∧ p x = true) := by
  induction l generalizing devices with
  | nil => simp
  | cons b l ih =>
    rw [List.foldl_cons,ih,List.mem_cons]
    by_cases hp : p b = true
    · rw [if_pos hp,mem_insertDevice]
      constructor
      · rintro ((hx | rfl) | ⟨hx,hpx⟩)
        · exact Or.inl hx
        · exact Or.inr ⟨Or.inl rfl,hp⟩
        · exact Or.inr ⟨Or.inr hx,hpx⟩
      · rintro (hx | ⟨rfl | hx,hpx⟩)
        · exact Or.inl (Or.inl hx)
        · exact Or.inl (Or.inr rfl)
        · exact Or.inr ⟨hx,hpx⟩
    · rw [if_neg hp]
      constructor
      · rintro (hx | ⟨hx,hpx⟩)
        · exact Or.inl hx
        · exact Or.inr ⟨Or.inr hx,hpx⟩
      · rintro (hx | ⟨rfl | hx,hpx⟩)
        · exact Or.inl hx
        · exact absurd hpx hp
        · exact Or.inr ⟨hx,hpx⟩

theorem mem_insertTagged {d : Daemon} {devices : List BulbRef} {t : TagRef} {x : BulbRef} :
    x ∈ d.insertTagged devices t ↔ x ∈ devices ∨ x ∈ d.taggedSet t := by
  unfold insertTagged taggedSet
  induction (d.tag t).sites generalizing devices with
  | nil => simp
  | cons site sites ih =>
    rw [List.foldl_cons,ih,mem_insertWhere]
    simp only [Set.mem_ofPred_eq,List.mem_cons,exists_eq_or_imp,or_assoc]

theorem mem_insertLabelled {d : Daemon} {devices : List BulbRef} {label : List UInt8} {x : BulbRef} :
    x ∈ d.insertLabelled devices label ↔ x ∈ devices ∨ x ∈ d.labelledSet label := mem_insertWhere

/-- One round of the list builder, unless the target stands for everything. -/
theorem collectDevices_cons (d : Daemon) (devices : List BulbRef) {target : TargetName}
    (targets : List TargetName) (hstar : target ≠ [42]) :
    ∃ devices', d.collectDevices devices (target :: targets) = d.collectDevices devices' targets ∧
      ∀ x, x ∈ devices' ↔ x ∈ devices ∨ x ∈ d.selected target := by
  cases target with
  | nil => exact ⟨devices,rfl,fun x => by simp [selected]⟩
  | cons c cs =>
    rw [collectDevices,if_neg hstar,selected,if_neg hstar]
    by_cases htag : c = 35
    · simp only [if_pos htag]
      cases d.findTag cs with
      | some t => exact ⟨_,rfl,fun x => mem_insertTagged⟩
      | none => exact ⟨devices,rfl,fun x => by simp⟩
    · simp only [if_neg htag]
      by_cases hhex : isXDigit c
      · simp only [if_pos hhex]
        cases d.deviceAddrToDevice (c :: cs) with
        | some b => exact ⟨_,rfl,fun x => mem_insertDevice⟩
        | none => exact ⟨_,rfl,fun x => mem_insertLabelled⟩
      · simp only [if_neg hhex]
        exact ⟨_,rfl,fun x => mem_insertLabelled⟩

theorem mem_collectDevices_star {d : Daemon} {devices : List BulbRef} {targets : List TargetName}
    {x : BulbRef} : x ∈ d.collectDevices devices ([42] :: targets) ↔ x ∈ d.bulbs := by
  have hrev : ∀ l acc : List BulbRef, l.foldl (fun devices b => b :: devices) acc = l.reverse ++ acc := by
    intro l
    induction l with
    | nil => exact fun acc => rfl
    | cons b l ih =>
      intro acc
      rw [List.foldl_cons,ih,List.reverse_cons,List.append_assoc,List.singleton_append]
  rw [collectDevices,if_pos rfl,hrev,List.append_nil,List.mem_reverse]

/-- Listing devices collects what the targets stand for. The target that stands for
everything ends the loop, which is right because every selected bulb is in the table. -/
theorem mem_collectDevices {d : Daemon} {targets : List TargetName} {devices : List BulbRef}
    {x : BulbRef} (hsub : ∀ target, ∀ b ∈ d.selected target, b ∈ d.bulbs)
    (hdev : ∀ b ∈ devices, b ∈ d.bulbs) :
    x ∈ d.collectDevices devices targets ↔
      x ∈ devices ∨ ∃ target ∈ targets, x ∈ d.selected target := by
  induction targets generalizing devices with
  | nil => simp [collectDevices]
  | cons target targets ih =>
    by_cases hstar : target = [42]
    · subst hstar
      rw [mem_collectDevices_star]
      have hall : d.selected [42] = {b | b ∈ d.bulbs} := if_pos rfl
      constructor
      · intro hx
        exact Or.inr ⟨[42],List.mem_cons_self,hall ▸ hx⟩
      · rintro (hx | ⟨target,_,hx⟩)
        · exact hdev x hx
        · exact hsub target x hx
    · obtain ⟨devices',heq,hmem⟩ := collectDevices_cons d devices targets hstar
      have hdev' : ∀ b ∈ devices', b ∈ d.bulbs := by
        intro b hb
        rcases (hmem b).mp hb with hb | hb
        · exact hdev b hb
        · exact hsub target b hb
      rw [heq,ih hdev',hmem]
      simp only [List.mem_cons,exists_eq_or_imp,or_assoc]

end Lightsd.Lifx.Daemon

namespace Lightsd.Core

open Lifx Lifx.Daemon Runs

theorem mem_of_deviceAddr {d : Daemon} {addr : List UInt8} {b : BulbRef}
    (h : d.deviceAddrToDevice addr = some b) : b ∈ d.bulbs := by
  unfold deviceAddrToDevice at h
  simp only at h
  split at h
  · exact mem_of_bulbGet h
  · cases h

theorem taggedSet_listed {d : Daemon} (hp : d.devices.Partition) (t : TagRef) : ∀ b ∈ d.taggedSet t, b ∈ d.bulbs := by
  rintro b ⟨site,_,hb,_⟩
  by_cases hg : site.gw ∈ d.gateways
  · exact hp.member_bulb hg hb
  · rw [show (d.gw site.gw).bulbs = [] from hp.closed site.gw hg] at hb
    cases hb

theorem selected_listed {d : Daemon} (hp : d.devices.Partition) (target : TargetName) :
    ∀ b ∈ d.selected target, b ∈ d.bulbs := by
  intro b hb
  unfold selected at hb
  split at hb
  · exact hb
  · split at hb
    · exact absurd hb (Set.notMem_empty _)
    · split at hb
      · split at hb
        · exact taggedSet_listed hp _ b hb
        · exact absurd hb (Set.notMem_empty _)
      · split at hb
        · split at hb
          · rename_i x hget
            obtain rfl : b = x := hb
            exact mem_of_deviceAddr hget
          · exact hb.1
        · exact hb.1

theorem mem_bulbs_iff {d : Daemon} (hp : d.devices.Partition) (b : BulbRef) :
    b ∈ d.bulbs ↔ ∃ g ∈ d.gateways, b ∈ (d.gw g).bulbs :=
  (hp.bulbs_perm.mem_iff).trans List.mem_flatMap

theorem mem_targetsToDevices {d : Daemon} (hp : d.devices.Partition) {targets : List TargetName}
    {b : BulbRef} : b ∈ d.targetsToDevices targets ↔ ∃ target ∈ targets, b ∈ d.selected target := by
  refine (mem_collectDevices (selected_listed hp) (fun _ hb => absurd hb List.not_mem_nil)).trans ?_
  simp

/-- Sending a power command marks exactly the bulbs that the same targets list. -/
theorem router_paths_agree (clientId : UInt32) (es : List Event)
    (hl : daemonSystem.Legal (started clientId) es) (now : Time) (targets : List TargetName)
    (power : UInt16) :
    let d := daemonSystem.exec (started clientId) es
    let d' := (d.routerSend now targets (.setPowerState power)).1
    ∀ b, (b ∈ d.targetsToDevices targets →
        (d'.bulb b).dirtyAt = now ∧ (d'.bulb b).expectedPowerOn = power) ∧
      (b ∉ d.targetsToDevices targets →
        (d'.bulb b).dirtyAt = (d.bulb b).dirtyAt ∧
        (d'.bulb b).expectedPowerOn = (d.bulb b).expectedPowerOn) := by
  intro d d' b
  have hp : d.devices.Partition := (always_partition hl).last
  have hsend : Routed now (.setPowerState power) _ d d' := routed_routerSend targets (mem_bulbs_iff hp)
  have hlist : b ∈ d.targetsToDevices targets ↔ _ := mem_targetsToDevices hp
  constructor
  · intro hb
    rw [hsend.marked b (hlist.mp hb)]
    exact ⟨rfl,rfl⟩
  · intro hb
    rw [hsend.kept b (fun hm => hb (hlist.mpr hm))]
    exact ⟨rfl,rfl⟩

theorem router_paths_agree_handover :
    let d := daemonSystem.exec (started 7) (handoverRun.take 4)
    let targets : List TargetName := [[35,97],[],[48,49,48,50,48,51,48,52,48,53,48,54],[42]]
    let d' := (d.routerSend 9 targets (.setPowerState powerOff)).1
    d.targetsToDevices targets = [0] ∧ (d'.bulb 0).dirtyAt = 9 ∧
      (d'.bulb 0).expectedPowerOn = powerOff := by
  have hlist : (daemonSystem.exec (started 7) (handoverRun.take 4)).targetsToDevices
      [[35,97],[],[48,49,48,50,48,51,48,52,48,53,48,54],[42]] = [0] := by decide +kernel
  refine ⟨hlist,(router_paths_agree 7 (handoverRun.take 4) (by decide +kernel) 9 _ powerOff 0).1 ?_⟩
  rw [hlist]
  exact List.mem_singleton_self 0

end Lightsd.Core
