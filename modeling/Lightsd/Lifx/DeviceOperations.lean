import Lightsd.Lifx.TagRules

/-! # Operations on the registry of devices

What opening, closing and updating gateways and bulbs does to the view of the devices.
The loops over the tag ids of a mask become pointwise changes of the reference counts.
-/
namespace Lightsd.Lifx

namespace Devices

def count (r : Devices) (c : Counter) (value : ℤ) : Devices :=
  { r with
    counters := r.counters.add c value
    statsOk := r.statsOk ∧ 0 ≤ r.counters.get c + value }

def openGateway (r : Devices) (peer : SockAddr) : Devices :=
  count { r with
    gateways := r.nextGw :: r.gateways
    nextGw := r.nextGw + 1
    peer := Function.update r.peer r.nextGw peer
    members := Function.update r.members r.nextGw []
    refcounts := Function.update r.refcounts r.nextGw (fun _ => 0) } .gateways 1

def openBulb (r : Devices) (g : GatewayRef) (addr : Addr) : Devices :=
  count { r with
    bulbs := Daemon.insertBulb (Function.update r.addr r.nextBulb addr) r.nextBulb r.bulbs
    nextBulb := r.nextBulb + 1
    addr := Function.update r.addr r.nextBulb addr
    owner := Function.update r.owner r.nextBulb g
    power := Function.update r.power r.nextBulb 0
    tags := Function.update r.tags r.nextBulb 0
    members := Function.update r.members g (r.nextBulb :: r.members g) } .bulbs 1

/-- Change the reference counts of the given ids of a gateway. -/
def mapRefs (r : Devices) (g : GatewayRef) (ids : List ℕ) (f : UInt8 → UInt8) : Devices :=
  { r with
    refcounts := Function.update r.refcounts g
      (fun id => if id ∈ ids then f (r.refcounts g id) else r.refcounts g id) }

def increment (n : UInt8) : UInt8 := if n ≠ 255 then n + 1 else n

def decrement (n : UInt8) : UInt8 := n - 1

def addRefs (r : Devices) (g : GatewayRef) (ids : List ℕ) : Devices := r.mapRefs g ids increment

def releaseRefs (r : Devices) (g : GatewayRef) (ids : List ℕ) : Devices :=
  { r.mapRefs g ids decrement with refcountsOk := r.refcountsOk ∧ ∀ id ∈ ids, 0 < r.refcounts g id }

def tagged (r : Devices) (g : GatewayRef) (id : ℕ) : ℕ :=
  (r.members g).countP (fun b => hasTagId (r.tags b) id)

def recount (r : Devices) (b : BulbRef) : Devices :=
  { r with
    refcountsOk := r.refcountsOk ∧ ∀ id ∈ foreachTagId (r.tags b),
      b ∉ r.members (r.owner b) ∧
      (r.refcounts (r.owner b) id).toNat = r.tagged (r.owner b) id }

def unlist (r : Devices) (g : GatewayRef) (b : BulbRef) : Devices :=
  { r with members := Function.update r.members g ((r.members g).erase b) }

def forgetBulb (r : Devices) (b : BulbRef) : Devices :=
  let r := r.count .bulbs (-1)
  let r := if r.power b = powerOn then r.count .bulbsPoweredOn (-1) else r
  { r with bulbs := r.bulbs.erase b }

def closeBulb (r : Devices) (g : GatewayRef) (b : BulbRef) : Devices :=
  (((r.releaseRefs g (foreachTagId (r.tags b))).unlist g b).recount b).forgetBulb b

def dropGateway (r : Devices) (g : GatewayRef) : Devices :=
  count { r with gateways := r.gateways.erase g } .gateways (-1)

def setPower (r : Devices) (b : BulbRef) (power : UInt16) : Devices :=
  let r := if power ≠ r.power b then
      r.count .bulbsPoweredOn (if power = powerOn then 1 else -1) else r
  { r with power := Function.update r.power b power }

def setTags (r : Devices) (b : BulbRef) (tags : TagMask) : Devices :=
  let changes := r.tags b ^^^ tags
  let r := r.addRefs (r.owner b) (foreachTagId (changes &&& tags))
  let r := r.releaseRefs (r.owner b) (foreachTagId (changes &&& r.tags b))
  { r with tags := Function.update r.tags b tags }

end Devices

namespace Daemon

open Devices (increment decrement)

/-- Reading a field of an updated heap cell, for a field the update may change. -/
theorem update_field {α β : Type} (π : α → β) (heap : ℕ → α) (r : ℕ) (x : α) :
    (fun i => π (Function.update heap r x i)) = Function.update (fun i => π (heap i)) r (π x) := by
  funext i
  by_cases hi : i = r
  · subst hi
    simp only [Function.update_self]
  · simp only [Function.update_of_ne hi]

theorem devices_statsAdd (d : Daemon) (c : Counter) (value : ℤ) :
    (d.statsAdd c value).devices = d.devices.count c value := by
  by_cases h : 0 ≤ d.counters.get c + value
  · simp [statsAdd,check,devices,Devices.count,h]
  · simp [statsAdd,check,fault,devices,Devices.count,h,or_imp,forall_and,Fault.isRefcount]

theorem tagging_statsAdd (d : Daemon) (c : Counter) (value : ℤ) :
    (d.statsAdd c value).tagging = d.tagging := by
  by_cases h : 0 ≤ d.counters.get c + value
  · simp [statsAdd,check,tagging,h]
  · simp [statsAdd,check,fault,tagging,h,or_imp,forall_and,Fault.isTagging]

theorem devices_gatewayOpen (d : Daemon) (peer : SockAddr) (site : Addr) (now : Time) :
    (d.gatewayOpen peer site now).devices = d.devices.openGateway peer := by
  rw [gatewayOpen,devices_statsAdd]
  simp only [Devices.openGateway,devices,update_field Gateway.peer,update_field Gateway.bulbs,
    update_field Gateway.tagRefcounts,Gateway.opened]

theorem devices_modifyGw (d : Daemon) (g : GatewayRef) (f : Gateway → Gateway) :
    (d.modifyGw g f).devices = { d.devices with
      peer := Function.update d.devices.peer g (f (d.gw g)).peer
      members := Function.update d.devices.members g (f (d.gw g)).bulbs
      refcounts := Function.update d.devices.refcounts g (f (d.gw g)).tagRefcounts } := by
  simp only [devices,modifyGw,update_field Gateway.peer,update_field Gateway.bulbs,
    update_field Gateway.tagRefcounts]

theorem devices_modifyBulb (d : Daemon) (b : BulbRef) (f : Bulb → Bulb) :
    (d.modifyBulb b f).devices = { d.devices with
      addr := Function.update d.devices.addr b (f (d.bulb b)).addr
      owner := Function.update d.devices.owner b (f (d.bulb b)).gw
      power := Function.update d.devices.power b (f (d.bulb b)).state.power
      tags := Function.update d.devices.tags b (f (d.bulb b)).state.tags } := by
  simp only [devices,modifyBulb,update_field Bulb.addr,update_field Bulb.gw,
    update_field (fun x : Bulb => x.state.power),update_field (fun x : Bulb => x.state.tags)]

theorem devices_setRefcount (d : Daemon) (g : GatewayRef) (id : ℕ) (h : UInt8 → UInt8) :
    (d.modifyGw g (fun gw => gw.setRefcount id (h (gw.tagRefcounts id)))).devices =
      d.devices.mapRefs g [id] h := by
  rw [devices_modifyGw]
  have hp : Function.update d.devices.peer g (d.gw g).peer = d.devices.peer :=
    Function.update_eq_self g _
  have hb : Function.update d.devices.members g (d.gw g).bulbs = d.devices.members :=
    Function.update_eq_self g _
  have hr : Function.update (d.gw g).tagRefcounts id (h ((d.gw g).tagRefcounts id)) =
      fun i => if i ∈ [id] then h (d.devices.refcounts g i) else d.devices.refcounts g i := by
    funext i
    by_cases hi : i = id
    · subst hi
      simp [devices]
    · simp [devices,hi]
  simp only [Gateway.setRefcount,hp,hb,hr,Devices.mapRefs]

theorem devices_addTagRef (g : GatewayRef) (d : Daemon) (id : ℕ) :
    (addTagRef g d id).devices = d.devices.addRefs g [id] := by
  rw [Devices.addRefs,← devices_setRefcount]
  unfold addTagRef
  by_cases h : (d.gw g).tagRefcounts id = 255
  · have hself : (d.gw g).setRefcount id 255 = d.gw g := by
      rw [← h,Gateway.setRefcount,Function.update_eq_self]
    simp only [h,ne_eq,not_true_eq_false,if_false,modifyGw,increment,hself,Function.update_eq_self]
  · simp only [h,ne_eq,not_false_eq_true,if_true,modifyGw,increment]

theorem tagging_addTagRef (g : GatewayRef) (d : Daemon) (id : ℕ) :
    (addTagRef g d id).tagging = d.tagging := by
  unfold addTagRef
  split
  · exact tagging_modifyGw_of_eq rfl rfl
  · rfl

theorem devices_releaseTagRef (g : GatewayRef) (d : Daemon) (id : ℕ) :
    (releaseTagRef g d id).devices = d.devices.releaseRefs g [id] := by
  have hset := devices_setRefcount
    (d.check (0 < (d.gw g).tagRefcounts id) (.zeroRefcount g id)) g id decrement
  refine hset.trans ?_
  rw [Devices.releaseRefs]
  by_cases h : 0 < (d.gw g).tagRefcounts id
  · simp [check,h,devices,Devices.mapRefs]
  · simp [check,fault,h,devices,Devices.mapRefs,or_imp,forall_and,Fault.isRefcount]

theorem tagging_releaseTagRef (g : GatewayRef) (d : Daemon) (id : ℕ) :
    (releaseTagRef g d id).tagging = d.tagging := by
  unfold releaseTagRef
  rw [tagging_modifyGw_of_eq rfl rfl]
  exact tagging_check rfl

theorem silent_dropTagRef (g : GatewayRef) (d : Daemon) (id : ℕ) :
    Silent (releaseTagRef g d id) (dropTagRef g d id) :=
  silent_ite (silent_sendToSite _ g _) (Silent.refl _)

end Daemon

namespace Devices

theorem mapRefs_nil (r : Devices) (g : GatewayRef) (f : UInt8 → UInt8) : r.mapRefs g [] f = r := by
  simp [mapRefs]

theorem mapRefs_cons {r : Devices} {g : GatewayRef} {id : ℕ} {ids : List ℕ} (f : UInt8 → UInt8)
    (h : id ∉ ids) : (r.mapRefs g [id] f).mapRefs g ids f = r.mapRefs g (id :: ids) f := by
  simp only [mapRefs,Function.update_self,Function.update_idem,List.mem_cons]
  congr
  funext i
  by_cases hi : i = id
  · subst hi
    simp [h]
  · simp [hi]

theorem addRefs_foldl {r : Devices} {g : GatewayRef} {ids : List ℕ} (h : ids.Nodup) :
    ids.foldl (fun r id => r.addRefs g [id]) r = r.addRefs g ids := by
  induction ids generalizing r with
  | nil => exact (mapRefs_nil r g increment).symm
  | cons id ids ih =>
    obtain ⟨hid,hids⟩ := List.nodup_cons.mp h
    rw [List.foldl_cons,ih hids]
    exact mapRefs_cons increment hid

theorem releaseRefs_cons {r : Devices} {g : GatewayRef} {id : ℕ} {ids : List ℕ} (h : id ∉ ids) :
    (r.releaseRefs g [id]).releaseRefs g ids = r.releaseRefs g (id :: ids) := by
  have hok : (r.refcountsOk ∧ ∀ i ∈ [id], 0 < r.refcounts g i) ∧
      (∀ i ∈ ids, 0 < (r.mapRefs g [id] decrement).refcounts g i) ↔
      r.refcountsOk ∧ ∀ i ∈ id :: ids, 0 < r.refcounts g i := by
    have hsame : ∀ i ∈ ids, (r.mapRefs g [id] decrement).refcounts g i = r.refcounts g i := by
      intro i hi
      have hne : i ≠ id := fun e => h (e ▸ hi)
      simp [mapRefs,hne]
    constructor
    · rintro ⟨⟨hr,hid⟩,hids⟩
      refine ⟨hr,List.forall_mem_cons.mpr ⟨hid id List.mem_cons_self,fun i hi => ?_⟩⟩
      exact hsame i hi ▸ hids i hi
    · rintro ⟨hr,hall⟩
      obtain ⟨hid,hids⟩ := List.forall_mem_cons.mp hall
      refine ⟨⟨hr,List.forall_mem_singleton.mpr hid⟩,fun i hi => ?_⟩
      rw [hsame i hi]
      exact hids i hi
  have hmap := mapRefs_cons (r := r) (g := g) decrement h
  simp only [releaseRefs,← propext hok,← hmap]
  rfl

theorem releaseRefs_foldl {r : Devices} {g : GatewayRef} {ids : List ℕ} (h : ids.Nodup) :
    ids.foldl (fun r id => r.releaseRefs g [id]) r = r.releaseRefs g ids := by
  induction ids generalizing r with
  | nil => simp [releaseRefs,mapRefs_nil]
  | cons id ids ih =>
    obtain ⟨hid,hids⟩ := List.nodup_cons.mp h
    rw [List.foldl_cons,ih hids]
    exact releaseRefs_cons hid

end Devices

namespace Daemon

theorem foldl_keeps {α β : Type} (π : Daemon → β) {f : Daemon → α → Daemon}
    (hf : ∀ d x, π (f d x) = π d) (d : Daemon) (l : List α) : π (l.foldl f d) = π d :=
  Runs.foldl_related (R := fun d d' => π d' = π d) (fun _ => rfl) (fun h h' => h'.trans h)
    (fun d x _ => hf d x) d

/-- A loop over the state shows in a view as a loop over the view. -/
theorem foldl_view {α β : Type} (π : Daemon → β) {f : Daemon → α → Daemon} {h : β → α → β}
    (hf : ∀ d x, π (f d x) = h (π d) x) (d : Daemon) (l : List α) :
    π (l.foldl f d) = l.foldl h (π d) := by
  induction l generalizing d with
  | nil => rfl
  | cons x xs ih => rw [List.foldl_cons,ih,hf,List.foldl_cons]

theorem devices_releaseTagRefs (g : GatewayRef) (d : Daemon) (mask : TagMask) :
    ((foreachTagId mask).foldl (releaseTagRef g) d).devices =
      d.devices.releaseRefs g (foreachTagId mask) := by
  rw [← Devices.releaseRefs_foldl (foreachTagId_nodup mask)]
  exact foldl_view devices (devices_releaseTagRef g) d _

theorem devices_updateTagRefcounts (d : Daemon) (g : GatewayRef) (bulbTags pktTags : TagMask) :
    (d.updateTagRefcounts g bulbTags pktTags).devices =
      (d.devices.addRefs g (foreachTagId ((bulbTags ^^^ pktTags) &&& pktTags))).releaseRefs g
        (foreachTagId ((bulbTags ^^^ pktTags) &&& bulbTags)) := by
  rw [← Devices.addRefs_foldl (foreachTagId_nodup _),← Devices.releaseRefs_foldl (foreachTagId_nodup _)]
  have hadd : ∀ ids : List ℕ, (ids.foldl (addTagRef g) d).devices =
      ids.foldl (fun r id => r.addRefs g [id]) d.devices :=
    foldl_view devices (devices_addTagRef g) d
  have hdrop : ∀ (d : Daemon) (id : ℕ), (dropTagRef g d id).devices = d.devices.releaseRefs g [id] :=
    fun d id => by rw [(silent_dropTagRef g d id).devices,devices_releaseTagRef]
  rw [← hadd]
  exact foldl_view devices hdrop _ _

theorem tagging_updateTagRefcounts (d : Daemon) (g : GatewayRef) (bulbTags pktTags : TagMask) :
    (d.updateTagRefcounts g bulbTags pktTags).tagging = d.tagging := by
  unfold updateTagRefcounts
  rw [foldl_keeps tagging,foldl_keeps tagging (tagging_addTagRef g)]
  intro d id
  rw [(silent_dropTagRef g d id).tagging,tagging_releaseTagRef]

theorem devices_check_refcount {d : Daemon} {p : Prop} [Decidable p] {f : Fault}
    (hf : f.isRefcount = true) (hn : f ≠ .negativeCounter) :
    (d.check p f).devices = { d.devices with refcountsOk := d.devices.refcountsOk ∧ p } := by
  by_cases h : p
  · simp [check,h]
  · simp [check,h,fault,devices,or_imp,forall_and,hf,hn.symm]

theorem check_heap (d : Daemon) (c : Bool) (f : Fault) :
    (d.check c f).gw = d.gw ∧ (d.check c f).bulb = d.bulb := by
  cases c <;> exact ⟨rfl,rfl⟩

theorem devices_recountTag (b : BulbRef) (d : Daemon) (id : ℕ) :
    (recountTag b d id).devices = { d.devices with
      refcountsOk := d.devices.refcountsOk ∧ b ∉ d.devices.members (d.devices.owner b) ∧
        (d.devices.refcounts (d.devices.owner b) id).toNat = d.devices.tagged (d.devices.owner b) id } := by
  unfold recountTag
  rw [devices_check_refcount rfl (by simp),devices_check_refcount rfl (by simp),and_assoc]
  simp only [(check_heap _ _ _).1,countTagged,(check_heap _ _ _).2]
  rfl

theorem devices_recountTags (b : BulbRef) (d : Daemon) (ids : List ℕ) :
    (ids.foldl (recountTag b) d).devices = { d.devices with
      refcountsOk := d.devices.refcountsOk ∧ ∀ id ∈ ids,
        b ∉ d.devices.members (d.devices.owner b) ∧
        (d.devices.refcounts (d.devices.owner b) id).toNat = d.devices.tagged (d.devices.owner b) id } := by
  induction ids generalizing d with
  | nil => simp
  | cons id ids ih =>
    rw [List.foldl_cons,ih,devices_recountTag]
    simp only [List.forall_mem_cons,and_assoc,Devices.tagged]

theorem tagging_recountTag (b : BulbRef) (d : Daemon) (id : ℕ) :
    (recountTag b d id).tagging = d.tagging := by
  exact (tagging_check rfl).trans (tagging_check rfl)

theorem statsAdd_heap (d : Daemon) (c : Counter) (value : ℤ) :
    (d.statsAdd c value).gw = d.gw ∧ (d.statsAdd c value).bulb = d.bulb := by
  unfold statsAdd check
  split <;> exact ⟨rfl,rfl⟩

theorem recountTags_heap (b : BulbRef) (d : Daemon) (ids : List ℕ) :
    (ids.foldl (recountTag b) d).bulb = d.bulb := by
  refine foldl_keeps Daemon.bulb (fun d id => ?_) d ids
  exact (check_heap _ _ _).2.trans (check_heap _ _ _).2

theorem devices_bulbClose (d : Daemon) (b : BulbRef) :
    (d.bulbClose b).devices = (d.devices.recount b).forgetBulb b := by
  have hrec := devices_recountTags b d (foreachTagId (d.bulb b).state.tags)
  have hbulb := recountTags_heap b d (foreachTagId (d.bulb b).state.tags)
  unfold bulbClose
  generalize hd' : (foreachTagId (d.bulb b).state.tags).foldl (recountTag b) d = d' at hrec hbulb
  have hcount := devices_statsAdd d' .bulbs (-1)
  have hpower : ((d'.statsAdd .bulbs (-1)).bulb b).state.power =
      ((d.devices.recount b).count .bulbs (-1)).power b := by
    rw [(statsAdd_heap _ _ _).2,hbulb]
    rfl
  have herase : ∀ d : Daemon, ({ d with bulbs := d.bulbs.erase b }).devices =
      { d.devices with bulbs := d.devices.bulbs.erase b } := fun d => rfl
  have hr : d'.devices = d.devices.recount b := hrec
  rw [hr] at hcount
  simp only [herase,Devices.forgetBulb,← hpower]
  split
  · rw [devices_statsAdd,hcount]
  · rw [hcount]

theorem tagging_bulbClose (d : Daemon) (b : BulbRef) : (d.bulbClose b).tagging = d.tagging := by
  unfold bulbClose
  have hrec := foldl_keeps tagging (tagging_recountTag b) d (foreachTagId (d.bulb b).state.tags)
  generalize (foreachTagId (d.bulb b).state.tags).foldl (recountTag b) d = d' at hrec
  have herase : ∀ d : Daemon, ({ d with bulbs := d.bulbs.erase b }).tagging = d.tagging := fun d => rfl
  rw [herase]
  split
  · rw [tagging_statsAdd,tagging_statsAdd,hrec]
  · rw [tagging_statsAdd,hrec]

theorem devices_removeAndCloseBulb (d : Daemon) (g : GatewayRef) (b : BulbRef) :
    (d.removeAndCloseBulb g b).devices = d.devices.closeBulb g b := by
  unfold removeAndCloseBulb
  rw [devices_bulbClose,devices_modifyGw]
  have hrel := devices_releaseTagRefs g d (d.bulb b).state.tags
  generalize (foreachTagId (d.bulb b).state.tags).foldl (releaseTagRef g) d = d' at hrel
  have hp : Function.update d'.devices.peer g (d'.gw g).peer = d'.devices.peer :=
    Function.update_eq_self g _
  have hr : Function.update d'.devices.refcounts g (d'.gw g).tagRefcounts = d'.devices.refcounts :=
    Function.update_eq_self g _
  simp only [Gateway.removeBulb,hp,hr]
  have hunlist : ({ d'.devices with
      members := Function.update d'.devices.members g ((d'.gw g).bulbs.erase b) } : Devices) =
      d'.devices.unlist g b := rfl
  rw [hunlist,hrel]
  rfl

theorem tagging_removeAndCloseBulb (d : Daemon) (g : GatewayRef) (b : BulbRef) :
    (d.removeAndCloseBulb g b).tagging = d.tagging := by
  unfold removeAndCloseBulb
  rw [tagging_bulbClose,tagging_modifyGw_of_eq rfl rfl,foldl_keeps tagging (tagging_releaseTagRef g)]

/-- The functions that change the registry of tags do not show in the devices. -/
theorem devices_tags : TagRule Set.univ (fun d d' => d'.devices = d.devices) where
  refl := fun _ => rfl
  trans := fun h h' => h'.trans h
  shortLabel := fun _ _ _ => devices_check (by simp) rfl
  fault := fun d f hf _ => by
    refine devices_fault ?_ ?_
    · rintro rfl
      cases hf
    · cases f <;> first | rfl | cases hf
  registry := fun _ _ _ _ => rfl
  setTag := fun _ _ _ _ => devices_modifyGw_of_eq rfl rfl rfl
  clearTag := fun _ _ _ => devices_modifyGw_of_eq rfl rfl rfl

end Daemon

namespace Devices

theorem dropGateway_count (r : Devices) (g : GatewayRef) (c : Counter) (value : ℤ)
    (hc : c ≠ .gateways) : (r.dropGateway g).count c value = (r.count c value).dropGateway g := by
  cases c with
  | gateways => exact absurd rfl hc
  | bulbs => simp only [dropGateway,count,Stats.add,Stats.get,and_right_comm]
  | bulbsPoweredOn => simp only [dropGateway,count,Stats.add,Stats.get,and_right_comm]

theorem dropGateway_closeBulb (r : Devices) (g g' : GatewayRef) (b : BulbRef) :
    (r.dropGateway g).closeBulb g' b = (r.closeBulb g' b).dropGateway g := by
  unfold closeBulb
  have hpre : (((r.dropGateway g).releaseRefs g' (foreachTagId ((r.dropGateway g).tags b))).unlist g' b).recount b =
      (((r.releaseRefs g' (foreachTagId (r.tags b))).unlist g' b).recount b).dropGateway g := rfl
  rw [hpre]
  generalize ((r.releaseRefs g' (foreachTagId (r.tags b))).unlist g' b).recount b = r'
  unfold forgetBulb
  simp only [dropGateway_count r' g .bulbs (-1) (by simp)]
  have hpower : ((r'.count .bulbs (-1)).dropGateway g).power b = (r'.count .bulbs (-1)).power b := rfl
  rw [hpower]
  split
  · rw [dropGateway_count _ g .bulbsPoweredOn (-1) (by simp)]
    rfl
  · rfl

/-- Closing a gateway closes its bulbs one after the other. -/
def closeGateway (r : Devices) (g : GatewayRef) : Devices :=
  ((r.members g).foldl (fun r b => r.closeBulb g b) r).dropGateway g

theorem dropGateway_closeBulbs (r : Devices) (g g' : GatewayRef) (l : List BulbRef) :
    l.foldl (fun r b => r.closeBulb g' b) (r.dropGateway g) =
      (l.foldl (fun r b => r.closeBulb g' b) r).dropGateway g := by
  induction l generalizing r with
  | nil => rfl
  | cons b l ih => rw [List.foldl_cons,dropGateway_closeBulb,ih,List.foldl_cons]

end Devices

namespace Daemon

theorem devices_gatewayClose (d : Daemon) (g : GatewayRef) :
    (d.gatewayClose g).devices = d.devices.closeGateway g := by
  have hdrop : ({ d.statsAdd .gateways (-1) with
      gateways := (d.statsAdd .gateways (-1)).gateways.erase g } : Daemon).devices =
      d.devices.dropGateway g := by
    have herase : ∀ d : Daemon, ({ d with gateways := d.gateways.erase g }).devices =
        { d.devices with gateways := d.devices.gateways.erase g } := fun d => rfl
    rw [herase,devices_statsAdd]
    rfl
  have hrel := foldl_keeps devices (devices_tags.releaseTag g)
    { d.statsAdd .gateways (-1) with gateways := (d.statsAdd .gateways (-1)).gateways.erase g }
    (List.range maxTags)
  unfold gatewayClose
  simp only
  generalize (List.range maxTags).foldl (releaseTag g) _ = d' at hrel ⊢
  have hmem : (d'.gw g).bulbs = d.devices.members g := congrFun (congrArg Devices.members (hrel.trans hdrop)) g
  have hview : ((d'.gw g).bulbs.foldl (removeAndCloseBulb · g ·) d').devices =
      (d'.gw g).bulbs.foldl (fun r b => r.closeBulb g b) d'.devices :=
    foldl_view devices (fun d b => devices_removeAndCloseBulb d g b) d' _
  rw [hview,hrel,hdrop,hmem,Devices.dropGateway_closeBulbs]
  rfl

theorem devices_openBulb (d : Daemon) (g : GatewayRef) (addr : Addr) (now : Time) :
    ((d.bulbOpen g addr now).modifyGw g (·.insertBulb d.nextBulb)).devices =
      d.devices.openBulb g addr := by
  have hgw : (d.bulbOpen g addr now).gw = d.gw := (statsAdd_heap _ _ _).1
  have hopen : (d.bulbOpen g addr now).devices = Devices.count { d.devices with
      bulbs := insertBulb (Function.update d.devices.addr d.nextBulb addr) d.nextBulb d.bulbs
      nextBulb := d.nextBulb + 1
      addr := Function.update d.devices.addr d.nextBulb addr
      owner := Function.update d.devices.owner d.nextBulb g
      power := Function.update d.devices.power d.nextBulb 0
      tags := Function.update d.devices.tags d.nextBulb 0 } .bulbs 1 := by
    rw [bulbOpen,devices_statsAdd]
    simp only [devices,update_field Bulb.addr,update_field Bulb.gw,
      update_field (fun x : Bulb => x.state.power),update_field (fun x : Bulb => x.state.tags),
      LightState.zero]
  rw [devices_modifyGw,hopen,hgw]
  have hp : Function.update d.devices.peer g (d.gw g).peer = d.devices.peer :=
    Function.update_eq_self g _
  have hr : Function.update d.devices.refcounts g (d.gw g).tagRefcounts = d.devices.refcounts :=
    Function.update_eq_self g _
  simp only [Gateway.insertBulb,Devices.count,hp,hr,Devices.openBulb]
  rfl

theorem tagging_openBulb (d : Daemon) (g : GatewayRef) (addr : Addr) (now : Time) :
    ((d.bulbOpen g addr now).modifyGw g (·.insertBulb d.nextBulb)).tagging = d.tagging := by
  rw [tagging_modifyGw_of_eq rfl rfl,bulbOpen,tagging_statsAdd]
  rfl

/-- The effect of a change of power, before it is stored. -/
theorem devices_notePower (d : Daemon) (now : Time) (b : BulbRef) (power : UInt16) :
    (d.notePower now b power).devices =
      if power ≠ d.devices.power b then
        d.devices.count .bulbsPoweredOn (if power = powerOn then 1 else -1) else d.devices := by
  unfold notePower
  have hpower : (d.bulb b).state.power = d.devices.power b := rfl
  rw [hpower]
  split
  · rw [(silent_sendToDevice _ now _ b).devices,devices_statsAdd]
  · rfl

theorem tagging_notePower (d : Daemon) (now : Time) (b : BulbRef) (power : UInt16) :
    (d.notePower now b power).tagging = d.tagging := by
  unfold notePower
  split
  · rw [(silent_sendToDevice _ now _ b).tagging,tagging_statsAdd]
  · rfl

theorem devices_modifyState {d : Daemon} {b : BulbRef} {f : Bulb → Bulb}
    (ha : (f (d.bulb b)).addr = (d.bulb b).addr) (hg : (f (d.bulb b)).gw = (d.bulb b).gw) :
    (d.modifyBulb b f).devices = { d.devices with
      power := Function.update d.devices.power b (f (d.bulb b)).state.power
      tags := Function.update d.devices.tags b (f (d.bulb b)).state.tags } := by
  have ha' : Function.update d.devices.addr b (d.bulb b).addr = d.devices.addr :=
    Function.update_eq_self b _
  have hg' : Function.update d.devices.owner b (d.bulb b).gw = d.devices.owner :=
    Function.update_eq_self b _
  rw [devices_modifyBulb,ha,hg,ha',hg']

theorem devices_setPowerState (d : Daemon) (now : Time) (b : BulbRef) (power : UInt16) :
    (d.setPowerState now b power).devices = d.devices.setPower b power := by
  unfold setPowerState
  rw [devices_modifyState rfl rfl]
  have ht : Function.update (d.notePower now b power).devices.tags b
      ((d.notePower now b power).bulb b).state.tags = (d.notePower now b power).devices.tags :=
    Function.update_eq_self b _
  rw [ht,devices_notePower]
  rfl

theorem devices_setTags (d : Daemon) (b : BulbRef) (tags : TagMask) :
    (d.setTags b tags).devices = d.devices.setTags b tags := by
  unfold setTags
  rw [devices_modifyState rfl rfl]
  have hrefs := devices_updateTagRefcounts d (d.bulb b).gw (d.bulb b).state.tags tags
  generalize d.updateTagRefcounts (d.bulb b).gw (d.bulb b).state.tags tags = d' at hrefs
  have hp : Function.update d'.devices.power b (d'.bulb b).state.power = d'.devices.power :=
    Function.update_eq_self b _
  rw [hp,hrefs]
  rfl

theorem devices_setLightState (d : Daemon) (now : Time) (b : BulbRef) (state : LightState)
    (receivedAt : Time) :
    (d.setLightState now b state receivedAt).devices =
      (d.devices.setPower b state.power).setTags b state.tags := by
  unfold setLightState
  simp only
  rw [devices_modifyState rfl rfl,devices_updateTagRefcounts]
  have hnote := devices_notePower d now b state.power
  have hg : ((d.notePower now b state.power).bulb b).gw = (d.notePower now b state.power).devices.owner b := rfl
  have ht : ((d.notePower now b state.power).bulb b).state.tags =
    (d.notePower now b state.power).devices.tags b := rfl
  rw [hg,ht,hnote]
  rfl

end Daemon
end Lightsd.Lifx
