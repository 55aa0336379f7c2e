import Lightsd.Library.Census
import Lightsd.Lifx.DeviceTransitions

/-! # Reference counts of tag ids as a census

The reference count of a tag id on a gateway is the number of its bulbs that carry
the id, as long as that number fits into a byte.
-/
namespace Lightsd.Lifx.Devices

open Census

structure TagCensus (r : Devices) : Prop where
  counts : ∀ g ∈ r.gateways, ∀ id < maxTags, (r.refcounts g id).toNat = r.tagged g id
  ok : r.refcountsOk

def TagBound (r : Devices) : Prop := ∀ g ∈ r.gateways, ∀ id < maxTags, r.tagged g id ≤ 255

theorem toNat_decrement {n : UInt8} (h : 0 < n.toNat) : (decrement n).toNat + 1 = n.toNat := by
  have hlt := n.toNat_lt
  have hone : UInt8.toNat 1 = 1 := rfl
  simp only [decrement,UInt8.toNat_sub,hone]
  omega

theorem toNat_increment {n : UInt8} (h : n.toNat < 255) : (increment n).toNat = n.toNat + 1 := by
  have hne : n ≠ 255 := by
    rintro rfl
    exact absurd h (by decide)
  have hone : UInt8.toNat 1 = 1 := rfl
  simp only [increment,ne_eq,hne,not_false_eq_true,if_true,UInt8.toNat_add,hone]
  omega

namespace TagCensus

variable {r : Devices}

theorem mem_tagIds {mask : TagMask} {id : ℕ} (hid : id < maxTags) :
    id ∈ foreachTagId mask ↔ hasTagId mask id = true := by
  rw [mem_foreachTagId,hasTagId_eq hid]

theorem openGateway (h : r.TagCensus) (hp : r.Partition) (peer : SockAddr) :
    (r.openGateway peer).TagCensus := by
  refine ⟨?_,h.ok⟩
  intro g hg id hid
  simp only [Devices.openGateway,count,tagged] at hg ⊢
  rcases List.mem_cons.mp hg with rfl | hg
  · rw [Function.update_self,Function.update_self]
    rfl
  · have hne : g ≠ r.nextGw := (hp.gateways_lt g hg).ne
    rw [Function.update_of_ne hne,Function.update_of_ne hne]
    exact h.counts g hg id hid

theorem openBulb (h : r.TagCensus) (hp : r.Partition) {g : GatewayRef} {addr : Addr} :
    (r.openBulb g addr).TagCensus := by
  refine ⟨?_,h.ok⟩
  intro g' hg' id hid
  have hnew : ∀ x ∈ r.gateways, r.nextBulb ∉ r.members x :=
    fun x hx hm => (hp.bulbs_lt _ (hp.member_bulb hx hm)).ne rfl
  have hzero : hasTagId 0 id = false := by simp [hasTagId]
  have hsame := countP_update_of_notMem (hasTagId · id) r.tags (hnew g' hg') 0
  have hcount := h.counts g' hg' id hid
  simp only [Devices.openBulb,count,tagged] at hg' hcount ⊢
  rw [hcount,← hsame]
  by_cases hgg : g' = g
  · subst hgg
    rw [Function.update_self,List.countP_cons]
    simp only [Function.update_self,hzero,Bool.false_eq_true,if_false,add_zero]
  · rw [Function.update_of_ne hgg]

theorem closeBulb (h : r.TagCensus) (hp : r.Partition) {b : BulbRef} (live : b ∈ r.bulbs) :
    (r.closeBulb (r.owner b) b).TagCensus := by
  have hg := hp.owner_mem b live
  have hb := hp.listed live
  have hcount : ∀ id < maxTags,
      (if id ∈ foreachTagId (r.tags b) then decrement (r.refcounts (r.owner b) id)
        else r.refcounts (r.owner b) id).toNat =
      ((r.members (r.owner b)).erase b).countP (fun x => hasTagId (r.tags x) id) := by
    intro id hid
    have herase := countP_erase_add (fun x => hasTagId (r.tags x) id) hb
    have hold := h.counts _ hg id hid
    unfold tagged at hold
    by_cases hmem : id ∈ foreachTagId (r.tags b)
    · have hbit := (mem_tagIds hid).mp hmem
      simp only [hbit,if_true] at herase
      have hdec := toNat_decrement (n := r.refcounts (r.owner b) id) (by omega)
      rw [if_pos hmem]
      omega
    · have hbit := mt (mem_tagIds hid).mpr hmem
      simp only [hbit,Bool.false_eq_true,if_false] at herase
      rw [if_neg hmem]
      omega
  rw [closeBulb_eq]
  refine ⟨?_,?_⟩
  · intro g' hg' id hid
    simp only [releaseRefs,mapRefs,tagged]
    by_cases hgg : g' = r.owner b
    · subst hgg
      rw [Function.update_self,Function.update_self]
      exact hcount id hid
    · rw [Function.update_of_ne hgg,Function.update_of_ne hgg]
      exact h.counts g' hg' id hid
  · refine ⟨⟨h.ok,?_⟩,?_⟩
    · intro id hmem
      have hid : id < maxTags := lt_of_mem_foreachTagId hmem
      have hold := h.counts _ hg id hid
      have hbit := (mem_tagIds hid).mp hmem
      have hpos : 0 < r.tagged (r.owner b) id := List.countP_pos_iff.mpr ⟨b,hb,hbit⟩
      exact UInt8.lt_iff_toNat_lt.mpr (by rw [hold]; exact hpos)
    · intro id hmem
      have hid : id < maxTags := lt_of_mem_foreachTagId hmem
      simp only [unlist,releaseRefs,mapRefs,tagged,Function.update_self]
      exact ⟨(hp.members_nodup _ hg).not_mem_erase,hcount id hid⟩

theorem dropGateway (h : r.TagCensus) (g : GatewayRef) : (r.dropGateway g).TagCensus :=
  ⟨fun g' hg' id hid => h.counts g' (List.mem_of_mem_erase hg') id hid,h.ok⟩

theorem setPower (h : r.TagCensus) (b : BulbRef) (power : UInt16) : (r.setPower b power).TagCensus := by
  rw [setPower_eq]
  exact ⟨h.counts,h.ok⟩

theorem op {r' : Devices} (h : r.TagCensus) (hp : r.Partition) (hop : r.Op r') : r'.TagCensus := by
  cases hop with
  | openGateway peer new => exact h.openGateway hp peer
  | openBulb g addr live new => exact h.openBulb hp
  | closeBulb b live => exact h.closeBulb hp live
  | dropGateway g live empty => exact h.dropGateway g
  | setPower b power live level => exact h.setPower b power

theorem mem_added {old new : TagMask} {id : ℕ} (hid : id < maxTags) :
    id ∈ foreachTagId ((old ^^^ new) &&& new) ↔ hasTagId old id = false ∧ hasTagId new id = true := by
  rw [mem_foreachTagId,BitVec.getLsbD_and,BitVec.getLsbD_xor,← hasTagId_eq hid,← hasTagId_eq hid]
  cases hasTagId old id <;> cases hasTagId new id <;> decide

theorem mem_removed {old new : TagMask} {id : ℕ} (hid : id < maxTags) :
    id ∈ foreachTagId ((old ^^^ new) &&& old) ↔ hasTagId old id = true ∧ hasTagId new id = false := by
  rw [mem_foreachTagId,BitVec.getLsbD_and,BitVec.getLsbD_xor,← hasTagId_eq hid,← hasTagId_eq hid]
  cases hasTagId old id <;> cases hasTagId new id <;> decide

/-- The reference count after an update of the tags of one of the bulbs. -/
theorem updated {n : UInt8} {before after : ℕ} (old new : TagMask) {id : ℕ} (hid : id < maxTags)
    (hn : n.toNat = before) (hbound : after ≤ 255)
    (hcount : after + (if hasTagId old id then 1 else 0) = before + (if hasTagId new id then 1 else 0)) :
    let added := if id ∈ foreachTagId ((old ^^^ new) &&& new) then increment n else n
    (if id ∈ foreachTagId ((old ^^^ new) &&& old) then decrement added else added).toNat = after ∧
    (id ∈ foreachTagId ((old ^^^ new) &&& old) → 0 < added) := by
  simp only [mem_added hid,mem_removed hid]
  cases ho : hasTagId old id <;> cases hw : hasTagId new id <;>
    simp only [ho,hw,Bool.false_eq_true,if_false,if_true] at hcount
  · simp
    omega
  · have hinc := toNat_increment (n := n) (by omega)
    simp
    omega
  · have hdec := toNat_decrement (n := n) (by omega)
    have hpos : 0 < n := UInt8.lt_iff_toNat_lt.mpr (show 0 < n.toNat by omega)
    simp [hpos]
    omega
  · simp
    omega

theorem setTags (h : r.TagCensus) (hp : r.Partition) {b : BulbRef} {tags : TagMask}
    (live : b ∈ r.bulbs) (hbound : (r.setTags b tags).TagBound) : (r.setTags b tags).TagCensus := by
  have hg := hp.owner_mem b live
  have hb := hp.listed live
  have hupd : ∀ id (hid : id < maxTags), _ := fun id hid =>
    updated (r.tags b) tags hid (h.counts _ hg id hid) (hbound _ hg id hid)
      (countP_update (hasTagId · id) r.tags (hp.members_nodup _ hg) hb tags)
  refine ⟨?_,h.ok,?_⟩
  · intro g hg' id hid
    by_cases hgo : g = r.owner b
    · subst hgo
      have hnew := (hupd id hid).1
      simp only [Devices.setTags,releaseRefs,addRefs,mapRefs,Function.update_self]
      exact hnew
    · have hnot : b ∉ r.members g := fun hm => hgo (hp.member_owner hg' hm).symm
      have hsame := countP_update_of_notMem (hasTagId · id) r.tags hnot tags
      simp only [Devices.setTags,releaseRefs,addRefs,mapRefs,tagged,Function.update_of_ne hgo]
      exact (h.counts g hg' id hid).trans hsame.symm
  · intro id hmem
    have hid : id < maxTags := lt_of_mem_foreachTagId hmem
    simp only [addRefs,mapRefs,Function.update_self]
    exact (hupd id hid).2 hmem

theorem transition {r' : Devices} (h : r.TagCensus) (hp : r.Partition) (ht : Transition r r')
    (hbound : r'.TagBound) : r'.TagCensus := by
  obtain ⟨mid,hops,hlast⟩ := ht
  have hmid : mid.Partition ∧ mid.TagCensus := by
    clear hlast
    induction hops with
    | refl => exact ⟨hp,h⟩
    | tail _ hop ih => exact ⟨ih.1.op hop,ih.2.op ih.1 hop⟩
  rcases hlast with rfl | ⟨b,tags,hb,rfl⟩
  · exact hmid.2
  · exact hmid.2.setTags hmid.1 hb hbound

end TagCensus
end Lightsd.Lifx.Devices
