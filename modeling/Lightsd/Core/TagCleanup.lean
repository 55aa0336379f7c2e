import Lightsd.Core.CensusRuns
import Lightsd.Core.Reachable
import Lightsd.Lifx.Outbox

/-! # Deleting tags that are no longer used

When the last bulb of a gateway that carries an id drops it, a packet with an empty label
deletes the id on the site. Its mask is meant for this id, but it names every id without a
label too. If a bulb still carries one of those, an id in use is deleted.
-/
namespace Lightsd.Lifx.Daemon

/-- The packet that deletes ids on a site. -/
def deletePacket (d : Daemon) (g : GatewayRef) (mask : TagMask) : OutPacket :=
  (Request.setTagLabels mask (Vector.replicate 32 0)).packet d.clientId .site (d.gw g).site

/-- The mask a gateway deletes an id with. -/
def deleteMask (d : Daemon) (g : GatewayRef) (id : ℕ) : TagMask := ~~~((d.gw g).tagIds &&& ~~~tagIdToValue id)

/-- Some bulb of the gateway carries an id once one of them has a new mask. -/
def CarriedAfter (d : Daemon) (g : GatewayRef) (b : BulbRef) (new : TagMask) (id : ℕ) : Prop :=
  ∃ b' ∈ (d.gw g).bulbs, (Function.update (fun x => (d.bulb x).state.tags) b new b').getLsbD id = true

instance (d : Daemon) (g : GatewayRef) (b : BulbRef) (new : TagMask) : DecidablePred (d.CarriedAfter g b new) :=
  fun _ => inferInstanceAs (Decidable (∃ b' ∈ (d.gw g).bulbs, _))

/-- The ids whose last carrier drops them with its new mask. -/
def lastDropped (d : Daemon) (g : GatewayRef) (b : BulbRef) (new : TagMask) : List ℕ :=
  (foreachTagId (d.bulb b).state.tags).filter (fun id => ¬ d.CarriedAfter g b new id)

theorem deletePacket_inj {d : Daemon} {g : GatewayRef} {m m' : TagMask}
    (h : d.deletePacket g m = d.deletePacket g m') : m = m' := by
  simp only [deletePacket,Request.packet,OutPacket.mk.injEq,Request.payload,Option.some_inj] at h
  exact bytes_mask_inj (List.append_cancel_right h.2.2)

theorem getLsbD_deleteMask {d : Daemon} {g : GatewayRef} {id i : ℕ} (hid : id < maxTags) (hi : i < maxTags) :
    (d.deleteMask g id).getLsbD i = true ↔ i = id ∨ (d.gw g).tagIds.getLsbD i = false := by
  have hlt : i < 64 := hi
  simp only [deleteMask,BitVec.getLsbD_not,BitVec.getLsbD_and,getLsbD_tagIdToValue hid,hlt]
  by_cases heq : i = id
  · simp [heq]
  · simp [heq]

section Counts
variable {d : Daemon} {g : GatewayRef}

/-- What a step of the loops over ids keeps of a gateway. -/
structure SameSite (g : GatewayRef) (d d' : Daemon) : Prop where
  clientId : d'.clientId = d.clientId
  site : (d'.gw g).site = (d.gw g).site
  tagIds : (d'.gw g).tagIds = (d.gw g).tagIds
  others : ∀ g', g' ≠ g → d'.gw g' = d.gw g'

theorem SameSite.trans {d' d'' : Daemon} (h : SameSite g d d') (h' : SameSite g d' d'') : SameSite g d d'' :=
  ⟨h'.clientId.trans h.clientId,h'.site.trans h.site,h'.tagIds.trans h.tagIds,
    fun g' hg' => (h'.others g' hg').trans (h.others g' hg')⟩

theorem SameSite.packet {d' : Daemon} (h : SameSite g d d') (id : ℕ) :
    d'.deletePacket g (d'.deleteMask g id) = d.deletePacket g (d.deleteMask g id) := by
  simp only [deletePacket,deleteMask,h.clientId,h.site,h.tagIds]

theorem sameSite_modifyGw {f : Gateway → Gateway} (hsite : (f (d.gw g)).site = (d.gw g).site)
    (hids : (f (d.gw g)).tagIds = (d.gw g).tagIds) : SameSite g d (d.modifyGw g f) := by
  refine ⟨rfl,by simpa [modifyGw] using hsite,by simpa [modifyGw] using hids,fun g' hg' => ?_⟩
  simp [modifyGw,hg']

theorem addTagRef_spec (g : GatewayRef) (d : Daemon) (id : ℕ) :
    SameSite g d (addTagRef g d id) ∧ ((addTagRef g d id).gw g).enqueued = (d.gw g).enqueued ∧
    ∀ i, i ≠ id → ((addTagRef g d id).gw g).tagRefcounts i = (d.gw g).tagRefcounts i := by
  unfold addTagRef
  split
  · refine ⟨sameSite_modifyGw rfl rfl,by simp [modifyGw,Gateway.setRefcount],fun i hi => ?_⟩
    simp [modifyGw,Gateway.setRefcount,hi]
  · exact ⟨⟨rfl,rfl,rfl,fun _ _ => rfl⟩,rfl,fun _ _ => rfl⟩

theorem addTagRefs_spec (d : Daemon) (ids : List ℕ) :
    SameSite g d (ids.foldl (addTagRef g) d) ∧
    ((ids.foldl (addTagRef g) d).gw g).enqueued = (d.gw g).enqueued ∧
    ∀ i, i ∉ ids → ((ids.foldl (addTagRef g) d).gw g).tagRefcounts i = (d.gw g).tagRefcounts i := by
  induction ids generalizing d with
  | nil => exact ⟨⟨rfl,rfl,rfl,fun _ _ => rfl⟩,rfl,fun _ _ => rfl⟩
  | cons id ids ih =>
    obtain ⟨hsame,hqueue,hcounts⟩ := addTagRef_spec g d id
    obtain ⟨hrest,hrestQueue,hrestCounts⟩ := ih (addTagRef g d id)
    refine ⟨hsame.trans hrest,hrestQueue.trans hqueue,fun i hi => ?_⟩
    rw [List.mem_cons,not_or] at hi
    exact (hrestCounts i hi.2).trans (hcounts i hi.1)

theorem releaseTagRef_spec (g : GatewayRef) (d : Daemon) (id : ℕ) :
    SameSite g d (releaseTagRef g d id) ∧ ((releaseTagRef g d id).gw g).enqueued = (d.gw g).enqueued ∧
    ((releaseTagRef g d id).gw g).tagRefcounts =
      Function.update (d.gw g).tagRefcounts id ((d.gw g).tagRefcounts id - 1) := by
  have hcheck : ∀ c f, SameSite g d (d.check c f) ∧ (d.check c f).gw = d.gw := by
    intro c f
    cases c <;> exact ⟨⟨rfl,rfl,rfl,fun _ _ => rfl⟩,rfl⟩
  obtain ⟨hsame,hgw⟩ := hcheck (decide (0 < (d.gw g).tagRefcounts id)) (.zeroRefcount g id)
  have hset : SameSite g _ (releaseTagRef g d id) :=
    sameSite_modifyGw (f := fun gw => gw.setRefcount id (gw.tagRefcounts id - 1)) rfl rfl
  refine ⟨hsame.trans hset,?_,?_⟩
  · simp [releaseTagRef,modifyGw,hgw,Gateway.setRefcount]
  · simp [releaseTagRef,modifyGw,hgw,Gateway.setRefcount]

theorem sendToSite_spec (g : GatewayRef) (d : Daemon) (req : Request) :
    SameSite g d (d.sendToSite g req) ∧
    ((d.sendToSite g req).gw g).enqueued = (d.gw g).enqueued ++ [req.packet d.clientId .site (d.gw g).site] ∧
    ((d.sendToSite g req).gw g).tagRefcounts = (d.gw g).tagRefcounts := by
  obtain ⟨-,-,hcounts,hids,-⟩ := enqueuePacket_keeps (d.gw g) (req.packet d.clientId .site (d.gw g).site)
  have hsite : ((d.gw g).enqueuePacket (req.packet d.clientId .site (d.gw g).site)).site = (d.gw g).site := by
    simpa [enqueue,modifyGw] using site_enqueue d g g .site req
  have hsent : SameSite g d (d.sendToSite g req) :=
    sameSite_modifyGw (f := fun gw => gw.enqueuePacket (req.packet d.clientId .site gw.site)) hsite hids
  refine ⟨hsent,?_,?_⟩
  · simp [sendToSite,enqueue,modifyGw,Gateway.enqueued_enqueuePacket]
  · simpa [sendToSite,enqueue,modifyGw] using hcounts

theorem dropTagRef_spec (g : GatewayRef) (d : Daemon) (id : ℕ) :
    SameSite g d (dropTagRef g d id) ∧
    ((dropTagRef g d id).gw g).enqueued = (d.gw g).enqueued ++
      (if (d.gw g).tagRefcounts id - 1 = 0 then [d.deletePacket g (d.deleteMask g id)] else []) ∧
    ∀ i, i ≠ id → ((dropTagRef g d id).gw g).tagRefcounts i = (d.gw g).tagRefcounts i := by
  obtain ⟨hsame,hqueue,hcounts⟩ := releaseTagRef_spec g d id
  have hcount : ((releaseTagRef g d id).gw g).tagRefcounts id = (d.gw g).tagRefcounts id - 1 := by
    simp [hcounts]
  have hothers : ∀ i, i ≠ id → ((releaseTagRef g d id).gw g).tagRefcounts i = (d.gw g).tagRefcounts i := by
    intro i hi
    simp [hcounts,hi]
  unfold dropTagRef
  simp only [hcount]
  split
  · obtain ⟨hsent,hsentQueue,hsentCounts⟩ := sendToSite_spec g (releaseTagRef g d id)
      (.setTagLabels ((releaseTagRef g d id).deleteMask g id) (Vector.replicate 32 0))
    refine ⟨hsame.trans hsent,?_,fun i hi => (congrFun hsentCounts i).trans (hothers i hi)⟩
    refine hsentQueue.trans ?_
    rw [hqueue,← hsame.packet]
    rfl
  · exact ⟨hsame,by simpa using hqueue,hothers⟩

/-- The loop over the ids a bulb dropped. -/
theorem dropTagRefs_spec (d : Daemon) {ids : List ℕ} (hids : ids.Nodup) :
    SameSite g d (ids.foldl (dropTagRef g) d) ∧
    ((ids.foldl (dropTagRef g) d).gw g).enqueued = (d.gw g).enqueued ++
      (ids.filter (fun id => (d.gw g).tagRefcounts id - 1 = 0)).map
        (fun id => d.deletePacket g (d.deleteMask g id)) := by
  induction ids generalizing d with
  | nil => exact ⟨⟨rfl,rfl,rfl,fun _ _ => rfl⟩,by simp⟩
  | cons id ids ih =>
    obtain ⟨hid,hrest⟩ := List.nodup_cons.mp hids
    obtain ⟨hsame,hqueue,hcounts⟩ := dropTagRef_spec g d id
    obtain ⟨hlater,hlog⟩ := ih (dropTagRef g d id) hrest
    refine ⟨hsame.trans hlater,?_⟩
    have hfilter : ids.filter (fun i => ((dropTagRef g d id).gw g).tagRefcounts i - 1 = 0) =
        ids.filter (fun i => (d.gw g).tagRefcounts i - 1 = 0) := by
      refine List.filter_congr (fun i hi => ?_)
      rw [hcounts i (fun h => hid (h ▸ hi))]
    rw [List.foldl_cons,hlog,hqueue,hfilter]
    simp only [hsame.packet]
    by_cases hlast : (d.gw g).tagRefcounts id - 1 = 0
    · simp [hlast]
    · simp [hlast]

theorem sameSite_updateTagRefcounts (d : Daemon) (g : GatewayRef) (old new : TagMask) :
    SameSite g d (d.updateTagRefcounts g old new) :=
  (addTagRefs_spec d _).1.trans (dropTagRefs_spec _ (foreachTagId_nodup _)).1

theorem foreachTagId_removed (old new : TagMask) :
    foreachTagId ((old ^^^ new) &&& old) = (foreachTagId old).filter (fun id => !new.getLsbD id) := by
  simp only [foreachTagId_eq,BitScan.setBits,List.filter_filter]
  refine List.filter_congr (fun i _ => ?_)
  simp only [BitVec.getLsbD_and,BitVec.getLsbD_xor]
  cases old.getLsbD i <;> cases new.getLsbD i <;> rfl

/-- The last carrier of an id drops it exactly if its count goes to zero. -/
theorem refcount_last (hp : d.devices.Partition) (hg : g ∈ d.gateways) {b : BulbRef}
    (hb : b ∈ (d.gw g).bulbs) {id : ℕ} (hid : id < maxTags)
    (hcount : ((d.gw g).tagRefcounts id).toNat = d.countTagged g id) {new : TagMask}
    (hold : (d.bulb b).state.tags.getLsbD id = true) (hnew : new.getLsbD id = false) :
    (d.gw g).tagRefcounts id - 1 = 0 ↔ ¬ d.CarriedAfter g b new id := by
  have hnodup : (d.gw g).bulbs.Nodup := hp.members_nodup g hg
  have hupdate := Census.countP_update (hasTagId · id) (fun x => (d.bulb x).state.tags) hnodup hb new
  simp only [hasTagId_eq hid,hold,hnew,if_true,Bool.false_eq_true,if_false] at hupdate
  have hbefore : d.countTagged g id =
      (d.gw g).bulbs.countP (fun x => (d.bulb x).state.tags.getLsbD id) := by
    simp only [countTagged,hasTagId_eq hid]
  rw [hbefore,← Nat.add_zero (List.countP _ _),← hupdate] at hcount
  have hpositive : 0 < ((d.gw g).tagRefcounts id).toNat := by omega
  have hdecrement := Devices.toNat_decrement hpositive
  have hzero : (d.gw g).tagRefcounts id - 1 = 0 ↔
      (d.gw g).bulbs.countP (fun x =>
        (Function.update (fun y => (d.bulb y).state.tags) b new x).getLsbD id) = 0 := by
    rw [← UInt8.toNat_inj]
    change (Devices.decrement _).toNat = 0 ↔ _
    omega
  rw [hzero,List.countP_eq_zero]
  simp [CarriedAfter]

/-- What a change of the mask of a bulb queues. -/
theorem newPackets_updateTagRefcounts (hp : d.devices.Partition) (hg : g ∈ d.gateways) {b : BulbRef}
    (hb : b ∈ (d.gw g).bulbs)
    (hcounts : ∀ id < maxTags, ((d.gw g).tagRefcounts id).toNat = d.countTagged g id) (new : TagMask) :
    newPackets d (d.updateTagRefcounts g (d.bulb b).state.tags new) g =
      (d.lastDropped g b new).map (fun id => d.deletePacket g (d.deleteMask g id)) := by
  generalize hold : (d.bulb b).state.tags = old
  obtain ⟨hsame,hqueue,hkept⟩ := addTagRefs_spec (g := g) d (foreachTagId ((old ^^^ new) &&& new))
  obtain ⟨-,hlog⟩ := dropTagRefs_spec (g := g) ((foreachTagId ((old ^^^ new) &&& new)).foldl (addTagRef g) d)
    (foreachTagId_nodup ((old ^^^ new) &&& old))
  refine newPackets_of_append (hlog.trans ?_)
  rw [hqueue]
  simp only [hsame.packet]
  refine congrArg ((d.gw g).enqueued ++ List.map _ ·) ?_
  rw [foreachTagId_removed,List.filter_filter,lastDropped,hold]
  refine List.filter_congr (fun id hid => ?_)
  have hbit := mem_foreachTagId.mp hid
  cases hnew : new.getLsbD id with
  | true =>
    have hcarried : d.CarriedAfter g b new id := ⟨b,hb,by simpa using hnew⟩
    simp [hcarried]
  | false =>
    have hunadded : id ∉ foreachTagId ((old ^^^ new) &&& new) := by
      intro hmem
      have hadded := mem_foreachTagId.mp hmem
      rw [BitVec.getLsbD_and,hnew,Bool.and_false] at hadded
      cases hadded
    have hlast := refcount_last hp hg hb (lt_of_mem_foreachTagId hid)
      (hcounts id (lt_of_mem_foreachTagId hid)) (hold ▸ hbit) hnew
    simp [hkept id hunadded,hlast]

end Counts
end Lightsd.Lifx.Daemon

namespace Lightsd.Core

open Lifx Lifx.Daemon

/-- A bulb of the gateway gets a new mask: for each id whose last carrier it was, one packet
is queued that deletes this id and no id that is still carried, and nothing else. -/
structure CleansUp (d : Daemon) (g : GatewayRef) (b : BulbRef) (new : TagMask) : Prop where
  packets : List.Forall₂ (fun id p => ∃ mask, p = d.deletePacket g mask ∧ mask.getLsbD id = true ∧
      ∀ i, mask.getLsbD i = true → ¬ d.CarriedAfter g b new i)
    (d.lastDropped g b new) (newPackets d (d.updateTagRefcounts g (d.bulb b).state.tags new) g)
  elsewhere : ∀ g', g' ≠ g → newPackets d (d.updateTagRefcounts g (d.bulb b).state.tags new) g' = []

/-- Clean-up deletes no id in use exactly if no id loses its last carrier, or every id that
is still carried has a label. -/
theorem cleans_up_iff {d : Daemon} (hd : Reachable d) {g : GatewayRef} (hg : g ∈ d.gateways) {b : BulbRef}
    (hb : b ∈ (d.gw g).bulbs)
    (hcounts : ∀ id < maxTags, ((d.gw g).tagRefcounts id).toNat = d.countTagged g id) (new : TagMask) :
    CleansUp d g b new ↔
      (∀ id, (d.bulb b).state.tags.getLsbD id = true → d.CarriedAfter g b new id) ∨
      ∀ id, d.CarriedAfter g b new id → (d.gw g).tagIds.getLsbD id = true := by
  have hpackets := newPackets_updateTagRefcounts hd.partition hg hb hcounts new
  have hmem : ∀ id, id ∈ d.lastDropped g b new ↔
      (d.bulb b).state.tags.getLsbD id = true ∧ ¬ d.CarriedAfter g b new id := by
    intro id
    simp [lastDropped,mem_foreachTagId]
  constructor
  · intro h
    refine or_iff_not_imp_left.mpr (fun hlast id hid => ?_)
    simp only [not_forall] at hlast
    obtain ⟨i,hold,hdropped⟩ := hlast
    have hall := h.packets
    rw [hpackets,List.forall₂_map_right_iff,List.forall₂_same] at hall
    obtain ⟨mask,hmask,-,hnone⟩ := hall i ((hmem i).mpr ⟨hold,hdropped⟩)
    rw [← deletePacket_inj hmask] at hnone
    by_contra hunknown
    have hlt : id < maxTags := by
      obtain ⟨b',-,hbit⟩ := hid
      exact BitVec.lt_of_getLsbD hbit
    exact hnone id ((getLsbD_deleteMask (BitVec.lt_of_getLsbD hold) hlt).mpr
      (Or.inr (by simpa only [Bool.not_eq_true] using hunknown))) hid
  · intro h
    refine ⟨?_,fun g' hg' => ?_⟩
    · rw [hpackets,List.forall₂_map_right_iff,List.forall₂_same]
      intro id hid
      obtain ⟨hold,hdropped⟩ := (hmem id).mp hid
      have hlt : id < maxTags := BitVec.lt_of_getLsbD hold
      have hknown := h.resolve_left (fun hall => hdropped (hall id hold))
      refine ⟨_,rfl,(getLsbD_deleteMask hlt hlt).mpr (Or.inl rfl),fun i hi hcarried => ?_⟩
      rcases (getLsbD_deleteMask hlt (BitVec.lt_of_getLsbD hi)).mp hi with rfl | hunknown
      · exact hdropped hcarried
      · rw [hknown i hcarried] at hunknown
        cases hunknown
    · simp [newPackets,(sameSite_updateTagRefcounts d g _ new).others g' hg']

/-- Two bulbs that carry one id each; the gateway has a label for the id of the second. -/
def labelledLampsRun : List Event :=
  lampsRun [[1,0,0,0,0,0,0,0],[2,0,0,0,0,0,0,0]] ++
    [.gatewayReceive 0 3 (.sent [1] .allDevices .tagLabels (labelPayload 2 [120])) {}]

def labelledLamps : Daemon := daemonSystem.exec (started 7) labelledLampsRun

theorem cleans_up_labelledLamps :
    labelledLamps.lastDropped 0 0 0 = [0] ∧ labelledLamps.CarriedAfter 0 0 0 1 ∧ CleansUp labelledLamps 0 0 0 := by
  refine ⟨by decide +kernel,by decide +kernel,
    (cleans_up_iff ⟨7,labelledLampsRun,by decide +kernel,rfl,by decide +kernel⟩ (by decide +kernel)
      (by decide +kernel) (by decide +kernel) 0).mpr (Or.inr ?_)⟩
  have hcarried : ∀ id < maxTags, labelledLamps.CarriedAfter 0 0 0 id →
      (labelledLamps.gw 0).tagIds.getLsbD id = true := by decide +kernel
  intro id hid
  obtain ⟨b,hb,hbit⟩ := hid
  exact hcarried id (BitVec.lt_of_getLsbD hbit) ⟨b,hb,hbit⟩

/-- The same without the label. -/
def unlabelledLampsRun : List Event := lampsRun [[1,0,0,0,0,0,0,0],[2,0,0,0,0,0,0,0]]

def unlabelledLamps : Daemon := daemonSystem.exec (started 7) unlabelledLampsRun

/-- The first bulb drops its id, and the id of the second bulb is deleted too. -/
theorem used_id_deleted :
    Reachable unlabelledLamps ∧ 0 ∈ unlabelledLamps.gateways ∧ 0 ∈ (unlabelledLamps.gw 0).bulbs ∧
    (∀ id < maxTags, ((unlabelledLamps.gw 0).tagRefcounts id).toNat = unlabelledLamps.countTagged 0 id) ∧
    (unlabelledLamps.deleteMask 0 0).getLsbD 1 = true ∧ unlabelledLamps.CarriedAfter 0 0 0 1 ∧
    ¬ CleansUp unlabelledLamps 0 0 0 := by
  have hreach : Reachable unlabelledLamps := ⟨7,unlabelledLampsRun,by decide +kernel,rfl,by decide +kernel⟩
  have hg : (0 : GatewayRef) ∈ unlabelledLamps.gateways := by decide +kernel
  have hb : (0 : BulbRef) ∈ (unlabelledLamps.gw 0).bulbs := by decide +kernel
  have hcounts : ∀ id < maxTags,
      ((unlabelledLamps.gw 0).tagRefcounts id).toNat = unlabelledLamps.countTagged 0 id := by decide +kernel
  have hnamed : (unlabelledLamps.deleteMask 0 0).getLsbD 1 = true := by decide +kernel
  have hcarried : unlabelledLamps.CarriedAfter 0 0 0 1 := by decide +kernel
  refine ⟨hreach,hg,hb,hcounts,hnamed,hcarried,fun h => ?_⟩
  have hdropped : unlabelledLamps.lastDropped 0 0 0 = [0] := by decide +kernel
  have hall := h.packets
  rw [newPackets_updateTagRefcounts hreach.partition hg hb hcounts,hdropped,List.forall₂_map_right_iff,
    List.forall₂_same] at hall
  obtain ⟨mask,hmask,-,hnone⟩ := hall 0 List.mem_cons_self
  rw [← deletePacket_inj hmask] at hnone
  exact hnone 1 hnamed hcarried

end Lightsd.Core
