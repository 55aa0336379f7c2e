import Lightsd.Lifx.TagCensus

/-! # Reference counts that stop at their limit

The count of a tag id is a byte that stops at 255 on the way up and not on the way down. A
count and the number of bulbs it stands for change together, by one at most, and with the
largest number so far `p` the count falls short by the amount by which `p` exceeds 255. It
is zero too early exactly when no more than that many bulbs are left.
-/
namespace Lightsd.Lifx

open Devices

section Cells

/-- How a count and the number of bulbs it stands for change. -/
inductive Moves : UInt8 → ℕ → UInt8 → ℕ → Prop
  | stay (e : UInt8) (n : ℕ) : Moves e n e n
  | add (e : UInt8) (n : ℕ) : Moves e n (increment e) (n + 1)
  | drop (e : UInt8) (n : ℕ) : Moves e (n + 1) (decrement e) n

/-- Enough bulbs are left for the count not to be zero. -/
def Steady (p n : ℕ) : Prop := p ≤ 255 ∨ p < n + 255

/-- A count that falls short by what was missed on the way up. -/
structure Short (p : ℕ) (e : UInt8) (n : ℕ) : Prop where
  le : n ≤ p
  count : e.toNat + (p - 255) = n
  steady : Steady p n

variable {p n n' : ℕ} {e e' : UInt8}

theorem Short.pos (h : Short p e n) (hn : 0 < n) : 0 < e.toNat := by
  have hcount := h.count
  rcases h.steady with hs | hs <;> omega

theorem Short.eq_zero (h : Short p e n) (he : e = 0) : n = 0 := by
  by_contra hn
  have hpos := h.pos (by omega)
  rw [he] at hpos
  exact absurd hpos (by decide)

/-- A change keeps the shortfall as long as enough bulbs are left. -/
theorem Short.moves (h : Short p e n) (hm : Moves e n e' n') (hs : Steady (max p n') n') :
    Short (max p n') e' n' := by
  have hpos := h.pos
  obtain ⟨hle,hcount,-⟩ := h
  cases hm with
  | stay =>
    rw [max_eq_left hle] at hs ⊢
    exact ⟨hle,hcount,hs⟩
  | add =>
    refine ⟨le_max_right _ _,?_,hs⟩
    have hlt := e.toNat_lt
    by_cases hfull : e.toNat = 255
    · have hstop : increment e = e := if_neg (not_not.mpr (UInt8.toNat_inj.mp hfull))
      rw [hstop,hfull]
      omega
    · have hinc := toNat_increment (n := e) (by omega)
      rw [hinc]
      omega
  | drop =>
    have hdec := toNat_decrement (hpos (Nat.succ_pos _))
    rw [max_eq_left (by omega)] at hs ⊢
    exact ⟨by omega,by omega,hs⟩

/-- Otherwise the count is zero too early. -/
theorem Short.breaks (h : Short p e n) (hm : Moves e n e' n') (hs : ¬ Steady (max p n') n') : e' = 0 ∧ 0 < n' := by
  have hsteady := h.steady
  obtain ⟨hle,hcount,-⟩ := h
  unfold Steady at hs hsteady
  cases hm with
  | stay => omega
  | add => omega
  | drop =>
    have hpos : 0 < e.toNat := by omega
    have hdec := toNat_decrement hpos
    refine ⟨UInt8.toNat_inj.mp ?_,by omega⟩
    have hzero : UInt8.toNat 0 = 0 := rfl
    omega

theorem steady_max {p q n : ℕ} : Steady (max p q) n ↔ Steady p n ∧ Steady q n := by
  unfold Steady
  omega

theorem Steady.mono {p q n : ℕ} (h : Steady p n) (hq : q ≤ p) : Steady q n := by
  unfold Steady at h ⊢
  omega

end Cells
section Moves
variable {r : Devices} {g : GatewayRef} {b : BulbRef} {id : ℕ}

theorem notMem_members (hp : r.Partition) (hg : g ≠ r.owner b) : b ∉ r.members g := by
  intro hb
  by_cases hlive : g ∈ r.gateways
  · exact hg (hp.member_owner hlive hb).symm
  · rw [hp.closed g hlive] at hb
    cases hb

/-- A cell when the tags of one of the bulbs are set. -/
theorem moves_updated (old new : TagMask) (hid : id < maxTags) (e : UInt8) {n n' : ℕ}
    (hcount : n' + (if hasTagId old id then 1 else 0) = n + (if hasTagId new id then 1 else 0)) :
    let added := if id ∈ foreachTagId ((old ^^^ new) &&& new) then increment e else e
    Moves e n (if id ∈ foreachTagId ((old ^^^ new) &&& old) then decrement added else added) n' := by
  simp only [TagCensus.mem_added hid,TagCensus.mem_removed hid]
  cases ho : hasTagId old id <;> cases hw : hasTagId new id <;>
    simp only [ho,hw,Bool.false_eq_true,Bool.true_eq_false,if_false,if_true,and_true,and_false,and_self,
      add_zero,Nat.add_right_cancel_iff] at hcount ⊢
  · exact hcount ▸ .stay e n
  · exact hcount ▸ .add e n
  · exact hcount ▸ .drop e n'
  · exact hcount ▸ .stay e n

theorem moves_setTags (hp : r.Partition) (hb : b ∈ r.bulbs) (tags : TagMask) (hid : id < maxTags) :
    Moves (r.refcounts g id) (r.tagged g id) ((r.setTags b tags).refcounts g id) ((r.setTags b tags).tagged g id) := by
  by_cases hg : g = r.owner b
  · subst hg
    have hnodup := hp.members_nodup _ (hp.owner_mem b hb)
    have hcount := Census.countP_update (hasTagId · id) r.tags hnodup (hp.listed hb) tags
    have hmoves := moves_updated (r.tags b) tags hid (r.refcounts (r.owner b) id) hcount
    simp only [Devices.setTags,releaseRefs,addRefs,mapRefs,tagged,Function.update_self]
    exact hmoves
  · have hsame := Census.countP_update_of_notMem (hasTagId · id) r.tags (notMem_members hp hg) tags
    simp only [Devices.setTags,releaseRefs,addRefs,mapRefs,tagged,Function.update_of_ne hg,hsame]
    exact .stay _ _

theorem moves_closeBulb (hp : r.Partition) (hb : b ∈ r.bulbs) (hid : id < maxTags) :
    Moves (r.refcounts g id) (r.tagged g id) ((r.closeBulb (r.owner b) b).refcounts g id)
      ((r.closeBulb (r.owner b) b).tagged g id) := by
  rw [closeBulb_eq]
  simp only [releaseRefs,mapRefs,tagged]
  by_cases hg : g = r.owner b
  · subst hg
    have herase := Census.countP_erase_add (fun x => hasTagId (r.tags x) id) (hp.listed hb)
    simp only [Function.update_self]
    by_cases hbit : hasTagId (r.tags b) id = true
    · rw [if_pos hbit] at herase
      rw [if_pos ((TagCensus.mem_tagIds hid).mpr hbit),← herase]
      exact .drop _ _
    · rw [if_neg hbit,add_zero] at herase
      rw [if_neg (fun h => hbit ((TagCensus.mem_tagIds hid).mp h)),← herase]
      exact .stay _ _
  · simp only [Function.update_of_ne hg]
    exact .stay _ _

theorem moves_openBulb (hp : r.Partition) (g' : GatewayRef) (addr : Addr) :
    Moves (r.refcounts g id) (r.tagged g id)
      ((r.openBulb g' addr).refcounts g id) ((r.openBulb g' addr).tagged g id) := by
  have hnew : r.nextBulb ∉ r.members g := by
    intro hm
    by_cases hlive : g ∈ r.gateways
    · exact (hp.bulbs_lt _ (hp.member_bulb hlive hm)).ne rfl
    · rw [hp.closed g hlive] at hm
      cases hm
  have hsame := Census.countP_update_of_notMem (hasTagId · id) r.tags hnew 0
  have hzero : hasTagId 0 id = false := by simp [hasTagId]
  have htagged : (r.openBulb g' addr).tagged g id = r.tagged g id := by
    simp only [Devices.openBulb,count,tagged]
    by_cases hg : g = g'
    · subst hg
      rw [Function.update_self,List.countP_cons,hsame]
      simp only [Function.update_self,hzero,Bool.false_eq_true,if_false,add_zero]
    · rw [Function.update_of_ne hg,hsame]
  rw [htagged]
  exact .stay _ _

theorem moves_openGateway (hp : r.Partition) (peer : SockAddr) (hclosed : r.refcounts r.nextGw id = 0) :
    Moves (r.refcounts g id) (r.tagged g id) ((r.openGateway peer).refcounts g id)
      ((r.openGateway peer).tagged g id) := by
  simp only [Devices.openGateway,count,tagged]
  by_cases hg : g = r.nextGw
  · subst hg
    have hnot : r.nextGw ∉ r.gateways := fun h => (hp.gateways_lt _ h).ne rfl
    rw [hclosed,hp.closed _ hnot,Function.update_self,Function.update_self]
    exact .stay _ _
  · rw [Function.update_of_ne hg,Function.update_of_ne hg]
    exact .stay _ _

end Moves
section Underflow
variable {d : Daemon} {g : GatewayRef}

/-- No reference count of zero was decremented. -/
def NoUnderflow (d : Daemon) : Prop := ∀ g id, Fault.zeroRefcount g id ∉ d.faults

theorem noUnderflow_check {c : Bool} {f : Fault} (hf : c = true ∨ ∀ g id, f ≠ .zeroRefcount g id)
    (h : NoUnderflow d) : NoUnderflow (d.check c f) := by
  cases c with
  | true => exact h
  | false =>
    intro g id hmem
    rcases List.mem_append.mp hmem with hmem | hmem
    · exact h g id hmem
    · rcases hf with hf | hf
      · cases hf
      · exact hf g id (List.mem_singleton.mp hmem).symm

theorem noUnderflow_statsAdd (c : Counter) (value : ℤ) (h : NoUnderflow d) : NoUnderflow (d.statsAdd c value) :=
  noUnderflow_check (d := d) (Or.inr (fun _ _ => nofun)) h

theorem noUnderflow_recountTag (b : BulbRef) (id : ℕ) (h : NoUnderflow d) : NoUnderflow (Daemon.recountTag b d id) :=
  noUnderflow_check (f := .recount b id) (Or.inr (fun _ _ => nofun))
    (noUnderflow_check (f := .bulbStillListed b) (Or.inr (fun _ _ => nofun)) h)

theorem noUnderflow_bulbClose (b : BulbRef) (h : NoUnderflow d) : NoUnderflow (d.bulbClose b) := by
  have hrecount : ∀ ids : List ℕ, NoUnderflow (ids.foldl (Daemon.recountTag b) d) := by
    intro ids
    induction ids generalizing d with
    | nil => exact h
    | cons id ids ih => exact ih (noUnderflow_recountTag b id h)
  unfold Daemon.bulbClose
  simp only
  split
  · exact noUnderflow_statsAdd _ _ (noUnderflow_statsAdd _ _ (hrecount _))
  · exact noUnderflow_statsAdd _ _ (hrecount _)

/-- The loop over the ids that are given up, as it is run when tags are set and when a bulb
is closed. -/
theorem noUnderflow_release {f : Daemon → ℕ → Daemon}
    (hfaults : ∀ d id, (f d id).faults = (Daemon.releaseTagRef g d id).faults)
    (hdevices : ∀ d id, (f d id).devices = d.devices.releaseRefs g [id]) {ids : List ℕ} (hids : ids.Nodup)
    (hpos : ∀ id ∈ ids, 0 < (d.gw g).tagRefcounts id) (h : NoUnderflow d) : NoUnderflow (ids.foldl f d) := by
  induction ids generalizing d with
  | nil => exact h
  | cons id ids ih =>
    obtain ⟨hid,hids⟩ := List.nodup_cons.mp hids
    apply ih hids
    · intro i hi
      have hne : i ≠ id := fun heq => hid (heq ▸ hi)
      have hrefs : ((f d id).gw g).tagRefcounts i = (d.devices.releaseRefs g [id]).refcounts g i :=
        congrFun (congrFun (congrArg Devices.refcounts (hdevices d id)) g) i
      have hsame : (d.devices.releaseRefs g [id]).refcounts g i = (d.gw g).tagRefcounts i := by
        simp [releaseRefs,mapRefs,hne,Daemon.devices]
      rw [hrefs,hsame]
      exact hpos i (List.mem_cons_of_mem _ hi)
    · intro g' id'
      rw [hfaults]
      exact noUnderflow_check (Or.inl (decide_eq_true (hpos id List.mem_cons_self))) h g' id'

theorem noUnderflow_removeAndCloseBulb (b : BulbRef)
    (hpos : ∀ id ∈ foreachTagId (d.bulb b).state.tags, 0 < (d.gw g).tagRefcounts id) (h : NoUnderflow d) :
    NoUnderflow (d.removeAndCloseBulb g b) := by
  apply noUnderflow_bulbClose
  exact noUnderflow_release (fun _ _ => rfl) (Daemon.devices_releaseTagRef g) (foreachTagId_nodup _) hpos h

theorem noUnderflow_setTags (b : BulbRef) (tags : TagMask)
    (hpos : ∀ id ∈ foreachTagId (((d.bulb b).state.tags ^^^ tags) &&& (d.bulb b).state.tags),
      0 < (d.gw (d.bulb b).gw).tagRefcounts id) (h : NoUnderflow d) : NoUnderflow (d.setTags b tags) := by
  let g := (d.bulb b).gw
  let added := foreachTagId (((d.bulb b).state.tags ^^^ tags) &&& tags)
  have hdevices : (added.foldl (Daemon.addTagRef g) d).devices = d.devices.addRefs g added := by
    rw [← addRefs_foldl (foreachTagId_nodup _)]
    exact Daemon.foldl_view Daemon.devices (Daemon.devices_addTagRef g) d _
  have hfaults : (added.foldl (Daemon.addTagRef g) d).faults = d.faults := by
    refine Daemon.foldl_keeps Daemon.faults (fun d id => ?_) d _
    unfold Daemon.addTagRef
    split <;> rfl
  have hadd : NoUnderflow (added.foldl (Daemon.addTagRef g) d) := by
    intro g' id'
    rw [hfaults]
    exact h g' id'
  refine noUnderflow_release (g := g) (f := Daemon.dropTagRef g) (fun d id => ?_) (fun d id => ?_)
    (foreachTagId_nodup _) (fun id hid => ?_) hadd
  · unfold Daemon.dropTagRef
    simp only
    split <;> rfl
  · rw [(Daemon.silent_dropTagRef g d id).devices,Daemon.devices_releaseTagRef]
  · have hlt : id < maxTags := lt_of_mem_foreachTagId hid
    have hnot : id ∉ added := by
      intro hmem
      have hold := (TagCensus.mem_added hlt).mp hmem
      have hnew := (TagCensus.mem_removed hlt).mp hid
      exact absurd (hold.1.symm.trans hnew.1) nofun
    have hrefs : ((added.foldl (Daemon.addTagRef g) d).gw g).tagRefcounts id = (d.gw g).tagRefcounts id := by
      have hview := congrFun (congrFun (congrArg Devices.refcounts hdevices) g) id
      simpa [addRefs,mapRefs,hnot,Daemon.devices] using hview
    rw [hrefs]
    exact hpos id hid

end Underflow
end Lightsd.Lifx
