import Lightsd.Lifx.DeviceOperations

/-! # The device registry as a partition

The elementary operations on the registry of devices, with the conditions under which
the daemon performs them, keep the bulb table the disjoint union of the lists of the
gateways.
-/
namespace Lightsd.Lifx.Devices

/-- One elementary change, where the daemon makes it. Tags are set separately since
they alone can make a reference count grow. -/
inductive Op (r : Devices) : Devices → Prop
  | openGateway (peer : SockAddr) (new : ∀ g ∈ r.gateways, r.peer g ≠ peer) :
    Op r (r.openGateway peer)
  | openBulb (g : GatewayRef) (addr : Addr) (live : g ∈ r.gateways)
    (new : ∀ b ∈ r.bulbs, r.addr b ≠ addr) : Op r (r.openBulb g addr)
  | closeBulb (b : BulbRef) (live : b ∈ r.bulbs) : Op r (r.closeBulb (r.owner b) b)
  | dropGateway (g : GatewayRef) (live : g ∈ r.gateways) (empty : r.members g = []) :
    Op r (r.dropGateway g)
  | setPower (b : BulbRef) (power : UInt16) (live : b ∈ r.bulbs)
    (level : power = powerOff ∨ power = powerOn) : Op r (r.setPower b power)

abbrev Ops : Devices → Devices → Prop := Relation.ReflTransGen Op

structure Partition (r : Devices) : Prop where
  gateways_nodup : r.gateways.Nodup
  gateways_lt : ∀ g ∈ r.gateways, g < r.nextGw
  peers : ∀ g ∈ r.gateways, ∀ g' ∈ r.gateways, r.peer g = r.peer g' → g = g'
  bulbs_nodup : r.bulbs.Nodup
  bulbs_lt : ∀ b ∈ r.bulbs, b < r.nextBulb
  addrs : ∀ b ∈ r.bulbs, ∀ b' ∈ r.bulbs, r.addr b = r.addr b' → b = b'
  members_nodup : ∀ g ∈ r.gateways, (r.members g).Nodup
  mem_members : ∀ g ∈ r.gateways, ∀ b, b ∈ r.members g ↔ b ∈ r.bulbs ∧ r.owner b = g
  owner_mem : ∀ b ∈ r.bulbs, r.owner b ∈ r.gateways
  closed : ∀ g, g ∉ r.gateways → r.members g = []

theorem closeBulb_eq (r : Devices) (g : GatewayRef) (b : BulbRef) :
    r.closeBulb g b = { r with
      bulbs := r.bulbs.erase b
      members := Function.update r.members g ((r.members g).erase b)
      refcounts := (r.releaseRefs g (foreachTagId (r.tags b))).refcounts
      counters := (r.forgetBulb b).counters
      statsOk := (r.forgetBulb b).statsOk
      refcountsOk :=
        (((r.releaseRefs g (foreachTagId (r.tags b))).unlist g b).recount b).refcountsOk } := by
  by_cases h : r.power b = powerOn <;>
    simp only [closeBulb,forgetBulb,count,recount,unlist,releaseRefs,mapRefs,h,if_true,if_false]

theorem setPower_eq (r : Devices) (b : BulbRef) (power : UInt16) :
    r.setPower b power = { r with
      power := Function.update r.power b power
      counters := (r.setPower b power).counters
      statsOk := (r.setPower b power).statsOk } := by
  unfold setPower
  by_cases h : power = r.power b
  · simp [h]
  · simp only [ne_eq,h,not_false_eq_true,if_true]
    rfl

namespace Partition

variable {r : Devices}

theorem member_bulb (h : r.Partition) {g : GatewayRef} {b : BulbRef} (hg : g ∈ r.gateways)
    (hb : b ∈ r.members g) : b ∈ r.bulbs := ((h.mem_members g hg b).mp hb).1

theorem member_owner (h : r.Partition) {g : GatewayRef} {b : BulbRef} (hg : g ∈ r.gateways)
    (hb : b ∈ r.members g) : r.owner b = g := ((h.mem_members g hg b).mp hb).2

theorem listed (h : r.Partition) {b : BulbRef} (hb : b ∈ r.bulbs) : b ∈ r.members (r.owner b) :=
  (h.mem_members _ (h.owner_mem b hb) b).mpr ⟨hb,rfl⟩

/-- The bulb table is the disjoint union of the lists of the gateways. -/
theorem bulbs_perm (h : r.Partition) : r.bulbs.Perm (r.gateways.flatMap r.members) := by
  have hdisjoint : (r.gateways.flatMap r.members).Nodup := by
    rw [List.nodup_flatMap]
    refine ⟨h.members_nodup,h.gateways_nodup.imp_of_mem ?_⟩
    intro g g' hg hg' hne b hb hb'
    exact hne ((h.member_owner hg hb).symm.trans (h.member_owner hg' hb'))
  refine (List.perm_ext_iff_of_nodup h.bulbs_nodup hdisjoint).mpr (fun b => ?_)
  rw [List.mem_flatMap]
  constructor
  · intro hb
    exact ⟨r.owner b,h.owner_mem b hb,h.listed hb⟩
  · rintro ⟨g,hg,hb⟩
    exact h.member_bulb hg hb

theorem openGateway (h : r.Partition) {peer : SockAddr} (new : ∀ g ∈ r.gateways, r.peer g ≠ peer) :
    (r.openGateway peer).Partition := by
  have hfresh : ∀ g ∈ r.gateways, g ≠ r.nextGw := fun g hg => (h.gateways_lt g hg).ne
  refine ⟨?_,?_,?_,h.bulbs_nodup,h.bulbs_lt,h.addrs,?_,?_,?_,?_⟩
  · exact List.nodup_cons.mpr ⟨fun hm => hfresh _ hm rfl,h.gateways_nodup⟩
  · intro g hg
    rcases List.mem_cons.mp hg with rfl | hg
    · exact Nat.lt_succ_self _
    · exact Nat.lt_succ_of_lt (h.gateways_lt g hg)
  · intro g hg g' hg' heq
    simp only [Devices.openGateway,count] at hg hg' heq
    rcases List.mem_cons.mp hg with rfl | hg <;> rcases List.mem_cons.mp hg' with rfl | hg'
    · rfl
    · rw [Function.update_self,Function.update_of_ne (hfresh g' hg')] at heq
      exact absurd heq.symm (new g' hg')
    · rw [Function.update_self,Function.update_of_ne (hfresh g hg)] at heq
      exact absurd heq (new g hg)
    · rw [Function.update_of_ne (hfresh g hg),Function.update_of_ne (hfresh g' hg')] at heq
      exact h.peers g hg g' hg' heq
  · intro g hg
    simp only [Devices.openGateway,count] at hg ⊢
    rcases List.mem_cons.mp hg with rfl | hg
    · rw [Function.update_self]
      exact List.nodup_nil
    · rw [Function.update_of_ne (hfresh g hg)]
      exact h.members_nodup g hg
  · intro g hg b
    simp only [Devices.openGateway,count] at hg ⊢
    rcases List.mem_cons.mp hg with rfl | hg
    · rw [Function.update_self]
      constructor
      · intro hb
        cases hb
      · rintro ⟨hb,howner⟩
        exact absurd howner (hfresh _ (h.owner_mem b hb))
    · rw [Function.update_of_ne (hfresh g hg)]
      exact h.mem_members g hg b
  · intro b hb
    exact List.mem_cons_of_mem _ (h.owner_mem b hb)
  · intro g hg
    have hne : g ≠ r.nextGw := List.ne_of_not_mem_cons hg
    simp only [Devices.openGateway,count,Function.update_of_ne hne]
    exact h.closed g (List.not_mem_of_not_mem_cons hg)

theorem insertBulb_perm (h : r.Partition) {addr : Addr} (new : ∀ b ∈ r.bulbs, r.addr b ≠ addr) :
    (Daemon.insertBulb (Function.update r.addr r.nextBulb addr) r.nextBulb r.bulbs).Perm
      (r.nextBulb :: r.bulbs) := by
  refine Daemon.insertBulb_perm (fun b hb => ?_)
  rw [Function.update_self,Function.update_of_ne (h.bulbs_lt b hb).ne]
  exact (new b hb).symm

theorem openBulb (h : r.Partition) {g : GatewayRef} {addr : Addr} (live : g ∈ r.gateways)
    (new : ∀ b ∈ r.bulbs, r.addr b ≠ addr) : (r.openBulb g addr).Partition := by
  have hperm := h.insertBulb_perm new
  have hfresh : ∀ b ∈ r.bulbs, b ≠ r.nextBulb := fun b hb => (h.bulbs_lt b hb).ne
  have hmem : ∀ b, b ∈ (r.openBulb g addr).bulbs ↔ b = r.nextBulb ∨ b ∈ r.bulbs :=
    fun b => hperm.mem_iff.trans List.mem_cons
  have hlisted : ∀ g' ∈ r.gateways, r.nextBulb ∉ r.members g' :=
    fun g' hg' hm => hfresh _ (h.member_bulb hg' hm) rfl
  refine ⟨h.gateways_nodup,h.gateways_lt,h.peers,?_,?_,?_,?_,?_,?_,?_⟩
  · exact hperm.nodup_iff.mpr (List.nodup_cons.mpr ⟨fun hm => hfresh _ hm rfl,h.bulbs_nodup⟩)
  · intro b hb
    rcases (hmem b).mp hb with rfl | hb
    · exact Nat.lt_succ_self _
    · exact Nat.lt_succ_of_lt (h.bulbs_lt b hb)
  · intro b hb b' hb' heq
    simp only [Devices.openBulb,count] at heq
    rcases (hmem b).mp hb with rfl | hb <;> rcases (hmem b').mp hb' with rfl | hb'
    · rfl
    · rw [Function.update_self,Function.update_of_ne (hfresh b' hb')] at heq
      exact absurd heq.symm (new b' hb')
    · rw [Function.update_self,Function.update_of_ne (hfresh b hb)] at heq
      exact absurd heq (new b hb)
    · rw [Function.update_of_ne (hfresh b hb),Function.update_of_ne (hfresh b' hb')] at heq
      exact h.addrs b hb b' hb' heq
  · intro g' hg'
    simp only [Devices.openBulb,count] at hg' ⊢
    by_cases hg : g' = g
    · subst hg
      rw [Function.update_self]
      exact List.nodup_cons.mpr ⟨hlisted g' hg',h.members_nodup g' hg'⟩
    · rw [Function.update_of_ne hg]
      exact h.members_nodup g' hg'
  · intro g' hg' b
    rw [hmem]
    simp only [Devices.openBulb,count] at hg' ⊢
    by_cases hb : b = r.nextBulb
    · subst hb
      rw [Function.update_self]
      by_cases hg : g' = g
      · subst hg
        simp
      · rw [Function.update_of_ne hg]
        simp [hlisted g' hg',Ne.symm hg]
    · rw [Function.update_of_ne hb]
      by_cases hg : g' = g
      · subst hg
        rw [Function.update_self]
        simpa [hb] using h.mem_members g' hg' b
      · rw [Function.update_of_ne hg]
        simpa [hb] using h.mem_members g' hg' b
  · intro b hb
    simp only [Devices.openBulb,count]
    rcases (hmem b).mp hb with rfl | hb
    · rw [Function.update_self]
      exact live
    · rw [Function.update_of_ne (hfresh b hb)]
      exact h.owner_mem b hb
  · intro g' hg'
    have hne : g' ≠ g := fun e => hg' (e ▸ live)
    simp only [Devices.openBulb,count,Function.update_of_ne hne]
    exact h.closed g' hg'

theorem closeBulb (h : r.Partition) (b : BulbRef) :
    (r.closeBulb (r.owner b) b).Partition := by
  rw [closeBulb_eq]
  have hsub : ∀ x ∈ r.bulbs.erase b, x ∈ r.bulbs := fun x hx => List.mem_of_mem_erase hx
  refine ⟨h.gateways_nodup,h.gateways_lt,h.peers,h.bulbs_nodup.erase b,
    fun x hx => h.bulbs_lt x (hsub x hx),
    fun x hx y hy => h.addrs x (hsub x hx) y (hsub y hy),?_,?_,
    fun x hx => h.owner_mem x (hsub x hx),?_⟩
  · intro g hg
    by_cases hgo : g = r.owner b
    · subst hgo
      simp only [Function.update_self]
      exact (h.members_nodup _ hg).erase b
    · simp only [Function.update_of_ne hgo]
      exact h.members_nodup g hg
  · intro g hg x
    simp only [h.bulbs_nodup.mem_erase_iff]
    by_cases hgo : g = r.owner b
    · subst hgo
      simp only [Function.update_self,(h.members_nodup _ hg).mem_erase_iff]
      rw [h.mem_members _ hg,and_assoc]
    · simp only [Function.update_of_ne hgo]
      rw [h.mem_members g hg]
      constructor
      · rintro ⟨hx,rfl⟩
        exact ⟨⟨fun e => hgo (e ▸ rfl),hx⟩,rfl⟩
      · rintro ⟨⟨_,hx⟩,hxg⟩
        exact ⟨hx,hxg⟩
  · intro g hg
    have hempty := h.closed g hg
    by_cases hgo : g = r.owner b
    · subst hgo
      simp only [Function.update_self,hempty,List.erase_nil]
    · simp only [Function.update_of_ne hgo,hempty]

theorem dropGateway (h : r.Partition) {g : GatewayRef} (empty : r.members g = []) :
    (r.dropGateway g).Partition := by
  have hmem : ∀ x, x ∈ r.gateways.erase g ↔ x ≠ g ∧ x ∈ r.gateways :=
    fun x => h.gateways_nodup.mem_erase_iff
  have hsub : ∀ x ∈ r.gateways.erase g, x ∈ r.gateways := fun x hx => List.mem_of_mem_erase hx
  refine ⟨h.gateways_nodup.erase g,fun x hx => h.gateways_lt x (hsub x hx),
    fun x hx y hy => h.peers x (hsub x hx) y (hsub y hy),h.bulbs_nodup,h.bulbs_lt,h.addrs,
    fun x hx => h.members_nodup x (hsub x hx),fun x hx => h.mem_members x (hsub x hx),?_,?_⟩
  · intro b hb
    refine (hmem _).mpr ⟨?_,h.owner_mem b hb⟩
    intro (howner : r.owner b = g)
    have hlisted := h.listed hb
    rw [howner,empty] at hlisted
    cases hlisted
  · intro x hx
    by_cases hxg : x = g
    · subst hxg
      exact empty
    · exact h.closed x (fun hm => hx ((hmem x).mpr ⟨hxg,hm⟩))

theorem setPower (h : r.Partition) (b : BulbRef) (power : UInt16) : (r.setPower b power).Partition := by
  rw [setPower_eq]
  exact ⟨h.gateways_nodup,h.gateways_lt,h.peers,h.bulbs_nodup,h.bulbs_lt,h.addrs,h.members_nodup,
    h.mem_members,h.owner_mem,h.closed⟩

theorem setTags (h : r.Partition) (b : BulbRef) (tags : TagMask) : (r.setTags b tags).Partition :=
  ⟨h.gateways_nodup,h.gateways_lt,h.peers,h.bulbs_nodup,h.bulbs_lt,h.addrs,h.members_nodup,
    h.mem_members,h.owner_mem,h.closed⟩

theorem op {r' : Devices} (h : r.Partition) (hop : r.Op r') : r'.Partition := by
  cases hop with
  | openGateway peer new => exact h.openGateway new
  | openBulb g addr live new => exact h.openBulb live new
  | closeBulb b live => exact h.closeBulb b
  | dropGateway g live empty => exact h.dropGateway empty
  | setPower b power live level => exact h.setPower b power

theorem ops {r' : Devices} (h : r.Partition) (hops : Ops r r') : r'.Partition := by
  induction hops with
  | refl => exact h
  | tail _ hop ih => exact ih.op hop

end Partition
end Lightsd.Lifx.Devices
