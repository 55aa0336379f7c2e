import Lightsd.Core.DeviceRuns
import Lightsd.Lifx.SaturatedCounts

/-! # Reference counts of tag ids over whole runs

Gateways and bulbs are opened, bulbs get and lose tags and are closed, in any number and
order. Once more than 255 bulbs have had a tag id at a time its count is short for good,
and is zero too early as soon as the number of these bulbs has fallen by 255.
-/
namespace Lightsd.Core

open Lifx Lifx.Devices Runs

/-- What happens to the bulbs of a gateway and to their tags. -/
inductive TagEvent
  | openGateway (peer : SockAddr) (site : Addr) (now : Time)
  | openBulb (g : GatewayRef) (addr : Addr) (now : Time)
  | setTags (b : BulbRef) (tags : TagMask)
  | closeBulb (b : BulbRef)

namespace TagEvent

def enabled (d : Daemon) : TagEvent → Prop
  | openGateway peer _ _ => ∀ g ∈ d.gateways, (d.gw g).peer ≠ peer
  | openBulb g addr _ => g ∈ d.gateways ∧ ∀ b ∈ d.bulbs, (d.bulb b).addr ≠ addr
  | setTags b _ | closeBulb b => b ∈ d.bulbs

instance (d : Daemon) (e : TagEvent) : Decidable (e.enabled d) := by
  unfold enabled
  split <;> infer_instance

def apply (d : Daemon) : TagEvent → Daemon
  | openGateway peer site now => d.gatewayOpen peer site now
  | openBulb g addr now => (d.getOrOpenBulb g addr now true).1
  | setTags b tags => d.setTags b tags
  | closeBulb b => d.removeAndCloseBulb (d.bulb b).gw b

end TagEvent

def tagSystem : System Daemon TagEvent where
  enabled := TagEvent.enabled
  step := TagEvent.apply

/-- No count of zero was decremented, and a count is zero only if no bulb of the gateway has
the tag id. -/
structure RefcountsSafe (d : Daemon) : Prop where
  positive : ∀ g id, Fault.zeroRefcount g id ∉ d.faults
  zero : ∀ g ∈ d.gateways, ∀ id < maxTags, (d.gw g).tagRefcounts id = 0 → d.countTagged g id = 0

def isUnderflow : Fault → Bool
  | .zeroRefcount .. => true
  | _ => false

theorem refcountsSafe_iff (d : Daemon) : RefcountsSafe d ↔ (∀ f ∈ d.faults, isUnderflow f = false) ∧
    ∀ g ∈ d.gateways, ∀ id < maxTags, (d.gw g).tagRefcounts id = 0 → d.countTagged g id = 0 := by
  constructor
  · rintro ⟨hpos,hzero⟩
    refine ⟨fun f hf => ?_,hzero⟩
    cases f with
    | zeroRefcount g id => exact absurd hf (hpos g id)
    | _ => rfl
  · rintro ⟨hpos,hzero⟩
    exact ⟨fun g id hf => absurd (hpos _ hf) nofun,hzero⟩

instance : DecidablePred RefcountsSafe := fun d => decidable_of_iff' _ (refcountsSafe_iff d)

section Runs
variable {d : Daemon} {e : TagEvent}

namespace TagEvent

theorem devices_apply (he : e.enabled d) : (e.apply d).devices = match e with
    | openGateway peer _ _ => d.devices.openGateway peer
    | openBulb g addr _ => d.devices.openBulb g addr
    | setTags b tags => d.devices.setTags b tags
    | closeBulb b => d.devices.closeBulb (d.devices.owner b) b := by
  cases e with
  | openGateway peer site now => exact Daemon.devices_gatewayOpen d peer site now
  | openBulb g addr now =>
    have hnone : d.bulbGet addr = none := by
      apply List.find?_eq_none.mpr
      intro b hb
      simpa using he.2 b hb
    have hopen : (d.getOrOpenBulb g addr now true).1 =
        (d.bulbOpen g addr now).modifyGw g (·.insertBulb d.nextBulb) := by
      simp only [Daemon.getOrOpenBulb,hnone,if_true]
    exact (congrArg Daemon.devices hopen).trans (Daemon.devices_openBulb d g addr now)
  | setTags b tags => exact Daemon.devices_setTags d b tags
  | closeBulb b => exact Daemon.devices_removeAndCloseBulb d _ b

theorem partition_apply (hp : d.devices.Partition) (he : e.enabled d) : (e.apply d).devices.Partition := by
  rw [devices_apply he]
  cases e with
  | openGateway peer site now => exact hp.openGateway he
  | openBulb g addr now => exact hp.openBulb he.1 he.2
  | setTags b tags => exact hp.setTags b tags
  | closeBulb b => exact hp.op (.closeBulb b he)

/-- What an event does to a cell. A gateway that is opened had no bulbs before. -/
theorem moves_apply (hp : d.devices.Partition) (he : e.enabled d)
    (hclosed : ∀ id < maxTags, (d.gw d.nextGw).tagRefcounts id = 0) (g : GatewayRef) {id : ℕ} (hid : id < maxTags) :
    Moves ((d.gw g).tagRefcounts id) (d.countTagged g id) (((e.apply d).gw g).tagRefcounts id)
      ((e.apply d).countTagged g id) := by
  change Moves (d.devices.refcounts g id) (d.devices.tagged g id) ((e.apply d).devices.refcounts g id)
    ((e.apply d).devices.tagged g id)
  rw [devices_apply he]
  cases e with
  | openGateway peer site now => exact moves_openGateway hp peer (hclosed id hid)
  | openBulb g addr now => exact moves_openBulb hp g addr
  | setTags b tags => exact moves_setTags hp he tags hid
  | closeBulb b => exact moves_closeBulb hp he hid

theorem noUnderflow_apply (hp : d.devices.Partition) (he : e.enabled d)
    (hpos : ∀ g, ∀ id < maxTags, 0 < d.countTagged g id → 0 < (d.gw g).tagRefcounts id) (h : NoUnderflow d) :
    NoUnderflow (e.apply d) := by
  have hcarried : ∀ b ∈ d.bulbs, ∀ id < maxTags, hasTagId (d.bulb b).state.tags id = true →
      0 < (d.gw (d.bulb b).gw).tagRefcounts id := by
    intro b hb id hid hbit
    exact hpos _ id hid (List.countP_pos_iff.mpr ⟨b,hp.listed hb,hbit⟩)
  cases e with
  | openGateway peer site now => exact noUnderflow_statsAdd (d := { d with
      gw := Function.update d.gw d.nextGw (.opened peer site now)
      nextGw := d.nextGw + 1
      gateways := d.nextGw :: d.gateways }) _ _ h
  | openBulb g addr now =>
    simp only [apply,Daemon.getOrOpenBulb,if_true]
    split
    · exact h
    · exact noUnderflow_statsAdd .bulbs 1 h
  | setTags b tags =>
    apply noUnderflow_setTags b tags ?_ h
    intro id hmem
    have hid : id < maxTags := lt_of_mem_foreachTagId hmem
    exact hcarried b he id hid ((TagCensus.mem_removed hid).mp hmem).1
  | closeBulb b =>
    apply noUnderflow_removeAndCloseBulb b ?_ h
    intro id hmem
    have hid : id < maxTags := lt_of_mem_foreachTagId hmem
    exact hcarried b he id hid ((TagCensus.mem_tagIds hid).mp hmem)

end TagEvent

/-- Each count falls short by what was missed, where the largest numbers so far are given. -/
structure Accounted (peak : GatewayRef → ℕ → ℕ) (d : Daemon) : Prop where
  partition : d.devices.Partition
  noUnderflow : NoUnderflow d
  short : ∀ g, ∀ id < maxTags, Short (peak g id) ((d.gw g).tagRefcounts id) (d.countTagged g id)

namespace Accounted
variable {peak : GatewayRef → ℕ → ℕ}

theorem safe (h : Accounted peak d) : RefcountsSafe d :=
  ⟨h.noUnderflow,fun g _ id hid hzero => (h.short g id hid).eq_zero hzero⟩

theorem moves (h : Accounted peak d) (he : e.enabled d) (g : GatewayRef) {id : ℕ} (hid : id < maxTags) :
    Moves ((d.gw g).tagRefcounts id) (d.countTagged g id) (((e.apply d).gw g).tagRefcounts id)
      ((e.apply d).countTagged g id) := by
  refine TagEvent.moves_apply h.partition he (fun id hid => ?_) g hid
  have hnot : d.nextGw ∉ d.gateways := fun hmem => (h.partition.gateways_lt _ hmem).ne rfl
  have hnone : d.countTagged d.nextGw id = 0 := by
    have hempty : (d.gw d.nextGw).bulbs = [] := h.partition.closed _ hnot
    rw [Daemon.countTagged,hempty,List.countP_nil]
  have hcount := (h.short d.nextGw id hid).count
  apply UInt8.toNat_inj.mp
  change _ = 0
  omega

/-- One event, after which enough bulbs are left. -/
theorem step (h : Accounted peak d) (he : e.enabled d)
    (hs : ∀ g, ∀ id < maxTags, Steady (max (peak g id) ((e.apply d).countTagged g id)) ((e.apply d).countTagged g id)) :
    Accounted (fun g id => max (peak g id) ((e.apply d).countTagged g id)) (e.apply d) where
  partition := TagEvent.partition_apply h.partition he
  noUnderflow := TagEvent.noUnderflow_apply h.partition he
    (fun g id hid hpos => UInt8.lt_iff_toNat_lt.mpr ((h.short g id hid).pos hpos)) h.noUnderflow
  short g id hid := (h.short g id hid).moves (h.moves he g hid) (hs g id hid)

theorem breaks (h : Accounted peak d) (he : e.enabled d) {g : GatewayRef} {id : ℕ} (hid : id < maxTags)
    (hs : ¬ Steady (max (peak g id) ((e.apply d).countTagged g id)) ((e.apply d).countTagged g id)) :
    ((e.apply d).gw g).tagRefcounts id = 0 ∧ 0 < (e.apply d).countTagged g id :=
  (h.short g id hid).breaks (h.moves he g hid) hs

end Accounted

theorem mem_gateways_of_tagged (hp : d.devices.Partition) {g : GatewayRef} {id : ℕ} (h : 0 < d.countTagged g id) :
    g ∈ d.gateways := by
  by_contra hnot
  have hempty : (d.gw g).bulbs = [] := hp.closed g hnot
  rw [Daemon.countTagged,hempty,List.countP_nil] at h
  exact absurd h (lt_irrefl 0)

/-- The number of bulbs of a gateway with a tag id after some of the events of a run. -/
def carriers (d : Daemon) (es : List TagEvent) (k : ℕ) (g : GatewayRef) (id : ℕ) : ℕ :=
  (tagSystem.exec d (es.take k)).countTagged g id

/-- The run from a state whose counts are accounted for. Its peaks so far take part. -/
theorem always_safe_iff {peak : GatewayRef → ℕ → ℕ} {es : List TagEvent} (h : Accounted peak d)
    (hl : tagSystem.Legal d es) :
    tagSystem.Always RefcountsSafe d es ↔ ∀ k g id, id < maxTags → Steady (peak g id) (carriers d es k g id) ∧
      ∀ j ≤ k, Steady (carriers d es j g id) (carriers d es k g id) := by
  have hself : ∀ n, Steady n n := fun n => Or.inr (by omega)
  induction es generalizing d peak with
  | nil =>
    refine ⟨fun _ k g id hid => ?_,fun _ => System.always_nil.mpr h.safe⟩
    simp only [carriers,List.take_nil]
    exact ⟨(h.short g id hid).steady,fun _ _ => hself _⟩
  | cons e es ih =>
    obtain ⟨he,hl⟩ := hl
    by_cases hs : ∀ g, ∀ id < maxTags,
        Steady (max (peak g id) ((e.apply d).countTagged g id)) ((e.apply d).countTagged g id)
    · rw [System.always_cons]
      have hrest := ih (h.step he hs) hl
      constructor
      · rintro ⟨-,hall⟩ k g id hid
        have hk := hrest.mp hall
        cases k with
        | zero =>
          refine ⟨(h.short g id hid).steady,fun j hj => ?_⟩
          rw [Nat.le_zero.mp hj]
          exact hself _
        | succ k =>
          obtain ⟨hpeak,hlater⟩ := hk k g id hid
          refine ⟨(steady_max.mp hpeak).1,fun j hj => ?_⟩
          cases j with
          | zero => exact (steady_max.mp hpeak).1.mono (h.short g id hid).le
          | succ j => exact hlater j (by omega)
      · intro hk
        refine ⟨h.safe,hrest.mpr (fun k g id hid => ?_)⟩
        obtain ⟨hpeak,hlater⟩ := hk (k + 1) g id hid
        exact ⟨steady_max.mpr ⟨hpeak,hlater 1 (by omega)⟩,fun j hj => hlater (j + 1) (by omega)⟩
    · push Not at hs
      obtain ⟨g,id,hid,hs⟩ := hs
      obtain ⟨hzero,hpos⟩ := h.breaks he hid hs
      constructor
      · intro hall
        have hsafe := (System.always_cons.mp hall).2.head
        have hlive := mem_gateways_of_tagged (TagEvent.partition_apply h.partition he) hpos
        exact absurd (hsafe.zero g hlive id hid hzero) hpos.ne'
      · intro hk
        obtain ⟨hpeak,hlater⟩ := hk 1 g id hid
        exact absurd (steady_max.mpr ⟨hpeak,hlater 1 le_rfl⟩) hs

end Runs

theorem accounted_started (clientId : UInt32) : Accounted (fun _ _ => 0) (started clientId) where
  partition := partition_started clientId
  noUnderflow _ _ := nofun
  short _ _ _ := ⟨le_rfl,rfl,Or.inl (Nat.zero_le _)⟩

/-- No count of zero is decremented and no count is zero too early, exactly if the number of
bulbs of a gateway with a tag id never is 255 or more below an earlier one above 255. -/
theorem refcounts_safe_iff (clientId : UInt32) (es : List TagEvent) (hl : tagSystem.Legal (started clientId) es) :
    tagSystem.Always RefcountsSafe (started clientId) es ↔ ∀ j k, j ≤ k → ∀ g id, id < maxTags →
      carriers (started clientId) es j g id ≤ 255 ∨
        carriers (started clientId) es j g id < carriers (started clientId) es k g id + 255 := by
  rw [always_safe_iff (accounted_started clientId) hl]
  constructor
  · intro h j k hjk g id hid
    exact (h k g id hid).2 j hjk
  · intro h k g id hid
    exact ⟨Or.inl (Nat.zero_le _),fun j hj => h j k hj g id hid⟩

/-- A bulb gets a tag, loses it and is closed with another. -/
def loneRun : List TagEvent :=
  [.openGateway [1] (Vector.replicate 6 0) 0,.openBulb 0 handoverAddr 0,.setTags 0 3,.setTags 0 2,.closeBulb 0]

theorem refcounts_safe_iff_lone : tagSystem.Legal (started 7) loneRun ∧
    ∀ j k, j ≤ k → ∀ g id, id < maxTags → carriers (started 7) loneRun j g id ≤ 255 ∨
      carriers (started 7) loneRun j g id < carriers (started 7) loneRun k g id + 255 := by
  have hl : tagSystem.Legal (started 7) loneRun := by
    unfold tagSystem
    decide +kernel
  exact ⟨hl,(refcounts_safe_iff 7 loneRun hl).mp (by decide +kernel)⟩

section Crowd

theorem foreachTagId_one : foreachTagId 1#64 = [0] := by decide +kernel
theorem foreachTagId_zero : foreachTagId 0#64 = [] := by decide +kernel

def crowdAddr (i : ℕ) : Addr := #v[0,0,0,0,0,.ofNat i]

/-- A gateway with bulbs of which some have the first tag id. -/
structure Crowd (n : ℕ) (tagged : ℕ → Bool) (count : UInt8) (d : Daemon) : Prop where
  partition : d.devices.Partition
  gateways : d.gateways = [0]
  members : (d.gw 0).bulbs = (List.range n).reverse
  next : d.nextBulb = n
  addrs : ∀ b < n, (d.bulb b).addr = crowdAddr b
  tags : ∀ b < n, (d.bulb b).state.tags = if tagged b then 1 else 0
  refcount : (d.gw 0).tagRefcounts 0 = count

namespace Crowd
variable {n b : ℕ} {tagged : ℕ → Bool} {count : UInt8} {d : Daemon}

theorem mem_bulbs (h : Crowd n tagged count d) : b ∈ d.bulbs ↔ b < n := by
  have hmem := h.partition.bulbs_perm.mem_iff (a := b)
  change b ∈ d.bulbs ↔ b ∈ d.gateways.flatMap (fun g => (d.gw g).bulbs) at hmem
  simpa [h.gateways,h.members] using hmem

theorem owner (h : Crowd n tagged count d) (hb : b < n) : (d.bulb b).gw = 0 := by
  have hmem := h.partition.owner_mem b (h.mem_bulbs.mpr hb)
  change (d.bulb b).gw ∈ d.gateways at hmem
  rw [h.gateways] at hmem
  exact List.mem_singleton.mp hmem

theorem carriers_eq (h : Crowd n tagged count d) : d.countTagged 0 0 = (List.range n).countP tagged := by
  rw [Daemon.countTagged,h.members,List.countP_reverse]
  apply List.countP_congr
  intro b hb
  rw [h.tags b (List.mem_range.mp hb)]
  cases tagged b <;> decide

theorem openBulb (h : Crowd n tagged count d) (hn : n < 256) (hnot : tagged n = false) :
    (TagEvent.openBulb 0 (crowdAddr n) 0).enabled d ∧
      Crowd (n + 1) tagged count (TagEvent.apply d (.openBulb 0 (crowdAddr n) 0)) := by
  have he : (TagEvent.openBulb 0 (crowdAddr n) 0).enabled d := by
    refine ⟨by simp [h.gateways],fun b hb heq => ?_⟩
    have hlt := h.mem_bulbs.mp hb
    rw [h.addrs b hlt] at heq
    have hlast : UInt8.ofNat b = UInt8.ofNat n := congrArg (fun a : Addr => a[5]) heq
    have hnat := congrArg UInt8.toNat hlast
    rw [UInt8.toNat_ofNat_of_lt' (hlt.trans hn),UInt8.toNat_ofNat_of_lt' hn] at hnat
    omega
  have hd := TagEvent.devices_apply he
  have hnext : d.devices.nextBulb = n := h.next
  have hfield : ∀ {α : Type} (π : Devices → α), π (TagEvent.apply d (.openBulb 0 (crowdAddr n) 0)).devices =
      π (d.devices.openBulb 0 (crowdAddr n)) := fun π => congrArg π hd
  refine ⟨he,⟨TagEvent.partition_apply h.partition he,(hfield Devices.gateways).trans h.gateways,?_,
    (hfield Devices.nextBulb).trans (congrArg (· + 1) h.next),fun b hb => ?_,fun b hb => ?_,
    (hfield (fun r => r.refcounts 0 0)).trans h.refcount⟩⟩
  · refine (hfield (fun r => r.members 0)).trans ?_
    simp only [Devices.openBulb,Devices.count,Function.update_self,hnext,List.range_succ,List.reverse_append,
      List.reverse_singleton,List.singleton_append]
    exact congrArg (n :: ·) h.members
  · refine (hfield (fun r => r.addr b)).trans ?_
    simp only [Devices.openBulb,Devices.count,hnext]
    by_cases hbn : b = n
    · rw [hbn,Function.update_self]
    · rw [Function.update_of_ne hbn]
      exact h.addrs b (by omega)
  · refine (hfield (fun r => r.tags b)).trans ?_
    simp only [Devices.openBulb,Devices.count,hnext]
    by_cases hbn : b = n
    · rw [hbn,Function.update_self,hnot]
      rfl
    · rw [Function.update_of_ne hbn]
      exact h.tags b (by omega)

/-- A bulb that did not have the tag id gets it, or the other way round. -/
theorem setTags (h : Crowd n tagged count d) (hb : b < n) (v : Bool) (hv : tagged b = !v) :
    (TagEvent.setTags b (if v then 1 else 0)).enabled d ∧
      Crowd n (Function.update tagged b v) (if v then increment count else decrement count)
        (TagEvent.apply d (.setTags b (if v then 1 else 0))) := by
  have he : (TagEvent.setTags b (if v then 1 else 0)).enabled d := h.mem_bulbs.mpr hb
  have hd := TagEvent.devices_apply he
  have hfield : ∀ {α : Type} (π : Devices → α), π (TagEvent.apply d (.setTags b (if v then 1 else 0))).devices =
      π (d.devices.setTags b (if v then 1 else 0)) := fun π => congrArg π hd
  have howner : d.devices.owner b = 0 := h.owner hb
  have htags : d.devices.tags b = if !v then 1 else 0 := by
    rw [← hv]
    exact h.tags b hb
  refine ⟨he,⟨TagEvent.partition_apply h.partition he,(hfield Devices.gateways).trans h.gateways,
    (hfield (fun r => r.members 0)).trans h.members,(hfield Devices.nextBulb).trans h.next,
    fun b' hb' => (hfield (fun r => r.addr b')).trans (h.addrs b' hb'),fun b' hb' => ?_,?_⟩⟩
  · refine (hfield (fun r => r.tags b')).trans ?_
    simp only [Devices.setTags]
    by_cases hbb : b' = b
    · rw [hbb,Function.update_self,Function.update_self]
    · rw [Function.update_of_ne hbb,Function.update_of_ne hbb]
      exact h.tags b' hb'
  · refine (hfield (fun r => r.refcounts 0 0)).trans ?_
    have hcount : d.devices.refcounts 0 0 = count := h.refcount
    cases v <;>
      simp [Devices.setTags,releaseRefs,addRefs,mapRefs,howner,htags,hcount,foreachTagId_one,foreachTagId_zero]

theorem congr {tagged' : ℕ → Bool} {count' : UInt8} (h : Crowd n tagged count d) (ht : ∀ b < n, tagged' b = tagged b)
    (hc : count' = count) : Crowd n tagged' count' d where
  partition := h.partition
  gateways := h.gateways
  members := h.members
  next := h.next
  addrs := h.addrs
  tags b hb := by
    rw [ht b hb]
    exact h.tags b hb
  refcount := h.refcount.trans hc.symm

/-- The last bulb with the tag id, when its count is zero already. -/
theorem underflow (h : Crowd n tagged 0 d) (hb : b < n) (hv : tagged b = true) :
    Fault.zeroRefcount 0 0 ∈ (TagEvent.apply d (.setTags b 0)).faults := by
  have htags : (d.bulb b).state.tags = 1 := by
    rw [h.tags b hb,hv]
    rfl
  have hcheck : (d.check (decide (0 < (d.gw 0).tagRefcounts 0)) (.zeroRefcount 0 0)).faults =
      d.faults ++ [.zeroRefcount 0 0] := by
    rw [h.refcount]
    rfl
  simp [TagEvent.apply,Daemon.setTags,Daemon.updateTagRefcounts,htags,h.owner hb,foreachTagId_one,foreachTagId_zero,
    Daemon.modifyBulb]
  unfold Daemon.dropTagRef
  simp only
  split <;> simp [Daemon.releaseTagRef,Daemon.modifyGw,Daemon.sendToSite,Daemon.enqueue,hcheck]

end Crowd

theorem increment_ofNat {k : ℕ} (hk : k < 256) : increment (.ofNat (min k 255)) = .ofNat (min (k + 1) 255) := by
  by_cases hfull : k = 255
  · subst hfull
    rfl
  · have hlt : (UInt8.ofNat k).toNat = k := UInt8.toNat_ofNat_of_lt' hk
    apply UInt8.toNat_inj.mp
    rw [min_eq_left (by omega),min_eq_left (by omega),toNat_increment (by omega),hlt]
    exact (UInt8.toNat_ofNat_of_lt' (show k + 1 < 256 by omega)).symm

theorem decrement_ofNat {k : ℕ} (hk : k < 255) : decrement (.ofNat (255 - k)) = .ofNat (255 - (k + 1)) := by
  have hlt : (UInt8.ofNat (255 - k)).toNat = 255 - k := UInt8.toNat_ofNat_of_lt' (show 255 - k < 256 by omega)
  have hdec := toNat_decrement (n := .ofNat (255 - k)) (by omega)
  apply UInt8.toNat_inj.mp
  rw [UInt8.toNat_ofNat_of_lt' (show 255 - (k + 1) < 256 by omega)]
  omega

/-- A gateway gets 256 bulbs, all of them get the first tag id and all but one lose it. -/
def crowdRun : List TagEvent :=
  .openGateway [1] (Vector.replicate 6 0) 0 :: ((List.range 256).map (fun i => .openBulb 0 (crowdAddr i) 0) ++
    ((List.range 256).map (.setTags · 1) ++ (List.range 255).map (.setTags · 0)))

theorem crowd_after (clientId : UInt32) : tagSystem.Legal (started clientId) crowdRun ∧
    Crowd 256 (fun b => 255 ≤ b) 0 (tagSystem.exec (started clientId) crowdRun) := by
  have hopened : Crowd 0 (fun _ => false) 0
      (TagEvent.apply (started clientId) (.openGateway [1] (Vector.replicate 6 0) 0)) :=
    ⟨TagEvent.partition_apply (partition_started clientId) nofun,rfl,rfl,rfl,nofun,nofun,rfl⟩
  obtain ⟨hl₁,h₁⟩ := System.legal_phase (m := tagSystem) (P := fun k d => Crowd k (fun _ => false) 0 d)
    (f := fun i => .openBulb 0 (crowdAddr i) 0) (n := 256) (fun k hk d h => h.openBulb hk rfl) hopened
  have htag : ∀ k < 256, ∀ d, Crowd 256 (fun b => b < k) (.ofNat (min k 255)) d → (TagEvent.setTags k 1).enabled d ∧
      Crowd 256 (fun b => b < k + 1) (.ofNat (min (k + 1) 255)) (TagEvent.apply d (.setTags k 1)) := by
    intro k hk d h
    obtain ⟨he,hnext⟩ := h.setTags hk true (by simp)
    refine ⟨he,hnext.congr (fun b _ => ?_) (increment_ofNat hk).symm⟩
    by_cases hb : b = k
    · simp [hb]
    · simp only [Function.update_of_ne hb]
      exact decide_eq_decide.mpr (by omega)
  obtain ⟨hl₂,h₂⟩ := System.legal_phase (m := tagSystem)
    (P := fun k d => Crowd 256 (fun b => b < k) (.ofNat (min k 255)) d) (f := (.setTags · 1)) htag
    (h₁.congr (fun _ _ => by simp) rfl)
  have huntag : ∀ k < 255, ∀ d, Crowd 256 (fun b => k ≤ b) (.ofNat (255 - k)) d → (TagEvent.setTags k 0).enabled d ∧
      Crowd 256 (fun b => k + 1 ≤ b) (.ofNat (255 - (k + 1))) (TagEvent.apply d (.setTags k 0)) := by
    intro k hk d h
    obtain ⟨he,hnext⟩ := h.setTags (show k < 256 by omega) false (by simp)
    refine ⟨he,hnext.congr (fun b _ => ?_) (decrement_ofNat hk).symm⟩
    by_cases hb : b = k
    · simp [hb]
    · simp only [Function.update_of_ne hb]
      exact decide_eq_decide.mpr (by omega)
  obtain ⟨hl₃,h₃⟩ := System.legal_phase (m := tagSystem)
    (P := fun k d => Crowd 256 (fun b => k ≤ b) (.ofNat (255 - k)) d) (f := (.setTags · 0)) huntag
    (h₂.congr (fun b hb => by simp [hb]) rfl)
  refine ⟨⟨nofun,System.legal_append.mpr ⟨hl₁,System.legal_append.mpr ⟨hl₂,hl₃⟩⟩⟩,?_⟩
  rw [crowdRun,System.exec_cons,System.exec_append,System.exec_append]
  exact h₃

/-- The count is zero while one bulb still has the tag id, and is decremented again when this
bulb loses it as well. -/
theorem crowd_count_lost : tagSystem.Legal (started 7) crowdRun ∧
    ((tagSystem.exec (started 7) crowdRun).gw 0).tagRefcounts 0 = 0 ∧
    (tagSystem.exec (started 7) crowdRun).countTagged 0 0 = 1 ∧
    Fault.zeroRefcount 0 0 ∈ (TagEvent.apply (tagSystem.exec (started 7) crowdRun) (.setTags 255 0)).faults := by
  obtain ⟨hl,h⟩ := crowd_after 7
  refine ⟨hl,h.refcount,?_,h.underflow (by omega) rfl⟩
  rw [h.carriers_eq]
  decide +kernel

end Crowd
end Lightsd.Core
