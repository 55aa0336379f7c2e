import Lightsd.Core.RouterAgreement

/-! # What a list of targets stands for

The list of devices is compared with the union of what its targets mean: everything, the
bulbs with an id of a tag, the bulb with an address or else the bulbs with a label. The
address of a target is read as a number of 64 bits of which only the last 48 are looked
at, and a tag is looked for by its label, of which there can be more than one. Bulbs can be
taken by mistake or be missed that way, and the list is right exactly where other targets make
up for it. It never has a bulb twice, and its order and repetitions do not matter.
-/
namespace Lightsd.Core

open Lifx

/-- The number that the bytes of an address make. -/
def addrNumber (a : Addr) : ℕ := a.toList.foldl (fun n b => 256 * n + b.toNat) 0

theorem addrNumber_eq (b₀ b₁ b₂ b₃ b₄ b₅ : UInt8) : addrNumber #v[b₀,b₁,b₂,b₃,b₄,b₅] =
    b₀.toNat * 2 ^ 40 + b₁.toNat * 2 ^ 32 + b₂.toNat * 2 ^ 24 + b₃.toNat * 2 ^ 16 + b₄.toNat * 2 ^ 8 + b₅.toNat := by
  simp only [addrNumber,Vector.toList,List.foldl]
  ring

theorem exists_bytes (a : Addr) : ∃ b₀ b₁ b₂ b₃ b₄ b₅ : UInt8, a = #v[b₀,b₁,b₂,b₃,b₄,b₅] := by
  obtain ⟨⟨l⟩,hl⟩ := a
  match l,hl with
  | [b₀,b₁,b₂,b₃,b₄,b₅],_ => exact ⟨b₀,b₁,b₂,b₃,b₄,b₅,rfl⟩

theorem addrNumber_lt (a : Addr) : addrNumber a < 2 ^ 48 := by
  have hvalue : addrNumber a = ByteOrder.value a.toList.reverse := by
    rw [ByteOrder.value,Nat.ofDigits_eq_foldr,List.foldr_map,List.foldr_reverse]
    exact List.foldl_ext _ _ _ (fun n b _ => Nat.add_comm _ _)
  have hlt := ByteOrder.value_lt a.toList.reverse
  rw [List.length_reverse,Vector.length_toList] at hlt
  rw [hvalue]
  exact hlt

theorem ofNat_eq_iff (n : ℕ) (b : UInt8) : UInt8.ofNat n = b ↔ n % 256 = b.toNat := by
  rw [← UInt8.toNat_inj,UInt8.toNat_ofNat']

/-- Of a number only the last 48 bits make the address. -/
theorem addrOfNumber_eq_iff (n : ℕ) (a : Addr) : addrOfNumber n = a ↔ n % 2 ^ 48 = addrNumber a := by
  obtain ⟨b₀,b₁,b₂,b₃,b₄,b₅,rfl⟩ := exists_bytes a
  have h₀ := b₀.toNat_lt
  have h₁ := b₁.toNat_lt
  have h₂ := b₂.toNat_lt
  have h₃ := b₃.toNat_lt
  have h₄ := b₄.toNat_lt
  have h₅ := b₅.toNat_lt
  rw [addrNumber_eq]
  simp only [addrOfNumber,Vector.mk.injEq,Array.mk.injEq,List.cons.injEq,and_true,ofNat_eq_iff]
  omega

/-- The number that a whole target is the hexadecimal text of. -/
def hexNumber (target : TargetName) : Option ℕ :=
  if (strtoull target).2 = [] then some (strtoull target).1 else none

theorem hexNumber_not_xdigit {c : UInt8} (cs : List UInt8) (hc : isXDigit c = false) :
    hexNumber (c :: cs) = none := by
  have hmarker : skipHexMarker (c :: cs) = c :: cs := by
    unfold skipHexMarker
    split
    · rename_i h
      cases h
      cases hc
    · rfl
  simp [hexNumber,strtoull,hmarker,hc]

end Lightsd.Core

namespace Lightsd.Lifx.Daemon

open Lightsd.Core

/-- The address that a target is the text of is the one of a bulb. -/
def Addresses (target : TargetName) (b : Bulb) : Prop := hexNumber target = some (addrNumber b.addr)

/-- What a target means. -/
def denoted (d : Daemon) (target : TargetName) : Set BulbRef :=
  if target = [42] then {b | b ∈ d.bulbs}
  else match target with
  | [] => ∅
  | c :: cs =>
    if c = 35 then {b | ∃ t ∈ d.tags, (d.tag t).label = cs ∧ b ∈ d.taggedSet t}
    else {b | b ∈ d.bulbs ∧ (Addresses target (d.bulb b) ∨
      (∀ b' ∈ d.bulbs, ¬ Addresses target (d.bulb b')) ∧ (d.bulb b).hasLabel target)}

/-- The bulbs that a target is taken for by mistake: the target is the text of a number of more
than 48 bits, and the last of these are the address of the bulb. -/
def mistaken (d : Daemon) (target : TargetName) : Set BulbRef :=
  {b | b ∈ d.bulbs ∧ ∃ n, hexNumber target = some n ∧ 2 ^ 48 ≤ n ∧ n < 2 ^ 64 ∧
    n % 2 ^ 48 = addrNumber (d.bulb b).addr}

/-- The bulbs that a target means and that are missed: those with the target for their label if
another bulb is taken by mistake, and those with an id of a tag behind another of its label. -/
def missed (d : Daemon) (target : TargetName) : Set BulbRef :=
  {b | b ∈ d.denoted target ∧ ((∃ b' ∈ d.mistaken target, b' ≠ b) ∨
    ∃ label t, target = 35 :: label ∧ d.findTag label = some t ∧ b ∉ d.taggedSet t)}

/-- What is taken by mistake is meant by another target, and what is missed is found through
another one. -/
structure MadeUp (d : Daemon) (targets : List TargetName) : Prop where
  mistaken : ∀ t ∈ targets, ∀ b ∈ d.mistaken t, ∃ t' ∈ targets, b ∈ d.denoted t'
  missed : ∀ t ∈ targets, ∀ b ∈ d.missed t,
    ∃ t' ∈ targets, b ∈ d.mistaken t' ∨ b ∈ d.denoted t' ∧ b ∉ d.missed t'

variable {d : Daemon} {target : TargetName}

/-- The bulbs of the table have different addresses. -/
def Keyed (d : Daemon) : Prop :=
  ∀ b ∈ d.bulbs, ∀ b' ∈ d.bulbs, (d.bulb b).addr = (d.bulb b').addr → b = b'

theorem Keyed.device_eq_some (hk : d.Keyed) (b : BulbRef) :
    d.deviceAddrToDevice target = some b ↔ b ∈ d.bulbs ∧ ∃ n, hexNumber target = some n ∧ n < 2 ^ 64 ∧
      n % 2 ^ 48 = addrNumber (d.bulb b).addr := by
  have hget : ∀ n, d.bulbGet (addrOfNumber n) = some b ↔ b ∈ d.bulbs ∧ n % 2 ^ 48 = addrNumber (d.bulb b).addr := by
    intro n
    unfold bulbGet
    constructor
    · intro h
      have haddr := List.find?_some h
      simp only [decide_eq_true_eq] at haddr
      exact ⟨List.mem_of_find?_eq_some h,(addrOfNumber_eq_iff n _).mp haddr.symm⟩
    · rintro ⟨hb,hn⟩
      have haddr : (d.bulb b).addr = addrOfNumber n := ((addrOfNumber_eq_iff n _).mpr hn).symm
      cases hfind : d.bulbs.find? (fun b => (d.bulb b).addr = addrOfNumber n) with
      | none =>
        have hnot := List.find?_eq_none.mp hfind b hb
        simp [haddr] at hnot
      | some b' =>
        have haddr' := List.find?_some hfind
        simp only [decide_eq_true_eq] at haddr'
        exact congrArg some (hk b' (List.mem_of_find?_eq_some hfind) b hb (haddr'.trans haddr.symm))
  unfold deviceAddrToDevice hexNumber
  simp only
  by_cases hrest : (strtoull target).2 = []
  · simp only [hrest,true_and,if_true,Option.some.injEq,exists_eq_left']
    by_cases hlt : (strtoull target).1 < 2 ^ 64
    · rw [if_pos hlt,hget]
      exact ⟨fun h => ⟨h.1,hlt,h.2⟩,fun h => ⟨h.1,h.2.2⟩⟩
    · rw [if_neg hlt]
      exact ⟨nofun,fun h => absurd h.2.1 hlt⟩
  · simp [hrest]

theorem deviceAddr_eq_some (hp : d.devices.Partition) (b : BulbRef) :
    d.deviceAddrToDevice target = some b ↔ b ∈ d.bulbs ∧ ∃ n, hexNumber target = some n ∧ n < 2 ^ 64 ∧
      n % 2 ^ 48 = addrNumber (d.bulb b).addr :=
  Keyed.device_eq_some hp.addrs b

theorem deviceAddr_not_xdigit {c : UInt8} (cs : List UInt8) (hc : isXDigit c = false) :
    d.deviceAddrToDevice (c :: cs) = none := by
  have hhex := hexNumber_not_xdigit cs hc
  unfold hexNumber at hhex
  split at hhex
  · cases hhex
  · rename_i hrest
    exact if_neg (fun h => hrest h.1)

section Names
variable {c : UInt8} {cs : List UInt8} (hstar : c :: cs ≠ [42]) (htag : c ≠ 35)
include hstar htag

/-- A target that is neither everything nor a tag is taken for an address first. -/
theorem selected_device {b : BulbRef} (h : d.deviceAddrToDevice (c :: cs) = some b) :
    d.selected (c :: cs) = {b} := by
  have hx : isXDigit c = true := by
    by_contra hx
    rw [deviceAddr_not_xdigit cs (Bool.not_eq_true _ ▸ hx)] at h
    cases h
  simp only [selected,if_neg hstar,if_neg htag,if_pos hx,h]

theorem selected_label (h : d.deviceAddrToDevice (c :: cs) = none) :
    d.selected (c :: cs) = d.labelledSet (c :: cs) := by
  simp only [selected,if_neg hstar,if_neg htag,h]
  split <;> rfl

theorem mem_denoted_name (b : BulbRef) : b ∈ d.denoted (c :: cs) ↔ b ∈ d.bulbs ∧ (Addresses (c :: cs) (d.bulb b) ∨
    (∀ b' ∈ d.bulbs, ¬ Addresses (c :: cs) (d.bulb b')) ∧ (d.bulb b).hasLabel (c :: cs)) := by
  simp only [denoted,if_neg hstar,if_neg htag]
  exact Iff.rfl

theorem denoted_label (h : ∀ b ∈ d.bulbs, ¬ Addresses (c :: cs) (d.bulb b)) :
    d.denoted (c :: cs) = d.labelledSet (c :: cs) := by
  ext b
  rw [mem_denoted_name hstar htag]
  constructor
  · rintro ⟨hb,haddr | ⟨-,hlabel⟩⟩
    · exact absurd haddr (h b hb)
    · exact ⟨hb,hlabel⟩
  · rintro ⟨hb,hlabel⟩
    exact ⟨hb,Or.inr ⟨h,hlabel⟩⟩

theorem denoted_device (hp : d.devices.Partition) {b : BulbRef} (hb : b ∈ d.bulbs)
    (h : Addresses (c :: cs) (d.bulb b)) : d.denoted (c :: cs) = {b} := by
  ext b'
  rw [mem_denoted_name hstar htag]
  constructor
  · rintro ⟨hb',haddr | ⟨hnone,-⟩⟩
    · have hnumber : addrNumber (d.bulb b').addr = addrNumber (d.bulb b).addr :=
        Option.some.inj (haddr.symm.trans h)
      have heq := (addrOfNumber_eq_iff (addrNumber (d.bulb b).addr) (d.bulb b').addr).mpr
        ((Nat.mod_eq_of_lt (addrNumber_lt _)).trans hnumber.symm)
      have heq' := (addrOfNumber_eq_iff (addrNumber (d.bulb b).addr) (d.bulb b).addr).mpr
        (Nat.mod_eq_of_lt (addrNumber_lt _))
      exact hp.addrs b' hb' b hb (heq.symm.trans heq')
    · exact absurd h (hnone b hb)
  · rintro rfl
    exact ⟨hb,Or.inl h⟩

/-- A name that is taken for a device by mistake. -/
theorem mem_selected_name (hp : d.devices.Partition) (b : BulbRef) : b ∈ d.selected (c :: cs) ↔
    b ∈ d.mistaken (c :: cs) ∨ b ∈ d.denoted (c :: cs) ∧ ∀ b' ∈ d.mistaken (c :: cs), b' = b := by
  by_cases haddr : ∃ b ∈ d.bulbs, Addresses (c :: cs) (d.bulb b)
  · obtain ⟨b₀,hb₀,h⟩ := haddr
    have hlt := addrNumber_lt (d.bulb b₀).addr
    have hget : d.deviceAddrToDevice (c :: cs) = some b₀ :=
      (deviceAddr_eq_some hp b₀).mpr ⟨hb₀,_,h,by omega,Nat.mod_eq_of_lt hlt⟩
    have hnone : ∀ b, b ∉ d.mistaken (c :: cs) := by
      rintro b ⟨-,n,hn,hle,-⟩
      have hnumber : n = addrNumber (d.bulb b₀).addr := Option.some.inj (hn.symm.trans h)
      omega
    rw [selected_device hstar htag hget,denoted_device hstar htag hp hb₀ h]
    simp [hnone]
  · push Not at haddr
    rw [denoted_label hstar htag haddr]
    have hmistaken : ∀ b, b ∈ d.mistaken (c :: cs) ↔ d.deviceAddrToDevice (c :: cs) = some b := by
      intro b
      rw [deviceAddr_eq_some hp]
      refine and_congr_right (fun hb => exists_congr (fun n => and_congr_right (fun hn => ?_)))
      refine ⟨fun h => h.2,fun h => ⟨?_,h⟩⟩
      by_contra hsmall
      apply haddr b hb
      rw [Addresses,hn,← h.2,Nat.mod_eq_of_lt (by omega)]
    simp only [hmistaken]
    cases hget : d.deviceAddrToDevice (c :: cs) with
    | none =>
      rw [selected_label hstar htag hget]
      simp
    | some b₀ =>
      rw [selected_device hstar htag hget]
      simp only [Set.mem_singleton_iff,Option.some.injEq,forall_eq']
      constructor
      · exact fun h => Or.inl h.symm
      · rintro (h | ⟨-,h⟩) <;> exact h.symm

end Names

theorem mistaken_of_not_hex (h : hexNumber target = none) (b : BulbRef) : b ∉ d.mistaken target := by
  rintro ⟨-,n,hn,-⟩
  rw [h] at hn
  cases hn

/-- A tag is looked for by its label, and the first one is taken. -/
theorem mem_selected_tag (label : List UInt8) (b : BulbRef) : b ∈ d.selected (35 :: label) ↔
    b ∈ d.denoted (35 :: label) ∧ ∀ t, d.findTag label = some t → b ∈ d.taggedSet t := by
  have hstar : (35 :: label : TargetName) ≠ [42] := fun h => by cases h
  simp only [selected,denoted,if_neg hstar,if_true]
  cases hfind : d.findTag label with
  | none =>
    have hnone : ∀ t ∈ d.tags, (d.tag t).label ≠ label := by
      intro t ht
      simpa using List.find?_eq_none.mp hfind t ht
    simp only [Set.mem_empty_iff_false,Set.mem_ofPred_eq,false_iff]
    rintro ⟨⟨t,ht,hlabel,-⟩,-⟩
    exact hnone t ht hlabel
  | some t =>
    have hlabel : (d.tag t).label = label := by simpa using List.find?_some hfind
    simp only [Option.some.injEq,forall_eq',Set.mem_ofPred_eq]
    exact ⟨fun hb => ⟨⟨t,List.mem_of_find?_eq_some hfind,hlabel,hb⟩,hb⟩,fun h => h.2⟩

/-- What a target is taken for: what is taken by mistake, and what it means and is not missed. -/
theorem mem_selected_iff (hp : d.devices.Partition) (target : TargetName) (b : BulbRef) :
    b ∈ d.selected target ↔ b ∈ d.mistaken target ∨ b ∈ d.denoted target ∧ b ∉ d.missed target := by
  have hmissed : b ∈ d.denoted target → (b ∉ d.missed target ↔ (∀ b' ∈ d.mistaken target, b' = b) ∧
      ∀ label t, target = 35 :: label → d.findTag label = some t → b ∈ d.taggedSet t) := by
    intro hb
    simp only [missed,Set.mem_ofPred_eq,hb,true_and,not_or,not_exists,not_and,not_not]
  rw [and_congr_right hmissed]
  by_cases hstar : target = [42]
  · subst hstar
    have hnone : ∀ b, b ∉ d.mistaken [42] := mistaken_of_not_hex (by decide +kernel)
    simp [selected,denoted,hnone]
  · cases target with
    | nil =>
      have hzero : hexNumber [] = some 0 := by decide +kernel
      have hnone : ∀ b, b ∉ d.mistaken [] := by
        rintro b ⟨-,n,hn,hle,-⟩
        rw [hzero] at hn
        cases hn
        omega
      simp [selected,denoted,hnone]
    | cons c cs =>
      by_cases htag : c = 35
      · subst htag
        have hhex : hexNumber (35 :: cs) = none := hexNumber_not_xdigit cs (by decide)
        have hnone : ∀ b, b ∉ d.mistaken (35 :: cs) := mistaken_of_not_hex hhex
        rw [mem_selected_tag]
        simp only [hnone,false_or,false_implies,implies_true,true_and,List.cons.injEq]
        refine and_congr_right (fun _ => ⟨?_,fun h t => h cs t rfl⟩)
        rintro h _ t rfl
        exact h t
      · rw [mem_selected_name hstar htag hp]
        simp [htag]

theorem denoted_listed (hp : d.devices.Partition) (target : TargetName) : ∀ b ∈ d.denoted target, b ∈ d.bulbs := by
  intro b hb
  unfold denoted at hb
  split at hb
  · exact hb
  · split at hb
    · exact absurd hb (Set.notMem_empty _)
    · split at hb
      · obtain ⟨t,-,-,ht⟩ := hb
        exact taggedSet_listed hp t b ht
      · exact hb.1

/-- The targets together are taken for what they mean. -/
theorem selected_eq_denoted_iff (hp : d.devices.Partition) (targets : List TargetName) :
    (∀ b, (∃ t ∈ targets, b ∈ d.selected t) ↔ ∃ t ∈ targets, b ∈ d.denoted t) ↔
      [42] ∈ targets ∨ d.MadeUp targets := by
  by_cases hstar : ([42] : TargetName) ∈ targets
  · refine iff_of_true (fun b => ?_) (Or.inl hstar)
    have hall : ∀ b, b ∈ d.bulbs → b ∈ d.selected [42] ∧ b ∈ d.denoted [42] := by
      intro b hb
      simp only [selected,denoted,if_true]
      exact ⟨hb,hb⟩
    constructor
    · rintro ⟨t,-,hb⟩
      exact ⟨_,hstar,(hall b (selected_listed hp t b hb)).2⟩
    · rintro ⟨t,-,hb⟩
      exact ⟨_,hstar,(hall b (denoted_listed hp t b hb)).1⟩
  · simp only [hstar,false_or,mem_selected_iff hp]
    constructor
    · intro h
      refine ⟨fun t ht b hb => (h b).mp ⟨t,ht,Or.inl hb⟩,fun t ht b hb => (h b).mpr ⟨t,ht,hb.1⟩⟩
    · intro h b
      constructor
      · rintro ⟨t,ht,hb | hb⟩
        · exact h.mistaken t ht b hb
        · exact ⟨t,ht,hb.1⟩
      · rintro ⟨t,ht,hb⟩
        by_cases hmissed : b ∈ d.missed t
        · exact h.missed t ht b hmissed
        · exact ⟨t,ht,Or.inr ⟨hb,hmissed⟩⟩

theorem nodup_insertDevice {devices : List BulbRef} (b : BulbRef) (h : devices.Nodup) :
    (insertDeviceIfNotInList devices b).Nodup := by
  unfold insertDeviceIfNotInList
  split
  · exact h
  · exact List.nodup_cons.mpr ⟨‹_›,h⟩

theorem nodup_insertWhere (p : BulbRef → Bool) (l : List BulbRef) {devices : List BulbRef} (h : devices.Nodup) :
    (l.foldl (fun devices b => if p b then insertDeviceIfNotInList devices b else devices) devices).Nodup := by
  induction l generalizing devices with
  | nil => exact h
  | cons b l ih =>
    rw [List.foldl_cons]
    apply ih
    split
    · exact nodup_insertDevice b h
    · exact h

theorem nodup_insertTagged {devices : List BulbRef} (t : TagRef) (h : devices.Nodup) :
    (d.insertTagged devices t).Nodup := by
  unfold insertTagged
  induction (d.tag t).sites generalizing devices with
  | nil => exact h
  | cons site sites ih =>
    rw [List.foldl_cons]
    apply ih
    exact nodup_insertWhere _ _ h

/-- No bulb is listed twice. The target that stands for everything skips the test but has
cleared the list. -/
theorem nodup_collectDevices (hd : d.bulbs.Nodup) (targets : List TargetName) {devices : List BulbRef}
    (h : devices.Nodup) : (d.collectDevices devices targets).Nodup := by
  induction targets generalizing devices with
  | nil => exact h
  | cons target targets ih =>
    unfold collectDevices
    split
    · rw [List.foldl_flip_cons_eq_append',List.append_nil]
      exact List.nodup_reverse.mpr hd
    · split
      · exact ih h
      · split
        · split
          · exact ih (nodup_insertTagged _ h)
          · exact ih h
        · split
          · split
            · exact ih (nodup_insertDevice _ h)
            · exact ih (nodup_insertWhere _ _ h)
          · exact ih (nodup_insertWhere _ _ h)

end Lightsd.Lifx.Daemon

namespace Lightsd.Core

open Lifx Lifx.Daemon Runs

/-- Listing the devices of targets gives no bulb twice, whatever their order and repetitions,
and it gives the union of what they mean exactly if everything is among them, or what is taken
by mistake and what is missed is made up for by other targets. -/
theorem targets_resolved_iff (clientId : UInt32) (es : List Event) (hl : daemonSystem.Legal (started clientId) es)
    (targets : List TargetName) :
    let d := daemonSystem.exec (started clientId) es
    (d.targetsToDevices targets).Nodup ∧
      (∀ ts : List TargetName, (∀ t, t ∈ ts ↔ t ∈ targets) →
        ∀ b, b ∈ d.targetsToDevices ts ↔ b ∈ d.targetsToDevices targets) ∧
      ((∀ b, b ∈ d.targetsToDevices targets ↔ ∃ t ∈ targets, b ∈ d.denoted t) ↔
        [42] ∈ targets ∨ d.MadeUp targets) := by
  intro d
  have hp : d.devices.Partition := (always_partition hl).last
  have hmem : ∀ ts b, b ∈ d.targetsToDevices ts ↔ ∃ t ∈ ts, b ∈ d.selected t := fun _ _ => mem_targetsToDevices hp
  refine ⟨nodup_collectDevices hp.bulbs_nodup targets List.nodup_nil,fun ts hts b => ?_,?_⟩
  · simp only [hmem,hts]
  · simp only [hmem]
    exact selected_eq_denoted_iff hp targets

theorem targets_resolved_iff_handover :
    let d := daemonSystem.exec (started 7) (handoverRun.take 4)
    let targets : List TargetName := [[35,97],[],[48,49,48,50,48,51,48,52,48,53,48,54],[48]]
    (d.targetsToDevices targets).Nodup ∧ ∀ b, b ∈ d.targetsToDevices targets ↔ ∃ t ∈ targets, b ∈ d.denoted t := by
  intro d targets
  have htags : d.tags = [] := by decide +kernel
  have hsmall : ∀ t ∈ targets, (hexNumber t).getD 0 < 2 ^ 48 := by decide +kernel
  have hnone : ∀ t ∈ targets, ∀ b, b ∉ d.mistaken t := by
    rintro t ht b ⟨-,n,hn,hle,-⟩
    have hlt := hsmall t ht
    rw [hn,Option.getD_some] at hlt
    omega
  have hmadeUp : d.MadeUp targets := by
    refine ⟨fun t ht b hb => absurd hb (hnone t ht b),fun t ht b hb => ?_⟩
    obtain ⟨-,⟨b',hb',-⟩ | ⟨label,t',-,hfind,-⟩⟩ := hb
    · exact absurd hb' (hnone t ht b')
    · have hlisted : t' ∈ d.tags := List.mem_of_find?_eq_some hfind
      rw [htags] at hlisted
      cases hlisted
  obtain ⟨hnodup,-,hiff⟩ := targets_resolved_iff 7 (handoverRun.take 4) (by decide +kernel) targets
  exact ⟨hnodup,hiff.mpr (Or.inr hmadeUp)⟩

/-- The address of the bulb of that run, with a digit before it. -/
def overlongTarget : TargetName := [49,48,49,48,50,48,51,48,52,48,53,48,54]

/-- It is taken for the bulb, which has neither this address nor this label. -/
theorem overlong_address_resolved :
    let d := daemonSystem.exec (started 7) (handoverRun.take 4)
    d.targetsToDevices [overlongTarget] = [0] ∧ 0 ∉ d.denoted overlongTarget := by
  intro d
  refine ⟨by decide +kernel,?_⟩
  rw [overlongTarget,mem_denoted_name (by decide) (by decide)]
  rintro ⟨-,haddr | ⟨-,hlabel⟩⟩
  · have hnot : hexNumber overlongTarget ≠ some (addrNumber (d.bulb 0).addr) := by decide +kernel
    exact hnot haddr
  · have hnot : (d.bulb 0).hasLabel overlongTarget = false := by decide +kernel
    exact absurd (hnot.symm.trans hlabel) nofun

end Lightsd.Core
