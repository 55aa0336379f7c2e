import Lightsd.Core.TargetSets
import Lightsd.Core.LightStateText

/-! # Targets that are addresses

A target that starts with a hexadecimal digit is looked up as an address before it is taken
for a label. The number is read with 64 bits and the last 48 of them are the key of the
lookup, so a number that is too long stands for the address it ends with. The id that is
printed for a bulb without a label always leads back to this bulb.
-/
namespace Lightsd.Core

open Lifx Jsonrpc

section Numerals

theorem isXDigit_digitText : ∀ digit : Fin 16, isXDigit (digitText digit) = true := by decide +kernel

theorem xDigitValue_digitText : ∀ digit : Fin 16, xDigitValue (digitText digit) = digit := by decide +kernel

/-- No character of a text of digits alone is taken for the marker of the base. -/
theorem strtoull_of_xdigits {s : List UInt8} (h : ∀ c ∈ s, isXDigit c = true) :
    strtoull s = (s.foldl (fun n c => 16 * n + xDigitValue c) 0,[]) := by
  have hmarker : skipHexMarker s = s := by
    unfold skipHexMarker
    split
    next x c cs =>
      have hx : isXDigit x = true := h x (by simp)
      have hnot : ¬ ((x == 120 || x == 88) && isXDigit c) = true := by
        intro hboth
        simp only [Bool.and_eq_true,Bool.or_eq_true,beq_iff_eq] at hboth
        rcases hboth.1 with rfl | rfl <;> exact absurd hx (by decide)
      rw [if_neg hnot]
    next => rfl
  rw [strtoull,hmarker,List.takeWhile_eq_self_iff.mpr h,List.dropWhile_eq_nil_iff.mpr h]

theorem hexByte_xdigits (b : UInt8) : ∀ c ∈ hexByte b, isXDigit c = true := by
  have hb := b.toNat_lt
  have hhigh := isXDigit_digitText ⟨b.toNat / 16,by omega⟩
  have hlow := isXDigit_digitText ⟨b.toNat % 16,by omega⟩
  intro c hc
  rcases List.mem_pair.mp hc with rfl | rfl
  · exact hhigh
  · exact hlow

theorem foldl_hexByte (b : UInt8) (n : ℕ) :
    (hexByte b).foldl (fun n c => 16 * n + xDigitValue c) n = 256 * n + b.toNat := by
  have hb := b.toNat_lt
  have hhigh : xDigitValue (digitText (b.toNat / 16)) = b.toNat / 16 :=
    xDigitValue_digitText ⟨b.toNat / 16,by omega⟩
  have hlow : xDigitValue (digitText (b.toNat % 16)) = b.toNat % 16 :=
    xDigitValue_digitText ⟨b.toNat % 16,by omega⟩
  simp only [hexByte,List.foldl_cons,List.foldl_nil,hhigh,hlow]
  omega

/-- The id of 12 digits that is printed for a bulb without a label. -/
def bulbId (addr : Addr) : List UInt8 := addr.toList.flatMap hexByte

theorem bulbLabel_unnamed {b : Bulb} (h : cString b.state.label.toList = []) : bulbLabel b = bulbId b.addr := by
  rw [bulbLabel,h]
  rfl

theorem hexNumber_bulbId (addr : Addr) : hexNumber (bulbId addr) = some (addrNumber addr) := by
  have hdigits : ∀ c ∈ bulbId addr, isXDigit c = true := by
    intro c hc
    obtain ⟨b,-,hb⟩ := List.mem_flatMap.mp hc
    exact hexByte_xdigits b c hb
  rw [hexNumber,strtoull_of_xdigits hdigits,if_pos rfl,bulbId,List.foldl_flatMap,addrNumber]
  simp only [foldl_hexByte]

end Numerals

end Lightsd.Core

namespace Lightsd.Lifx.Daemon

open Lightsd.Core

/-- The text of a number that has more than 48 bits, the last of which are the address of a
bulb. -/
def Aliased (d : Daemon) (target : TargetName) : Prop :=
  ∃ b ∈ d.bulbs, ∃ n, hexNumber target = some n ∧ 2 ^ 48 ≤ n ∧ n < 2 ^ 64 ∧ n % 2 ^ 48 = addrNumber (d.bulb b).addr

/-- A target is tried as a label by the commands that send to targets and by those that
list their devices. -/
structure TriedAsLabel (d : Daemon) (target : TargetName) : Prop where
  sent : ∀ now req rv, sendToTarget now req (d,rv) target = (d.sendToLabel now req target,rv)
  listed : ∀ devices targets, d.collectDevices devices (target :: targets) =
    d.collectDevices (d.insertLabelled devices target) targets

variable {d : Daemon} {c : UInt8} {cs : List UInt8}

theorem triedAsLabel (hx : isXDigit c = true) (h : d.deviceAddrToDevice (c :: cs) = none) :
    d.TriedAsLabel (c :: cs) := by
  have htag : c ≠ 35 := by
    rintro rfl
    exact absurd hx (by decide)
  have hstar : c :: cs ≠ [42] := by
    intro heq
    cases heq
    exact absurd hx (by decide)
  constructor
  · intro now req rv
    simp only [sendToTarget,if_neg hstar,if_neg htag,if_pos hx,h]
  · intro devices targets
    rw [collectDevices]
    simp only [if_neg hstar,if_neg htag,if_pos hx,h]

theorem device_bulbId (hk : d.Keyed) {b : BulbRef} (hb : b ∈ d.bulbs) (b' : BulbRef) :
    d.deviceAddrToDevice (bulbId (d.bulb b).addr) = some b' ↔ b' = b := by
  have hlt := addrNumber_lt (d.bulb b).addr
  have hself : d.deviceAddrToDevice (bulbId (d.bulb b).addr) = some b :=
    (hk.device_eq_some b).mpr ⟨hb,_,hexNumber_bulbId _,by omega,Nat.mod_eq_of_lt hlt⟩
  rw [hself,Option.some.injEq]
  exact eq_comm

/-- What is found is what the number names, unless the number is too long. -/
theorem device_exact_iff (hk : d.Keyed) (target : TargetName) :
    (∀ b, d.deviceAddrToDevice target = some b ↔ b ∈ d.bulbs ∧ ∃ n, hexNumber target = some n ∧ n < 2 ^ 64 ∧
      n = addrNumber (d.bulb b).addr) ↔ ¬ d.Aliased target := by
  constructor
  · rintro h ⟨b,hb,n,hn,hle,hlt,hmod⟩
    obtain ⟨-,n',hn',-,heq⟩ := (h b).mp ((hk.device_eq_some b).mpr ⟨hb,n,hn,hlt,hmod⟩)
    have hbound := addrNumber_lt (d.bulb b).addr
    obtain rfl : n' = n := Option.some.inj (hn'.symm.trans hn)
    omega
  · intro hnot b
    rw [hk.device_eq_some]
    refine and_congr_right (fun hb => exists_congr (fun n => ?_))
    refine and_congr_right (fun hn => and_congr_right (fun hlt => ?_))
    have hbound := addrNumber_lt (d.bulb b).addr
    by_cases hle : 2 ^ 48 ≤ n
    · have hother : n % 2 ^ 48 ≠ addrNumber (d.bulb b).addr := fun hmod => hnot ⟨b,hb,n,hn,hle,hlt,hmod⟩
      constructor
      · exact fun hmod => absurd hmod hother
      · intro heq
        omega
    · rw [Nat.mod_eq_of_lt (not_le.mp hle)]

/-- A target finds a bulb exactly if it is the number of the bulb's address, and is tried as
a label if it is no bulb's, unless it is a number of more than 48 bits that ends with the
address of a bulb. The id of a bulb, which is printed for it if it has no label, finds this
bulb in any case. -/
theorem address_resolved_iff (hk : d.Keyed) (hx : isXDigit c = true) :
    ((∀ b, d.deviceAddrToDevice (c :: cs) = some b ↔ b ∈ d.bulbs ∧ ∃ n, hexNumber (c :: cs) = some n ∧
        n < 2 ^ 64 ∧ n = addrNumber (d.bulb b).addr) ∧
      (∀ b ∈ d.bulbs,
        (cString (d.bulb b).state.label.toList = [] → Jsonrpc.bulbLabel (d.bulb b) = bulbId (d.bulb b).addr) ∧
        ∀ b', d.deviceAddrToDevice (bulbId (d.bulb b).addr) = some b' ↔ b' = b) ∧
      ((∀ b ∈ d.bulbs, hexNumber (c :: cs) ≠ some (addrNumber (d.bulb b).addr)) → d.TriedAsLabel (c :: cs))) ↔
    ¬ d.Aliased (c :: cs) := by
  rw [device_exact_iff hk]
  refine ⟨fun h => h.1,fun h => ⟨h,fun b hb => ⟨bulbLabel_unnamed,device_bulbId hk hb⟩,
    fun hnone => triedAsLabel hx ?_⟩⟩
  rw [Option.eq_none_iff_forall_ne_some]
  intro b hb
  obtain ⟨hmem,n,hn,-,heq⟩ := ((device_exact_iff hk _).mpr h b).mp hb
  exact hnone b hmem (heq ▸ hn)

end Lightsd.Lifx.Daemon

namespace Lightsd.Core

open Lifx Lifx.Daemon

/-- A table with one bulb. -/
def oneBulb : Daemon := daemonSystem.exec (started 7) (handoverRun.take 4)

theorem address_resolved_iff_oneBulb : (∀ b' : BulbRef,
    oneBulb.deviceAddrToDevice (bulbId (oneBulb.bulb 0).addr) = some b' ↔ b' = 0) ∧ oneBulb.TriedAsLabel [49] := by
  have hbulbs : oneBulb.bulbs = [0] := by decide +kernel
  have hk : oneBulb.Keyed := by
    intro b hb b' hb' _
    rw [hbulbs,List.mem_singleton] at hb hb'
    exact hb.trans hb'.symm
  have hnumber : hexNumber [49] = some 1 := by decide +kernel
  have hnot : ¬ oneBulb.Aliased [49] := by
    rintro ⟨b,-,n,hn,hle,-⟩
    rw [hnumber] at hn
    cases hn
    omega
  obtain ⟨-,hids,hlabel⟩ := (address_resolved_iff hk (by decide : isXDigit 49 = true)).mpr hnot
  refine ⟨(hids 0 (by rw [hbulbs]; exact List.mem_singleton_self 0)).2,hlabel ?_⟩
  rw [hbulbs]
  intro b hb
  rw [List.mem_singleton.mp hb]
  decide +kernel

/-- The address of the bulb with a digit before it finds the bulb too. -/
theorem longer_number_found : oneBulb.deviceAddrToDevice overlongTarget = some 0 ∧
    hexNumber overlongTarget ≠ some (addrNumber (oneBulb.bulb 0).addr) := by
  decide +kernel

end Lightsd.Core
