import Mathlib

/-! # Lowest set bits of a word

A word with its lowest set bit at `i` differs from its predecessor exactly in the
bits up to `i`. Bit scans that multiply this difference by a constant only ever
see the words `2 ^ (i + 1) - 1`.
-/
namespace BitScan
variable {w : ℕ}

def IsLowest (x : BitVec w) (i : ℕ) : Prop :=
  x.getLsbD i = true ∧ ∀ j < i, x.getLsbD j = false

theorem IsLowest.lt {x : BitVec w} {i : ℕ} (h : IsLowest x i) : i < w :=
  BitVec.lt_of_getLsbD h.1

theorem exists_isLowest {x : BitVec w} (hx : x ≠ 0) : ∃ i, IsLowest x i := by
  have hbit : ∃ i, x.getLsbD i = true := by
    by_contra hno
    apply hx
    apply BitVec.eq_of_getLsbD_eq
    intro i _
    have hi : x.getLsbD i ≠ true := fun h => hno ⟨i,h⟩
    simpa using hi
  classical
  refine ⟨Nat.find hbit,Nat.find_spec hbit,fun j hj => ?_⟩
  have hj := Nat.find_min hbit hj
  simpa using hj

theorem IsLowest.toNat_eq {x : BitVec w} {i : ℕ} (h : IsLowest x i) :
    x.toNat = 2 ^ (i + 1) * (x.toNat / 2 ^ (i + 1)) + 2 ^ i := by
  have hmod : x.toNat % 2 ^ (i + 1) = 2 ^ i := by
    apply Nat.eq_of_testBit_eq
    intro j
    rw [Nat.testBit_mod_two_pow,Nat.testBit_two_pow]
    rcases Nat.lt_trichotomy j i with hj | hj | hj
    · have hf := h.2 j hj
      rw [BitVec.getLsbD] at hf
      simp [hf,hj.ne']
    · subst hj
      have ht := h.1
      rw [BitVec.getLsbD] at ht
      simp [ht]
    · simp [hj.ne,Nat.not_lt.mpr hj]
  rw [← hmod]
  exact (Nat.div_add_mod _ _).symm

/-- Subtracting one flips exactly the bits up to the lowest set one. -/
theorem IsLowest.xor_pred {x : BitVec w} {i : ℕ} (h : IsLowest x i) :
    x ^^^ (x - 1) = BitVec.ofNat w (2 ^ (i + 1) - 1) := by
  have hlt := h.lt
  have heq := h.toNat_eq
  set m := x.toNat / 2 ^ (i + 1)
  have hpos : 0 < 2 ^ i := Nat.two_pow_pos i
  have hpow : 2 ^ (i + 1) = 2 * 2 ^ i := by rw [Nat.pow_succ]; ring
  have hpred : (x - 1).toNat = 2 ^ (i + 1) * m + (2 ^ i - 1) := by
    have hone : (1 : BitVec w).toNat = 1 := by
      have hw : 1 < 2 ^ w := Nat.one_lt_two_pow (by omega)
      simp [Nat.mod_eq_of_lt hw]
    have hle : (1 : BitVec w) ≤ x := by
      rw [BitVec.le_def,hone]
      omega
    rw [BitVec.toNat_sub_of_le hle,hone]
    omega
  apply BitVec.eq_of_toNat_eq
  have hsmall : 2 ^ (i + 1) - 1 < 2 ^ w := by
    have hle : 2 ^ (i + 1) ≤ 2 ^ w := Nat.pow_le_pow_right (by decide) hlt
    have hp : 0 < 2 ^ (i + 1) := Nat.two_pow_pos _
    omega
  rw [BitVec.toNat_xor,BitVec.toNat_ofNat,Nat.mod_eq_of_lt hsmall,hpred,heq]
  apply Nat.eq_of_testBit_eq
  intro j
  rw [Nat.testBit_xor,Nat.testBit_two_pow_sub_one]
  rw [Nat.testBit_two_pow_mul_add m (by omega),Nat.testBit_two_pow_mul_add m (by omega)]
  by_cases hj : j < i + 1
  · simp only [hj,↓reduceIte,Nat.testBit_two_pow,Nat.testBit_two_pow_sub_one]
    by_cases hji : j = i
    · simp [hji]
    · have hlt' : j < i := by omega
      simp [hlt',Ne.symm hji]
  · simp [hj]

/-- The indices of the set bits, in increasing order. -/
def setBits (x : BitVec w) : List ℕ := (List.range w).filter (fun i => x.getLsbD i)

theorem mem_setBits {x : BitVec w} {i : ℕ} : i ∈ setBits x ↔ x.getLsbD i = true := by
  simp only [setBits,List.mem_filter,List.mem_range]
  exact ⟨fun h => h.2,fun h => ⟨BitVec.lt_of_getLsbD h,h⟩⟩

theorem setBits_nodup (x : BitVec w) : (setBits x).Nodup := List.nodup_range.filter _

end BitScan
