import Lightsd.Lifx.WireProto
import Lightsd.Library.BitScan

/-! # Iterating over the tag ids of a mask

The forward bit scan multiplies by a De Bruijn constant and looks the top six bits
up in a table. Iterating it visits exactly the set bits of the mask, in order.
-/
namespace Lightsd.Lifx
open BitScan

def debruijnNumber : BitVec 64 := 0x03f79d71b4cb0a89

def debruijnSequence : List ℕ :=
  [0,47,1,56,48,27,2,60,57,49,41,37,28,16,3,61,54,58,35,52,50,42,21,44,38,32,29,23,17,11,4,62,
   46,55,26,59,40,36,15,53,34,51,20,43,31,22,10,45,25,39,14,33,19,30,9,24,13,18,8,12,7,6,5,63]

def bitscan64Forward (n : BitVec 64) : ℤ :=
  if n ≠ 0 then debruijnSequence.getD (((n ^^^ (n - 1)) * debruijnNumber) >>> 58).toNat 0 else -1

def nextTagId (current : ℤ) (tags : TagMask) : ℤ :=
  if current < 63 then bitscan64Forward (tags &&& (BitVec.allOnes 64 <<< (current + 1).toNat))
  else -1

/-- The ids the loop visits from a given one on, until the scan returns minus one. -/
def tagIdsFrom (tags : TagMask) : ℕ → ℤ → List ℕ
  | 0, _ => []
  | fuel + 1, id => if id = -1 then [] else id.toNat :: tagIdsFrom tags fuel (nextTagId id tags)

/-- The ids visited by `LGTD_LIFX_WIRE_FOREACH_TAG_ID`. -/
def foreachTagId (tags : TagMask) : List ℕ := tagIdsFrom tags 65 (nextTagId (-1) tags)

def tagIdToValue (id : ℕ) : TagMask := 1#64 <<< id

/-- The test `mask & LGTD_LIFX_WIRE_TAG_ID_TO_VALUE(id)`. -/
def hasTagId (mask : TagMask) (id : ℕ) : Bool := mask &&& tagIdToValue id ≠ 0

theorem getLsbD_tagIdToValue {id j : ℕ} (hid : id < 64) :
    (tagIdToValue id).getLsbD j = decide (j = id) := by
  unfold tagIdToValue
  rw [BitVec.getLsbD_shiftLeft,BitVec.getLsbD_one]
  by_cases h : j = id
  · subst h
    simp [hid]
  · have hz : ¬ (id ≤ j ∧ j - id = 0) := by omega
    simp only [h,decide_false,Bool.and_eq_false_iff,Bool.not_eq_false',decide_eq_true_eq]
    by_cases hlt : j < id
    · exact Or.inl (Or.inr hlt)
    · right
      simp
      omega

theorem hasTagId_eq {mask : TagMask} {id : ℕ} (hid : id < 64) : hasTagId mask id = mask.getLsbD id := by
  unfold hasTagId
  rw [Bool.eq_iff_iff,decide_eq_true_eq]
  constructor
  · intro hne
    by_contra hf
    apply hne
    apply BitVec.eq_of_getLsbD_eq
    intro j _
    rw [BitVec.getLsbD_and,getLsbD_tagIdToValue hid]
    by_cases h : j = id
    · subst h
      simpa using hf
    · simp [h]
  · intro ht hz
    have hbit := congrArg (fun m => BitVec.getLsbD m id) hz
    simp [getLsbD_tagIdToValue hid,ht] at hbit

theorem debruijn_table : ∀ i : Fin 64, debruijnSequence.getD
    ((BitVec.ofNat 64 (2 ^ (i.val + 1) - 1) * debruijnNumber) >>> 58).toNat 0 = i.val := by
  decide

theorem bitscan64Forward_eq {n : BitVec 64} {i : ℕ} (h : IsLowest n i) : bitscan64Forward n = i := by
  have hne : n ≠ 0 := by
    rintro rfl
    simpa using h.1
  rw [bitscan64Forward,if_pos hne,h.xor_pred]
  exact_mod_cast debruijn_table ⟨i,h.lt⟩

@[simp] theorem bitscan64Forward_zero : bitscan64Forward 0 = -1 := by simp [bitscan64Forward]

/-- The mask applied before the scan keeps exactly the bits after the current id. -/
theorem getLsbD_above (tags : TagMask) (k j : ℕ) :
    (tags &&& (BitVec.allOnes 64 <<< k)).getLsbD j = (tags.getLsbD j && decide (k ≤ j)) := by
  rw [BitVec.getLsbD_and,BitVec.getLsbD_shiftLeft,BitVec.getLsbD_allOnes]
  by_cases hj : j < 64
  · by_cases hk : k ≤ j
    · have hsub : j - k < 64 := by omega
      simp [hj,hk,hsub]
    · have hlt : j < k := by omega
      simp [hj,hk,hlt]
  · have hz : tags.getLsbD j = false := BitVec.getLsbD_of_ge _ _ (by omega)
    simp [hz]

/-- The ids still to be visited once all below `k` are behind. -/
def setBitsFrom (tags : TagMask) (k : ℕ) : List ℕ :=
  (List.range' k (64 - k)).filter (fun i => tags.getLsbD i)

theorem setBitsFrom_skip {tags : TagMask} {k i : ℕ} (hki : k ≤ i) (hi : i < 64)
    (hbit : tags.getLsbD i = true) (hlow : ∀ j, k ≤ j → j < i → tags.getLsbD j = false) :
    setBitsFrom tags k = i :: setBitsFrom tags (i + 1) := by
  have hsplit : List.range' k (64 - k) =
      List.range' k (i - k) ++ (i :: List.range' (i + 1) (64 - (i + 1))) := by
    have hcons : i :: List.range' (i + 1) (64 - (i + 1)) = List.range' (k + (i - k)) (64 - i) := by
      have h1 : k + (i - k) = i := by omega
      have h2 : 64 - i = (64 - (i + 1)) + 1 := by omega
      rw [h1,h2,List.range'_succ]
    have hlen : 64 - k = (i - k) + (64 - i) := by omega
    rw [hcons,hlen,List.range'_append_1]
  have hnil : (List.range' k (i - k)).filter (fun i => tags.getLsbD i) = [] := by
    rw [List.filter_eq_nil_iff]
    intro j hj
    have hr := List.mem_range'_1.mp hj
    simp [hlow j hr.1 (by omega)]
  rw [setBitsFrom,hsplit,List.filter_append,hnil,List.nil_append,List.filter_cons_of_pos hbit]
  rfl

theorem setBitsFrom_empty {tags : TagMask} {k : ℕ} (h : ∀ j, k ≤ j → tags.getLsbD j = false) :
    setBitsFrom tags k = [] := by
  rw [setBitsFrom,List.filter_eq_nil_iff]
  intro j hj
  simp [h j (List.mem_range'_1.mp hj).1]

theorem nextTagId_cases (tags : TagMask) {k : ℕ} (hk : k ≤ 64) :
    (nextTagId ((k : ℤ) - 1) tags = -1 ∧ ∀ j, k ≤ j → tags.getLsbD j = false) ∨
    ∃ i : ℕ, nextTagId ((k : ℤ) - 1) tags = i ∧ k ≤ i ∧ i < 64 ∧ tags.getLsbD i = true ∧
      ∀ j, k ≤ j → j < i → tags.getLsbD j = false := by
  by_cases hlast : k = 64
  · left
    subst hlast
    refine ⟨by simp [nextTagId],fun j hj => BitVec.getLsbD_of_ge _ _ hj⟩
  · have hcur : ((k : ℤ) - 1) < 63 := by omega
    have hshift : ((k : ℤ) - 1 + 1).toNat = k := by omega
    have hnext : nextTagId ((k : ℤ) - 1) tags =
        bitscan64Forward (tags &&& (BitVec.allOnes 64 <<< k)) := by
      rw [nextTagId,if_pos hcur,hshift]
    rw [hnext]
    by_cases hz : tags &&& (BitVec.allOnes 64 <<< k) = 0
    · left
      refine ⟨by rw [hz]; exact bitscan64Forward_zero,fun j hj => ?_⟩
      have hbit := getLsbD_above tags k j
      rw [hz] at hbit
      simpa [hj] using hbit.symm
    · right
      obtain ⟨i,hlow⟩ := exists_isLowest hz
      have hbit := hlow.1
      rw [getLsbD_above,Bool.and_eq_true,decide_eq_true_eq] at hbit
      refine ⟨i,bitscan64Forward_eq hlow,hbit.2,hlow.lt,hbit.1,fun j hkj hji => ?_⟩
      have hf := hlow.2 j hji
      rw [getLsbD_above] at hf
      simpa [hkj] using hf

theorem tagIdsFrom_eq (tags : TagMask) (fuel k : ℕ) (hk : k ≤ 64) (hf : 64 - k < fuel) :
    tagIdsFrom tags fuel (nextTagId ((k : ℤ) - 1) tags) = setBitsFrom tags k := by
  induction fuel generalizing k with
  | zero => omega
  | succ fuel ih =>
    rcases nextTagId_cases tags hk with ⟨hn,hnone⟩ | ⟨i,hn,hki,hi,hbit,hlow⟩
    · rw [hn,setBitsFrom_empty hnone]
      simp [tagIdsFrom]
    · have hpos : (i : ℤ) ≠ -1 := by omega
      have hsucc : ((i : ℤ)) = ((i + 1 : ℕ) : ℤ) - 1 := by omega
      rw [hn,setBitsFrom_skip hki hi hbit hlow]
      simp only [tagIdsFrom,hpos,↓reduceIte,Int.toNat_natCast]
      congr 1
      rw [hsucc]
      exact ih (i + 1) (by omega) (by omega)

/-- The loop visits exactly the set bits of the mask, in increasing order. -/
theorem foreachTagId_eq (tags : TagMask) : foreachTagId tags = setBits tags := by
  have h := tagIdsFrom_eq tags 65 0 (by omega) (by omega)
  rw [foreachTagId,setBits]
  simpa [setBitsFrom,List.range_eq_range'] using h

theorem mem_foreachTagId {tags : TagMask} {id : ℕ} : id ∈ foreachTagId tags ↔ tags.getLsbD id = true := by
  rw [foreachTagId_eq]
  exact mem_setBits

theorem foreachTagId_nodup (tags : TagMask) : (foreachTagId tags).Nodup := by
  rw [foreachTagId_eq]
  exact setBits_nodup tags

theorem lt_of_mem_foreachTagId {tags : TagMask} {id : ℕ} (h : id ∈ foreachTagId tags) : id < 64 :=
  BitVec.lt_of_getLsbD (mem_foreachTagId.mp h)

section Loop

/-- A shift to the left, which C leaves undefined by 64 bits or more. -/
def shiftLeft64 (x : BitVec 64) (n : ℤ) : Option (BitVec 64) :=
  if 0 ≤ n ∧ n < 64 then some (x <<< n.toNat) else none

/-- The scan for the next id, with the shift as C defines it. -/
def nextTagIdShifting (current : ℤ) (tags : TagMask) : Option ℤ :=
  if current < 63 then
    (shiftLeft64 (BitVec.allOnes 64) (current + 1)).map (fun mask => bitscan64Forward (tags &&& mask))
  else some (-1)

/-- The loop comes to an end after these ids, if it begins with the given one. -/
inductive Visited (tags : TagMask) : ℤ → List ℕ → Prop
  | done : Visited tags (-1) []
  | visit {id : ℕ} {ids : List ℕ} (h : Visited tags (nextTagId id tags) ids) : Visited tags id (id :: ids)

theorem Visited.unique {tags : TagMask} {id : ℤ} {ids ids' : List ℕ} (h : Visited tags id ids)
    (h' : Visited tags id ids') : ids = ids' := by
  induction h generalizing ids' with
  | done =>
    generalize hid : (-1 : ℤ) = id at h'
    cases h' with
    | done => rfl
    | visit => omega
  | @visit id ids h ih =>
    generalize hid : (id : ℤ) = i at h'
    cases h' with
    | done => omega
    | visit h' =>
      obtain rfl := Int.ofNat.inj hid
      rw [ih h']

theorem visited_setBitsFrom (tags : TagMask) {k : ℕ} (hk : k ≤ 64) :
    Visited tags (nextTagId ((k : ℤ) - 1) tags) (setBitsFrom tags k) := by
  generalize hn : 64 - k = n
  induction n using Nat.strong_induction_on generalizing k with
  | h n ih =>
    rcases nextTagId_cases tags hk with ⟨hnext,hnone⟩ | ⟨i,hnext,hki,hi,hbit,hlow⟩
    · rw [hnext,setBitsFrom_empty hnone]
      exact .done
    · have hrest := ih (64 - (i + 1)) (by omega) (k := i + 1) (by omega) rfl
      rw [Nat.cast_add,Nat.cast_one,add_sub_cancel_right] at hrest
      rw [hnext,setBitsFrom_skip hki hi hbit hlow]
      exact .visit hrest

theorem nextTagIdShifting_eq (tags : TagMask) {current : ℤ} (hcurrent : -1 ≤ current) :
    nextTagIdShifting current tags = some (nextTagId current tags) := by
  unfold nextTagIdShifting nextTagId
  split
  · rw [shiftLeft64,if_pos (by omega)]
    rfl
  · rfl

/-- The least set index above the current one is found, or it is said that there is none. -/
theorem nextTagId_least (tags : TagMask) {current : ℤ} (hcurrent : -1 ≤ current) (hmax : current ≤ 63) :
    (nextTagId current tags = -1 ∧ ∀ j : ℕ, current < j → tags.getLsbD j = false) ∨
      ∃ i : ℕ, nextTagId current tags = i ∧ current < i ∧ tags.getLsbD i = true ∧
        ∀ j : ℕ, current < j → j < i → tags.getLsbD j = false := by
  obtain ⟨k,hk⟩ := Int.eq_ofNat_of_zero_le (show 0 ≤ current + 1 by omega)
  obtain rfl : current = (k : ℤ) - 1 := by omega
  rcases nextTagId_cases tags (k := k) (by omega) with ⟨hnext,hnone⟩ | ⟨i,hnext,hki,-,hbit,hlow⟩
  · exact .inl ⟨hnext,fun j hj => hnone j (by omega)⟩
  · exact .inr ⟨i,hnext,by omega,hbit,fun j hj hji => hlow j (by omega) hji⟩

/-- The loop over the ids of a mask ends, having visited the set bits in increasing order.
Every step finds the least set index above the current one, the scan gives the index of the
lowest set bit, and no shift is too wide. -/
theorem foreach_visits_setBits (tags : TagMask) :
    (∀ ids, Visited tags (nextTagId (-1) tags) ids ↔ ids = setBits tags) ∧
    (∀ i, i ∈ setBits tags ↔ tags.getLsbD i = true) ∧ (setBits tags).Pairwise (· < ·) ∧
    (∀ current : ℤ, -1 ≤ current → current ≤ 63 →
      nextTagIdShifting current tags = some (nextTagId current tags) ∧
      ((nextTagId current tags = -1 ∧ ∀ j : ℕ, current < j → tags.getLsbD j = false) ∨
        ∃ i : ℕ, nextTagId current tags = i ∧ current < i ∧ tags.getLsbD i = true ∧
          ∀ j : ℕ, current < j → j < i → tags.getLsbD j = false)) ∧
    (bitscan64Forward tags = -1 ∧ tags = 0 ∨ ∃ i, IsLowest tags i ∧ bitscan64Forward tags = i) ∧
    (((tags ^^^ (tags - 1)) * debruijnNumber) >>> 58).toNat < debruijnSequence.length := by
  have hvisited := visited_setBitsFrom tags (k := 0) (by omega)
  have hall : setBitsFrom tags 0 = setBits tags := by simp [setBitsFrom,setBits,List.range_eq_range']
  rw [hall] at hvisited
  refine ⟨fun ids => ⟨fun h => h.unique hvisited,?_⟩,fun i => mem_setBits,?_,?_,?_,?_⟩
  · rintro rfl
    exact hvisited
  · exact List.pairwise_lt_range.filter _
  · exact fun current hmin hmax => ⟨nextTagIdShifting_eq tags hmin,nextTagId_least tags hmin hmax⟩
  · by_cases hzero : tags = 0
    · exact .inl ⟨by rw [hzero]; exact bitscan64Forward_zero,hzero⟩
    · obtain ⟨i,hi⟩ := exists_isLowest hzero
      exact .inr ⟨i,hi,bitscan64Forward_eq hi⟩
  · have hlt := ((tags ^^^ (tags - 1)) * debruijnNumber).isLt
    rw [BitVec.toNat_ushiftRight,Nat.shiftRight_eq_div_pow]
    exact Nat.div_lt_of_lt_mul hlt

end Loop
end Lightsd.Lifx
