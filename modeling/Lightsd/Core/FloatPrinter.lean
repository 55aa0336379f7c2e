import Lightsd.Core.LightStateText
import Lightsd.Library.BoundedBuffer

/-! # Printing of fractions

The function that prints the share of a range that a number of sixteen bits stands for, at
the level of its loops: it finds the power of ten of the first digit, writes the zeros of a
small fraction and then a digit for each power of ten. Every write looks at an index of the
buffer and every product of ints may overflow; both are errors here. It writes the text
that `uint16RangeToFloatString` gives.
-/
namespace Lightsd.Core.Jsonrpc

open BoundedBuffer Buffer

/-- The value of an expression of ints that is not negative. -/
def intValue (n : ℕ) : Except PrintFault ℕ := if n < 2 ^ 31 then .ok n else .error .overflow

/-- The power of ten of the first digit. -/
def findMultiplier (value : ℕ) : ℕ → ℕ → Except PrintFault ℕ
  | 0, _ => .error .endless
  | fuel + 1, multiplier => do
    let next ← intValue (multiplier * 10)
    if value / next ≠ 0 then findMultiplier value fuel next else .ok multiplier

/-- The zeros of a fraction before its first digit. -/
def zerosLoop (size multiplier : ℕ) : ℕ → ℕ → Buffer UInt8 → Except PrintFault (Buffer UInt8)
  | 0, _, _ => .error .endless
  | fuel + 1, divider, out =>
    if multiplier < floatPrec / divider ∧ out.used ≠ size then do
      let out ← out.push .outside 48
      let divider ← intValue (divider * 10)
      zerosLoop size multiplier fuel divider out
    else .ok out

/-- The dot goes before the digit of a tenth, with a zero if it comes first. -/
def putDot (size multiplier : ℕ) (out : Buffer UInt8) : Except PrintFault (Buffer UInt8) :=
  if multiplier = floatPrec / 10 then do
    let out ← if out.used = 0 then out.push .outside 48 else .ok out
    out.pushUnlessFull .outside size 46
  else .ok out

/-- The loop over the digits; its body is done once at least. -/
def digitsLoop (size : ℕ) : ℕ → ℕ → ℕ → Buffer UInt8 → Except PrintFault (Buffer UInt8)
  | 0, _, _, _ => .error .endless
  | fuel + 1, value, multiplier, out => do
    let out ← putDot size multiplier out
    let out ← out.pushUnlessFull .outside size (.ofNat (48 + value / multiplier))
    let value := value - value / multiplier * multiplier
    let multiplier := multiplier / 10
    if (value ≠ 0 ∨ floatPrec ≤ multiplier) ∧ multiplier ≠ 0 ∧ out.used ≠ size then
      digitsLoop size fuel value multiplier out
    else .ok out

/-- A zero and a dot, and the zeros behind it, if the first digit comes later. -/
def putLeading (size multiplier : ℕ) (out : Buffer UInt8) : Except PrintFault (Buffer UInt8) :=
  if multiplier < floatPrec / 10 then do
    let out ← out.push .outside 48
    let out ← out.pushUnlessFull .outside size 46
    zerosLoop size multiplier 10 10 out
  else .ok out

/-- A number of millionths is printed, and the text terminated. -/
def printMillionths (value size : ℕ) (out : List UInt8) : Except PrintFault (List UInt8) :=
  if value = 0 then do
    let out ← store .outside out 0 48
    store .outside out 1 0
  else do
    let multiplier ← findMultiplier value 10 1
    let buf ← putLeading size multiplier ⟨out,0⟩
    let buf ← digitsLoop size 10 value multiplier buf
    let out ← store .outside buf.cells (min buf.used (size - 1)) 0
    if buf.used ≤ size then .ok out else .error .assertion

/-- The bytes of the buffer afterwards. The product of the number and the range is one of
64 bits. -/
def printUint16Range (encoded : UInt16) (start stop size : ℕ) (out : List UInt8) : Except PrintFault (List UInt8) :=
  if size ≤ 1 ∨ stop ≤ start then .error .assertion
  else do
    let upper ← intValue (stop * floatPrec)
    let lower ← intValue (start * floatPrec)
    let value ← intValue (encoded.toNat * (upper - lower) / 65535)
    printMillionths value size out

/-- By this rule and not by evaluation: the products of large numbers are left alone. -/
theorem ok_bind {α β : Type} (x : α) (k : α → Except PrintFault β) : (Except.ok x >>= k) = k x := rfl

theorem intValue_ok {n : ℕ} (h : n < 2 ^ 31) : intValue n = .ok n := if_pos h

/-- The power of ten is found, and looking for it does not overflow. -/
theorem findMultiplier_ok {value k : ℕ} (hk : 10 ^ k ≤ value) (hvalue : value < 10 ^ 9) {fuel : ℕ}
    (hfuel : Nat.log 10 value < k + fuel) : findMultiplier value fuel (10 ^ k) = .ok (10 ^ Nat.log 10 value) := by
  have hlog : k ≤ Nat.log 10 value := Nat.le_log_of_pow_le (by norm_num) hk
  induction fuel generalizing k with
  | zero => omega
  | succ fuel ih =>
    have hk9 : k < 9 := (Nat.pow_lt_pow_iff_right (by norm_num : 1 < 10)).mp (hk.trans_lt hvalue)
    have hnext : 10 ^ k * 10 < 2 ^ 31 := by
      rw [← pow_succ]
      exact (Nat.pow_le_pow_right (by norm_num) hk9).trans_lt (by norm_num)
    rw [findMultiplier,intValue_ok hnext,ok_bind,← pow_succ]
    by_cases hmore : 10 ^ (k + 1) ≤ value
    · rw [if_pos (Nat.div_pos hmore (by positivity)).ne']
      exact ih hmore (by omega) (Nat.le_log_of_pow_le (by norm_num) hmore)
    · have heq : Nat.log 10 value = k := Nat.log_eq_of_pow_le_of_lt_pow hk (not_le.mp hmore)
      rw [if_neg (not_not.mpr (Nat.div_eq_of_lt (not_le.mp hmore))),heq]

section Loops
variable {before text : List UInt8} {out : Buffer UInt8}

/-- The zeros that are written are those between the dot and the first digit. -/
theorem zerosLoop_holds {e j k fuel : ℕ} (h : Holds before text out) (hjk : e + j + k = 6) (hfuel : k < fuel) :
    ∃ out', zerosLoop before.length (10 ^ e) fuel (10 ^ j) out = .ok out' ∧
      Holds before (text ++ List.replicate k 48) out' := by
  induction fuel generalizing j k text out with
  | zero => omega
  | succ fuel ih =>
    have hdiv : floatPrec / 10 ^ j = 10 ^ (e + k) := by
      apply Nat.div_eq_of_eq_mul_right (by positivity)
      rw [← pow_add,show j + (e + k) = 6 by omega]
      rfl
    rw [zerosLoop,hdiv]
    cases k with
    | zero =>
      rw [if_neg (by simp)]
      exact ⟨out,rfl,by simpa using h⟩
    | succ k =>
      have hlt : 10 ^ e < 10 ^ (e + (k + 1)) := Nat.pow_lt_pow_right (by norm_num) (by omega)
      by_cases hfull : out.used = before.length
      · rw [if_neg (by simp [hfull])]
        exact ⟨out,rfl,h.append_of_full hfull⟩
      · have hused := h.used
        obtain ⟨out',hpush,hholds,-⟩ := h.push PrintFault.outside (by omega) 48
        have hnext : 10 ^ j * 10 < 2 ^ 31 := by
          rw [← pow_succ]
          exact (Nat.pow_le_pow_right (by norm_num) (by omega : j + 1 ≤ 6)).trans_lt (by norm_num)
        obtain ⟨out'',hloop,hholds'⟩ := ih (j := j + 1) (k := k) hholds (by omega) (by omega)
        refine ⟨out'',?_,?_⟩
        · rw [if_pos ⟨hlt,hfull⟩,hpush,ok_bind,intValue_ok hnext,ok_bind,← pow_succ]
          exact hloop
        · rw [List.append_assoc] at hholds'
          exact hholds'

theorem putDot_holds {started : Bool} (h : Holds before text out) (hpos : 0 < before.length)
    (hstart : started = true ↔ text ≠ []) (multiplier : ℕ) :
    ∃ out', putDot before.length multiplier out = .ok out' ∧
      Holds before
        (text ++ (if multiplier = floatPrec / 10 then if started then ascii "." else ascii "0." else [])) out' := by
  rw [putDot]
  by_cases htenth : multiplier = floatPrec / 10
  · rw [if_pos htenth,if_pos htenth]
    cases started with
    | true =>
      have hused : out.used ≠ 0 := by
        have hlen := List.length_pos_of_ne_nil (hstart.mp rfl)
        rw [h.used]
        omega
      rw [if_neg hused]
      exact h.pushUnlessFull PrintFault.outside 46
    | false =>
      obtain rfl : text = [] := by simpa using hstart
      have hused : out.used = 0 := h.used.trans (Nat.zero_min _)
      obtain ⟨out₁,hpush,hholds,-⟩ := h.push PrintFault.outside (by omega) 48
      obtain ⟨out₂,hdot,hholds'⟩ := hholds.pushUnlessFull PrintFault.outside 46
      refine ⟨out₂,?_,hholds'⟩
      rw [if_pos hused,hpush,ok_bind]
      exact hdot
  · rw [if_neg htenth,if_neg htenth,List.append_nil]
    exact ⟨out,rfl,h⟩

/-- One round of the loop writes what the text has for a power of ten. -/
theorem digit_holds {started : Bool} {value e : ℕ} (h : Holds before text out) (hpos : 0 < before.length)
    (hstart : started = true ↔ text ≠ []) (hvalue : value < 10 ^ (e + 1)) :
    ∃ out₁ out₂, putDot before.length (10 ^ e) out = .ok out₁ ∧
      out₁.pushUnlessFull .outside before.length (.ofNat (48 + value / 10 ^ e)) = Except.ok (ε := PrintFault) out₂ ∧
      Holds before (text ++ millionthsDigit started value e) out₂ := by
  obtain ⟨out₁,hdot,hholds⟩ := putDot_holds h hpos hstart (10 ^ e)
  have hdigit : value / 10 ^ e < 10 := by
    rw [Nat.div_lt_iff_lt_mul (by positivity),← pow_succ']
    exact hvalue
  have htext : digitText (value / 10 ^ e) = .ofNat (48 + value / 10 ^ e) := by
    rw [digitText,if_pos hdigit]
  obtain ⟨out₂,hpush,hholds'⟩ := hholds.pushUnlessFull PrintFault.outside (.ofNat (48 + value / 10 ^ e))
  refine ⟨out₁,out₂,hdot,hpush,?_⟩
  rwa [millionthsDigit,htext,← List.append_assoc]

/-- The loop over the digits writes the text of the number. -/
theorem digitsLoop_holds {started : Bool} {value e fuel : ℕ} (h : Holds before text out) (hpos : 0 < before.length)
    (hstart : started = true ↔ text ≠ []) (hvalue : value < 10 ^ (e + 1)) (hfuel : e < fuel) :
    ∃ out', digitsLoop before.length fuel value (10 ^ e) out = .ok out' ∧
      Holds before (text ++ millionthsText started value e) out' := by
  induction e generalizing started value fuel text out with
  | zero =>
    obtain ⟨fuel,rfl⟩ := Nat.exists_eq_add_of_lt hfuel
    obtain ⟨out₁,out₂,hdot,hpush,hholds⟩ := digit_holds h hpos hstart hvalue
    refine ⟨out₂,?_,hholds⟩
    rw [digitsLoop,hdot,ok_bind,hpush,ok_bind]
    exact if_neg (by simp)
  | succ e ih =>
    obtain ⟨fuel,rfl⟩ : ∃ n, fuel = n + 1 := ⟨fuel - 1,by omega⟩
    obtain ⟨out₁,out₂,hdot,hpush,hholds⟩ := digit_holds h hpos hstart hvalue
    have hmod : value - value / 10 ^ (e + 1) * 10 ^ (e + 1) = value % 10 ^ (e + 1) := by
      have hsplit := Nat.div_add_mod' value (10 ^ (e + 1))
      omega
    have hten : 10 ^ (e + 1) / 10 = 10 ^ e := by
      rw [pow_succ,Nat.mul_div_cancel _ (by norm_num)]
    have hround : digitsLoop before.length (fuel + 1) value (10 ^ (e + 1)) out =
        if (value % 10 ^ (e + 1) ≠ 0 ∨ floatPrec ≤ 10 ^ e) ∧ 10 ^ e ≠ 0 ∧ out₂.used ≠ before.length then
          digitsLoop before.length fuel (value % 10 ^ (e + 1)) (10 ^ e) out₂
        else .ok out₂ := by
      rw [digitsLoop,hdot,ok_bind,hpush,ok_bind,hmod,hten]
    rw [hround,millionthsText,← List.append_assoc]
    by_cases hmore : value % 10 ^ (e + 1) ≠ 0 ∨ floatPrec ≤ 10 ^ e
    · rw [if_pos hmore]
      by_cases hfull : out₂.used = before.length
      · rw [if_neg (by simp [hfull])]
        exact ⟨out₂,rfl,hholds.append_of_full hfull⟩
      · rw [if_pos ⟨hmore,by positivity,hfull⟩]
        have hne : text ++ millionthsDigit started value (e + 1) ≠ [] := by simp [millionthsDigit]
        exact ih hholds (by simp [hne]) (Nat.mod_lt _ (by positivity)) (by omega)
    · rw [if_neg hmore,if_neg (fun hall => hmore hall.1),List.append_nil]
      exact ⟨out₂,rfl,hholds⟩

theorem putLeading_holds {e : ℕ} (hsize : 2 ≤ before.length) :
    ∃ out', putLeading before.length (10 ^ e) ⟨before,0⟩ = .ok out' ∧ Holds before (leadingZeros e) out' := by
  rw [putLeading,leadingZeros]
  by_cases hsmall : 10 ^ e < floatPrec / 10
  · have he : e < 5 := (Nat.pow_lt_pow_iff_right (by norm_num : 1 < 10)).mp hsmall
    obtain ⟨out₁,hpush,hholds₁,-⟩ := (holds_nil before).push PrintFault.outside (by dsimp only; omega) 48
    obtain ⟨out₂,hdot,hholds₂⟩ := hholds₁.pushUnlessFull PrintFault.outside 46
    have hloop : ∃ out', zerosLoop before.length (10 ^ e) 10 (10 ^ 1) out₂ = .ok out' ∧
        Holds before ([] ++ [48] ++ [46] ++ List.replicate (5 - e) 48) out' :=
      zerosLoop_holds hholds₂ (by omega) (by omega)
    obtain ⟨out₃,hzeros,hholds₃⟩ := hloop
    refine ⟨out₃,?_,?_⟩
    · rw [if_pos hsmall,hpush,ok_bind,hdot,ok_bind]
      exact hzeros
    · rw [if_pos hsmall]
      exact hholds₃
  · rw [if_neg hsmall,if_neg hsmall]
    exact ⟨_,rfl,holds_nil before⟩

end Loops

/-- The text of a number of millionths. -/
def valueText (value : ℕ) : List UInt8 :=
  if value = 0 then [48]
  else leadingZeros (Nat.log 10 value) ++
    millionthsText (10 ^ Nat.log 10 value < floatPrec / 10) value (Nat.log 10 value)

theorem uint16RangeToFloatString_eq (encoded : UInt16) (start stop : ℕ) {size : ℕ} (hsize : 2 ≤ size) :
    uint16RangeToFloatString encoded start stop size =
      (valueText (encoded.toNat * (stop * floatPrec - start * floatPrec) / 65535)).take (size - 1) := by
  rw [uint16RangeToFloatString,valueText]
  dsimp only
  split
  · exact (List.take_of_length_le (by simp only [List.length_singleton]; omega)).symm
  · rfl

theorem printMillionths_ok {value : ℕ} (hvalue : value < 10 ^ 9) {out : List UInt8} (hsize : 2 ≤ out.length) :
    printMillionths value out.length out = .ok ((valueText value).take (out.length - 1) ++
      0 :: out.drop (((valueText value).take (out.length - 1)).length + 1)) := by
  rw [printMillionths,valueText]
  by_cases h0 : value = 0
  · rw [if_pos h0,if_pos h0]
    obtain ⟨a,b,rest,rfl⟩ : ∃ a b rest, out = a :: b :: rest := by
      match out,hsize with
      | a :: b :: rest,_ => exact ⟨a,b,rest,rfl⟩
    have htake : [48].take ((a :: b :: rest).length - 1) = ([48] : List UInt8) :=
      List.take_of_length_le (by simp)
    rw [htake]
    simp [store]
    rfl
  · rw [if_neg h0,if_neg h0]
    have hone : 10 ^ 0 ≤ value := Nat.one_le_iff_ne_zero.mpr h0
    have hlog : Nat.log 10 value < 9 := Nat.log_lt_of_lt_pow h0 hvalue
    have hmultiplier : findMultiplier value 10 1 = .ok (10 ^ Nat.log 10 value) :=
      findMultiplier_ok hone hvalue (by omega)
    have hlt : value < 10 ^ (Nat.log 10 value + 1) := Nat.lt_pow_succ_log_self (by norm_num) value
    generalize Nat.log 10 value = e at hlog hmultiplier hlt ⊢
    obtain ⟨buf,hleading,hholds⟩ := putLeading_holds (e := e) hsize
    have hstart : decide (10 ^ e < floatPrec / 10) = true ↔ leadingZeros e ≠ [] := by
      have hdot : ascii "0." = [48,46] := rfl
      rw [leadingZeros,decide_eq_true_eq,hdot]
      split <;> simp_all
    have hfuel : e < 10 := by omega
    obtain ⟨buf',hdigits,hholds'⟩ := digitsLoop_holds hholds (by omega) hstart hlt hfuel
    have hused : buf'.used ≤ out.length := by
      rw [hholds'.used]
      omega
    rw [hmultiplier,ok_bind,hleading,ok_bind,hdigits,ok_bind,hholds'.terminate PrintFault.outside (by omega) 0,ok_bind,
      if_pos hused]

/-- Nothing goes wrong, and the buffer holds the text and a terminator. -/
theorem printUint16Range_ok (encoded : UInt16) {start stop : ℕ} (hrange : start < stop) (hstop : stop ≤ 999)
    {out : List UInt8} (hsize : 2 ≤ out.length) :
    printUint16Range encoded start stop out.length out =
      .ok (uint16RangeToFloatString encoded start stop out.length ++
        0 :: out.drop ((uint16RangeToFloatString encoded start stop out.length).length + 1)) := by
  have hencoded := encoded.toNat_lt
  have hupper : stop * floatPrec ≤ 999000000 := Nat.mul_le_mul_right 1000000 hstop
  have hlower : start * floatPrec ≤ stop * floatPrec := Nat.mul_le_mul_right _ hrange.le
  have hproduct : encoded.toNat * (stop * floatPrec - start * floatPrec) ≤ 65535 * 999000000 :=
    Nat.mul_le_mul (by omega) (by omega)
  have hvalue : encoded.toNat * (stop * floatPrec - start * floatPrec) / 65535 < 10 ^ 9 := by omega
  rw [uint16RangeToFloatString_eq _ _ _ hsize,printUint16Range,if_neg (by omega)]
  rw [intValue_ok (by omega : stop * floatPrec < 2 ^ 31),ok_bind,
    intValue_ok (by omega : start * floatPrec < 2 ^ 31),ok_bind,intValue_ok (hvalue.trans (by norm_num)),ok_bind]
  exact printMillionths_ok hvalue hsize

end Lightsd.Core.Jsonrpc
