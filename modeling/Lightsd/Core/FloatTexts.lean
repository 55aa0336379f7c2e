import Lightsd.Core.FloatParams
import Lightsd.Core.FloatPrinter

/-! # The texts of fractions

The text that is printed for a number of sixteen bits is the canonical one for a number of
millionths: all digits of the integer, and those of the fraction up to the last one that is
not zero. Read back it gives the same millionths, so that printing and reading lose at most
one in sixteen bits, and the checks of the parameters take the text.
-/
namespace Lightsd.Core.Jsonrpc

open BoundedBuffer Buffer

/-- The dot and the digits of a fraction, without zeros at the end. -/
def fractionText (millionths : ℕ) : List UInt8 :=
  if millionths = 0 then [] else 46 :: (Decimals.dropZeros (Decimals.digits 6 millionths)).map digitText

/-- The canonical text of a number of millionths. -/
def canonical (value : ℕ) : List UInt8 := numberText 10 (value / 10 ^ 6) ++ fractionText (value % 10 ^ 6)

section Printed
variable {value e : ℕ}

theorem tenth_iff : 10 ^ e = floatPrec / 10 ↔ e = 5 := by
  have hfive : floatPrec / 10 = 10 ^ 5 := rfl
  rw [hfive]
  exact (Nat.pow_right_injective (by norm_num : 2 ≤ 10)).eq_iff

theorem millionthsDigit_eq (started : Bool) (value e : ℕ) : millionthsDigit started value e =
    (if e = 5 then if started then ascii "." else ascii "0." else []) ++ [digitText (value / 10 ^ e)] := by
  simp only [millionthsDigit,tenth_iff]

/-- The digits from those of a tenth on. -/
theorem millionthsText_fraction (started : Bool) (he : e ≤ 5) (hvalue : value < 10 ^ (e + 1)) (h0 : value ≠ 0) :
    millionthsText started value e = (if e = 5 then if started then ascii "." else ascii "0." else []) ++
      (Decimals.dropZeros (Decimals.digits (e + 1) value)).map digitText := by
  induction e generalizing started value with
  | zero => simp [millionthsText,millionthsDigit_eq,Decimals.digits,Decimals.dropZeros,h0]
  | succ e ih =>
    have hsmall : ¬ floatPrec ≤ 10 ^ e := by
      have hlt : 10 ^ e < 10 ^ 6 := Nat.pow_lt_pow_right (by norm_num) (by omega)
      exact not_le.mpr hlt
    have hrest : value % 10 ^ (e + 1) < 10 ^ (e + 1) := Nat.mod_lt _ (by positivity)
    rw [millionthsText,millionthsDigit_eq,List.append_assoc,Decimals.digits,Decimals.dropZeros]
    congr 1
    by_cases hr : value % 10 ^ (e + 1) = 0
    · have hdigit : value / 10 ^ (e + 1) ≠ 0 := by
        intro hq
        have hsplit := Nat.div_add_mod' value (10 ^ (e + 1))
        rw [hq,hr] at hsplit
        exact h0 (by simpa using hsplit.symm)
      simp [hr,hsmall,hdigit,Decimals.dropZeros_digits_zero]
    · have hne := Decimals.dropZeros_digits_ne_nil hrest hr
      rw [if_pos (.inl hr),ih true (by omega) hrest hr,if_neg (by omega : ¬ e = 5),if_neg (fun h => hne h.2)]
      rfl

theorem millionthsText_succ (started : Bool) (value : ℕ) (he : 5 ≤ e) : millionthsText started value (e + 1) =
    digitText (value / 10 ^ (e + 1)) ::
      (if value % 10 ^ (e + 1) ≠ 0 ∨ floatPrec ≤ 10 ^ e then millionthsText true (value % 10 ^ (e + 1)) e else []) := by
  rw [millionthsText,millionthsDigit_eq,if_neg (by omega : ¬ e + 1 = 5)]
  rfl

/-- The digits of an integer and the fraction behind it. -/
theorem millionthsText_int (started : Bool) {k : ℕ} (hvalue : value < 10 ^ (k + 7)) :
    millionthsText started value (k + 6) =
      (Decimals.digits (k + 1) (value / 10 ^ 6)).map digitText ++ fractionText (value % 10 ^ 6) := by
  induction k generalizing started value with
  | zero =>
    have hrest : value % 10 ^ 6 < 10 ^ (5 + 1) := Nat.mod_lt _ (by positivity)
    have hdigits : Decimals.digits 1 (value / 10 ^ 6) = [value / 10 ^ 6] := by simp [Decimals.digits]
    rw [millionthsText_succ started value le_rfl,fractionText,hdigits]
    by_cases hr : value % 10 ^ 6 = 0
    · rw [if_pos hr,if_neg (not_or.mpr ⟨not_not.mpr hr,by decide⟩)]
      rfl
    · rw [if_neg hr,if_pos (.inl hr),millionthsText_fraction true le_rfl hrest hr]
      rfl
  | succ k ih =>
    have hmore : floatPrec ≤ 10 ^ (k + 6) :=
      (by decide : floatPrec ≤ 10 ^ 6).trans (Nat.pow_le_pow_right (by norm_num) (by omega))
    have hpow : 10 ^ (k + 7) = 10 ^ 6 * 10 ^ (k + 1) := by
      rw [← pow_add]
      congr 1
      omega
    have hdigit : value / 10 ^ 6 / 10 ^ (k + 1) = value / 10 ^ (k + 7) := by rw [Nat.div_div_eq_div_mul,← hpow]
    have hint : value % 10 ^ (k + 7) / 10 ^ 6 = value / 10 ^ 6 % 10 ^ (k + 1) := by
      rw [hpow,Nat.mod_mul_right_div_self]
    have hfraction : value % 10 ^ (k + 7) % 10 ^ 6 = value % 10 ^ 6 :=
      Nat.mod_mod_of_dvd _ (Dvd.intro _ hpow.symm)
    have hrest : value % 10 ^ (k + 7) < 10 ^ (k + 7) := Nat.mod_lt _ (by positivity)
    have hdigits : Decimals.digits (k + 2) (value / 10 ^ 6) =
        value / 10 ^ (k + 7) :: Decimals.digits (k + 1) (value / 10 ^ 6 % 10 ^ (k + 1)) := by
      rw [Decimals.digits,hdigit]
    rw [Nat.add_right_comm,millionthsText_succ started value (by omega),if_pos (.inr hmore),ih true hrest,hint,
      hfraction,hdigits]
    rfl

theorem numberText_of_length {n k : ℕ} (hn : n ≠ 0) (h : (Nat.digits 10 n).length = k) :
    numberText 10 n = (Decimals.digits k n).map digitText := by
  rw [numberText,if_neg hn,Decimals.digits_eq_reverse h]

theorem valueText_eq_canonical (value : ℕ) : valueText value = canonical value := by
  by_cases h0 : value = 0
  · subst h0
    rfl
  have hlt : value < 10 ^ (Nat.log 10 value + 1) := Nat.lt_pow_succ_log_self (by norm_num) value
  have hle : 10 ^ Nat.log 10 value ≤ value := Nat.pow_log_le_self 10 h0
  rw [valueText,if_neg h0,canonical]
  generalize Nat.log 10 value = e at hlt hle
  rcases lt_trichotomy e 5 with he | rfl | he
  · have hsmall : 10 ^ e < floatPrec / 10 := Nat.pow_lt_pow_right (by norm_num) he
    have hint : value < 10 ^ 6 := hlt.trans_le (Nat.pow_le_pow_right (by norm_num) (by omega))
    have hdigits : Decimals.digits 6 value = List.replicate (5 - e) 0 ++ Decimals.digits (e + 1) value := by
      rw [← Decimals.digits_pad hlt]
      congr 1
      omega
    have hne := Decimals.dropZeros_digits_ne_nil hlt h0
    rw [leadingZeros,if_pos hsmall,millionthsText_fraction _ he.le hlt h0,if_neg he.ne,fractionText,
      Nat.div_eq_of_lt hint,Nat.mod_eq_of_lt hint,if_neg h0,hdigits,Decimals.dropZeros_append hne,List.map_append,
      List.map_replicate]
    rfl
  · have hint : value < 10 ^ 6 := hlt
    rw [millionthsText_fraction _ le_rfl hlt h0,fractionText,Nat.div_eq_of_lt hint,Nat.mod_eq_of_lt hint,if_neg h0]
    rfl
  · obtain ⟨k,rfl⟩ : ∃ k, e = k + 6 := ⟨e - 6,by omega⟩
    have hlarge : ¬ 10 ^ (k + 6) < floatPrec / 10 :=
      not_lt.mpr ((by decide : floatPrec / 10 ≤ 10 ^ 6).trans (Nat.pow_le_pow_right (by norm_num) (by omega)))
    have hpos : value / 10 ^ 6 ≠ 0 :=
      (Nat.div_pos ((Nat.pow_le_pow_right (by norm_num) (by omega : 6 ≤ k + 6)).trans hle) (by norm_num)).ne'
    have hlen : (Nat.digits 10 (value / 10 ^ 6)).length = k + 1 := by
      rw [Nat.length_digits 10 _ (by norm_num) hpos]
      congr 1
      apply Nat.log_eq_of_pow_le_of_lt_pow
      · rw [Nat.le_div_iff_mul_le (by norm_num),← pow_add]
        exact hle
      · rw [Nat.div_lt_iff_lt_mul (by norm_num),← pow_add]
        exact hlt
    rw [leadingZeros,if_neg hlarge,millionthsText_int _ hlt,numberText_of_length hpos hlen]
    rfl

/-- The text is what fits of the canonical one; it is written inside of the buffer and
terminated, and nothing overflows. -/
theorem printed_canonical (encoded : UInt16) {start stop size : ℕ} (hrange : start < stop) (hstop : stop ≤ 999)
    (hsize : 2 ≤ size) {out : List UInt8} (hout : out.length = size) :
    printUint16Range encoded start stop size out =
      .ok ((canonical (encoded.toNat * (stop - start) * 10 ^ 6 / 65535)).take (size - 1) ++
        0 :: out.drop
          (((canonical (encoded.toNat * (stop - start) * 10 ^ 6 / 65535)).take (size - 1)).length + 1)) := by
  have hvalue : encoded.toNat * (stop * floatPrec - start * floatPrec) = encoded.toNat * (stop - start) * 10 ^ 6 := by
    rw [← Nat.sub_mul,Nat.mul_assoc]
    rfl
  subst hout
  rw [printUint16Range_ok encoded hrange hstop hsize,uint16RangeToFloatString_eq _ _ _ hsize,hvalue,
    valueText_eq_canonical]

theorem printed_canonical_half : printUint16Range 32768 0 1 8 [1,2,3,4,5,6,7,8] =
    .ok (ascii "0.50000" ++ [0]) := by
  have hrange : 0 < 1 := by decide
  have hstop : 1 ≤ 999 := by decide
  have hsize : 2 ≤ 8 := by decide
  have hout : ([1,2,3,4,5,6,7,8] : List UInt8).length = 8 := rfl
  rw [printed_canonical 32768 hrange hstop hsize hout]
  decide +kernel

end Printed

section ReadBack

theorem digitText_digit : ∀ d < 10, isDigit (digitText d) = true ∧ (digitText d).toNat - 48 = d := by decide

theorem allDigits_map {ds : List ℕ} (h : ∀ d ∈ ds, d < 10) : AllDigits (ds.map digitText) := by
  intro c hc
  obtain ⟨d,hd,rfl⟩ := List.mem_map.mp hc
  exact (digitText_digit d (h d hd)).1

theorem digitsOf_map {ds : List ℕ} (h : ∀ d ∈ ds, d < 10) : digitsOf (ds.map digitText) = ds := by
  rw [digitsOf,List.map_map]
  conv_rhs => rw [← List.map_id ds]
  exact List.map_congr_left (fun d hd => (digitText_digit d (h d hd)).2)

theorem numberText_digits (n : ℕ) :
    AllDigits (numberText 10 n) ∧ numberText 10 n ≠ [] ∧ decimal (numberText 10 n) = n := by
  by_cases hn : n = 0
  · subst hn
    simp [numberText,AllDigits,isDigit,decimal]
  · have hlt : ∀ d ∈ (Nat.digits 10 n).reverse, d < 10 :=
      fun d hd => Nat.digits_lt_base (by norm_num) (List.mem_reverse.mp hd)
    rw [numberText,if_neg hn]
    refine ⟨allDigits_map hlt,by simpa [Nat.digits_eq_nil_iff_eq_zero] using hn,?_⟩
    rw [decimal_eq_value,digitsOf_map hlt,Decimals.value_eq_ofDigits,List.reverse_reverse,Nat.ofDigits_digits]

/-- The digits behind the dot of a canonical text. -/
def fractionDigits (millionths : ℕ) : List UInt8 :=
  (Decimals.dropZeros (Decimals.digits 6 millionths)).map digitText

/-- The canonical text denotes its number. -/
theorem denotes_canonical (value : ℕ) :
    Denotes (canonical value) (numberText 10 (value / 10 ^ 6)) (fractionDigits (value % 10 ^ 6)) ∧
      millionths (numberText 10 (value / 10 ^ 6)) (fractionDigits (value % 10 ^ 6)) = value := by
  obtain ⟨hint,hne,hdecimal⟩ := numberText_digits (value / 10 ^ 6)
  have hrest : value % 10 ^ 6 < 10 ^ 6 := Nat.mod_lt _ (by positivity)
  have hlt : ∀ d ∈ Decimals.dropZeros (Decimals.digits 6 (value % 10 ^ 6)), d < 10 :=
    fun d hd => Decimals.digits_lt hrest d (Decimals.mem_of_mem_dropZeros hd)
  refine ⟨⟨hint,hne,allDigits_map hlt,?_⟩,?_⟩
  · rw [canonical,fractionText]
    split
    next h0 =>
      left
      rw [fractionDigits,h0,Decimals.dropZeros_digits_zero]
      exact ⟨List.append_nil _,rfl⟩
    next => exact .inr rfl
  · rw [millionths,hdecimal,fractionDigits,digitsOf_map hlt,Decimals.places_dropZeros_digits hrest]
    exact Nat.div_add_mod' value (10 ^ 6)

variable {json chars rest int frac : List UInt8} {t : Token}

/-- A decimal number between zero and one is taken as such. -/
theorem unit_accepted (hat : NumberAt json t chars rest) (htype : t.type = .primitive)
    (hchars : chars = [49] ∨ chars = [48] ∨ ∃ frac, chars = 48 :: 46 :: frac ∧ AllDigits frac) :
    typeFloatBetween0And1 t json = true := by
  have hfraction : ∀ {frac}, AllDigits frac → unitChars true false frac = true := by
    intro frac hfrac
    induction frac with
    | nil => rfl
    | cons c cs ih =>
      have hc := hfrac c List.mem_cons_self
      have hdot := (digit_char c hc).2.2.2.1
      have hrange : (decide (c < 48) || decide (57 < c)) = false := by
        simp only [isDigit,Bool.and_eq_true,decide_eq_true_eq] at hc
        simp [UInt8.not_lt,hc]
      rw [unitChars,if_neg hdot,hrange]
      exact ih (fun d hd => hfrac d (List.mem_cons_of_mem _ hd))
  rw [typeFloatBetween0And1,htype,tokenText_of_number hat]
  rcases hchars with rfl | rfl | ⟨frac,rfl,hfrac⟩
  · rfl
  · rfl
  · exact hfraction hfrac

theorem digit_first (c : UInt8) (h : isDigit c = true) : (c ≠ 45 && (57 < c || c < 48)) = false := by
  simp only [isDigit,Bool.and_eq_true,decide_eq_true_eq] at h
  simpa using fun _ => ⟨h.2,h.1⟩

/-- A decimal number up to 360 is taken for a hue, if there are digits behind its dot. -/
theorem hue_accepted (hat : NumberAt json t chars rest) (htype : t.type = .primitive) (hd : Denotes chars int frac)
    (hdot : chars = int ∨ frac ≠ []) (hint : decimal int < 360 ∨ decimal int = 360 ∧ decimal frac = 0)
    (hfrac : (decimal frac : ℤ) ≤ longMax) : typeFloatBetween0And360 t json = true := by
  have hint360 : decimal int ≤ 360 := by omega
  have hlong : (decimal int : ℤ) ≤ longMax := by
    rw [longMax]
    omega
  obtain ⟨c,cs,hcs⟩ := List.exists_cons_of_ne_nil hd.nonempty
  have hc : isDigit c = true := hd.digits c (by simp [hcs])
  have hminus := (digit_char c hc).2.2.1
  obtain ⟨tail,htext,htail,hbehind⟩ : ∃ tail, json.drop t.start = int ++ tail ∧ DigitsEnd tail ∧
      (chars = int ∨ chars = int ++ 46 :: frac ∧ tail = 46 :: (frac ++ rest)) := by
    rcases hd.text with ⟨rfl,-⟩ | rfl
    · exact ⟨rest,hat.text,hat.ends,.inl rfl⟩
    · refine ⟨46 :: (frac ++ rest),by simpa using hat.text,?_,.inr ⟨rfl,rfl⟩⟩
      rintro c ⟨⟩
      decide
  have hstrtol : strtol json t.start = ⟨decimal int,t.start + int.length,false⟩ := by
    rw [strtol_int htext hd.digits hd.nonempty htail,clipped_of_range (by rw [longMin]; omega) hlong]
  have hfirst : byteAt json t.start = c := byteAt_of_drop (htext.trans (by rw [hcs]; rfl))
  have hstop := hat.stop
  rw [typeFloatBetween0And360,if_neg (not_not.mpr htype)]
  simp only [hstrtol,hfirst,digit_first c hc,Bool.false_eq_true,if_false]
  rcases hbehind with rfl | ⟨rfl,rfl⟩
  · have hend : ((t.start + chars.length : ℕ) : ℤ) = t.stop := by
      rw [hstop]
      push_cast
      rfl
    rw [if_neg (by simp [hend,hminus,hint360]),if_pos hend]
  · have hne : frac ≠ [] := hdot.resolve_left (by simp)
    have hnot : ¬ ((t.start + int.length : ℕ) : ℤ) = t.stop := by
      rw [hstop,List.length_append,List.length_cons]
      omega
    have hdrop : json.drop (t.start + int.length) = 46 :: (frac ++ rest) := by
      rw [← List.drop_drop,htext,List.drop_left]
    have hdrop' : json.drop (t.start + int.length + 1) = frac ++ rest := by
      rw [← List.drop_drop,hdrop]
      rfl
    have hplaces : strtol json (t.start + int.length + 1) =
        ⟨decimal frac,t.start + int.length + 1 + frac.length,false⟩ := by
      rw [strtol_int hdrop' hd.places hne hat.ends,clipped_of_range (by rw [longMin]; omega) hfrac]
    have hend : ((t.start + int.length + 1 + frac.length : ℕ) : ℤ) = t.stop := by
      rw [hstop,List.length_append,List.length_cons]
      push_cast
      ring
    rw [if_neg (by simp [byteAt_of_drop hdrop,hminus,hint360]),if_neg hnot,hplaces]
    have hvalue : decimal int < 360 ∨ decimal frac = 0 := by omega
    simpa [hend] using hvalue

/-- Two divisions that round down lose one at most. -/
theorem share_of_share (n : ℕ) {range : ℕ} (hrange : 65535 < range) :
    n * range / 65535 * 65535 / range = n ∨ n * range / 65535 * 65535 / range + 1 = n := by
  have hpos : 0 < range := by omega
  have hle : n * range / 65535 * 65535 ≤ n * range := Nat.div_mul_le_self _ _
  have hlt : n * range < n * range / 65535 * 65535 + 65535 := by
    have hsplit := Nat.div_add_mod' (n * range) 65535
    have hmod := Nat.mod_lt (n * range) (by norm_num : 0 < 65535)
    omega
  have hupper : n * range / 65535 * 65535 / range ≤ n := by
    rw [Nat.mul_comm n] at hle ⊢
    exact Nat.div_le_of_le_mul hle
  have hlower : n ≤ n * range / 65535 * 65535 / range + 1 := by
    by_contra hnot
    rw [not_le] at hnot
    have hsmall : n * range / 65535 * 65535 < (n * range / 65535 * 65535 / range + 1) * range :=
      Nat.lt_mul_of_div_lt (Nat.lt_succ_self _) hpos
    nlinarith
  omega

section Canonical
variable {value : ℕ}

theorem canonical_read (hat : NumberAt json t (canonical value) rest) (hvalue : value ≤ 999 * 10 ^ 6) (stop : ℕ) :
    floatRangeToUint16 json t 0 stop = (value * 65535 / (stop * 1000000) : ℕ) := by
  obtain ⟨hd,hmillionths⟩ := denotes_canonical value
  obtain ⟨-,-,hint⟩ := numberText_digits (value / 10 ^ 6)
  have hlong : (decimal (numberText 10 (value / 10 ^ 6)) : ℤ) ≤ longMax := by
    rw [hint,longMax]
    omega
  rw [floatRangeToUint16_eq hat hd hlong,hmillionths,Int.tdiv_eq_ediv_of_nonneg (by positivity)]
  push_cast
  rfl

theorem canonical_unit (hat : NumberAt json t (canonical value) rest) (htype : t.type = .primitive)
    (hvalue : value ≤ 10 ^ 6) : typeFloatBetween0And1 t json = true := by
  refine unit_accepted hat htype ?_
  rcases hvalue.lt_or_eq with hlt | rfl
  · obtain ⟨hd,-⟩ := denotes_canonical value
    right
    rw [canonical,fractionText,Nat.div_eq_of_lt hlt,Nat.mod_eq_of_lt hlt]
    split
    next => exact .inl rfl
    next => exact .inr ⟨fractionDigits (value % 10 ^ 6),by rw [Nat.mod_eq_of_lt hlt]; rfl,hd.places⟩
  · left
    rfl

theorem canonical_hue (hat : NumberAt json t (canonical value) rest) (htype : t.type = .primitive)
    (hvalue : value ≤ 360 * 10 ^ 6) : typeFloatBetween0And360 t json = true := by
  obtain ⟨hd,-⟩ := denotes_canonical value
  obtain ⟨-,-,hint⟩ := numberText_digits (value / 10 ^ 6)
  have hrest : value % 10 ^ 6 < 10 ^ 6 := Nat.mod_lt _ (by positivity)
  have hlen : (fractionDigits (value % 10 ^ 6)).length ≤ 6 := by
    rw [fractionDigits,List.length_map]
    exact (Decimals.length_dropZeros_le _).trans (Decimals.length_digits 6 _).le
  have hfrac : decimal (fractionDigits (value % 10 ^ 6)) < 10 ^ 6 :=
    (decimal_lt hd.places).trans_le (Nat.pow_le_pow_right (by norm_num) hlen)
  refine hue_accepted hat htype hd ?_ ?_ (by rw [longMax]; omega)
  · by_cases h0 : value % 10 ^ 6 = 0
    · exact .inl (by rw [canonical,fractionText,if_pos h0,List.append_nil])
    · exact .inr (by simpa [fractionDigits] using Decimals.dropZeros_digits_ne_nil hrest h0)
  · rw [hint]
    rcases (Nat.div_le_of_le_mul (by rwa [Nat.mul_comm]) : value / 10 ^ 6 ≤ 360).lt_or_eq with hlt | heq
    · exact .inl hlt
    · have h0 : value % 10 ^ 6 = 0 := by omega
      exact .inr ⟨heq,by rw [h0]; rfl⟩

end Canonical

/-- A number that is printed and read back is the same or one less, and the text of a share
of one or of 360 is taken for a parameter. -/
theorem read_back_printed (n : UInt16) {stop size : ℕ} (hstop : 1 ≤ stop ∧ stop ≤ 999)
    (hsize : (canonical (n.toNat * stop * 10 ^ 6 / 65535)).length < size) {out : List UInt8}
    (hout : out.length = size) :
    ∃ text, printUint16Range n 0 stop size out = .ok (text ++ 0 :: out.drop (text.length + 1)) ∧
      ∀ {json t rest}, NumberAt json t text rest →
        (floatRangeToUint16 json t 0 stop = n.toNat ∨ floatRangeToUint16 json t 0 stop = n.toNat - 1) ∧
        (stop = 1 → t.type = .primitive → typeFloatBetween0And1 t json = true) ∧
        (stop = 360 → t.type = .primitive → typeFloatBetween0And360 t json = true) := by
  have hn : n.toNat ≤ 65535 := Nat.lt_succ_iff.mp n.toNat_lt
  have hpos : 2 ≤ out.length := by
    have hne := List.length_pos_of_ne_nil (numberText_digits (n.toNat * stop * 10 ^ 6 / 65535 / 10 ^ 6)).2.1
    rw [canonical,List.length_append] at hsize
    omega
  have hshare : n.toNat * stop * 10 ^ 6 / 65535 ≤ stop * 10 ^ 6 := by
    apply Nat.div_le_of_le_mul
    rw [Nat.mul_assoc]
    exact Nat.mul_le_mul_right _ hn
  have hvalue : n.toNat * (stop * floatPrec - 0 * floatPrec) = n.toNat * stop * 10 ^ 6 := by
    rw [Nat.zero_mul,Nat.sub_zero,Nat.mul_assoc]
    rfl
  refine ⟨canonical (n.toNat * stop * 10 ^ 6 / 65535),?_,?_⟩
  · subst hout
    rw [printUint16Range_ok n hstop.1 hstop.2 hpos,uint16RangeToFloatString_eq _ _ _ hpos,hvalue,
      valueText_eq_canonical,List.take_of_length_le (by omega)]
  · intro json t rest hat
    refine ⟨?_,?_,?_⟩
    · have hrange : 65535 < stop * 1000000 := by omega
      have hassoc : n.toNat * stop * 10 ^ 6 = n.toNat * (stop * 1000000) := Nat.mul_assoc _ _ _
      rw [canonical_read hat (hshare.trans (Nat.mul_le_mul_right _ hstop.2)),hassoc]
      rcases share_of_share n.toNat hrange with heq | hless
      · exact .inl (by rw [heq])
      · exact .inr (eq_sub_of_add_eq (by exact_mod_cast hless))
    · rintro rfl htype
      exact canonical_unit hat htype (by simpa using hshare)
    · rintro rfl htype
      exact canonical_hue hat htype hshare

theorem read_back_printed_half : ∃ text, printUint16Range 32768 0 360 16 (List.replicate 16 1) =
    .ok (text ++ 0 :: (List.replicate 16 1).drop (text.length + 1)) ∧
      ∀ {json t rest}, NumberAt json t text rest → t.type = .primitive → typeFloatBetween0And360 t json = true := by
  have hstop : 1 ≤ 360 ∧ 360 ≤ 999 := by decide
  have hsize : (canonical ((32768 : UInt16).toNat * 360 * 10 ^ 6 / 65535)).length < 16 := by decide +kernel
  have hout : (List.replicate 16 (1 : UInt8)).length = 16 := rfl
  obtain ⟨text,hprint,hread⟩ := read_back_printed 32768 hstop hsize hout
  exact ⟨text,hprint,fun hat => (hread hat).2.2 rfl⟩

end ReadBack
end Lightsd.Core.Jsonrpc
