import Lightsd.Core.FloatTexts

/-! # Timestamps

Instants are printed as dates with a time of day and a fraction of a second. The macro that
should turn nanoseconds into microseconds divides them by a million, so the fraction has
milliseconds for microseconds, and it is printed without the zeros that it begins with. What
such a text denotes is read back and compared with the instant.
-/
namespace Lightsd.Core.Jsonrpc

open Lifx Calendar

section Reading

/-- A number of a fixed number of digits, and what is behind it. -/
def readField (width : ℕ) (text : List UInt8) : Option (ℕ × List UInt8) :=
  if (text.take width).length = width ∧ AllDigits (text.take width) then
    some (decimal (text.take width),text.drop width)
  else none

def expect (c : UInt8) : List UInt8 → Option (List UInt8)
  | [] => none
  | d :: text => if d = c then some text else none

/-- The fraction behind the seconds, if there is one. -/
def readFraction (text : List UInt8) : Option (ℚ × List UInt8) :=
  match expect 46 text with
  | none => some (0,text)
  | some text =>
    let ds := text.takeWhile isDigit
    if ds = [] then none else some ((decimal ds : ℚ) / 10 ^ ds.length,text.dropWhile isDigit)

/-- The seconds by which the local time is ahead. -/
def readZone : List UInt8 → Option ℤ
  | [] => none
  | sign :: text => do
    let (hours,text) ← readField 2 text
    let text ← expect 58 text
    let (minutes,text) ← readField 2 text
    if text ≠ [] then none
    else if sign = 43 then some (hours * 3600 + minutes * 60)
    else if sign = 45 then some (-(hours * 3600 + minutes * 60))
    else none

/-- The instant that an ISO 8601 text denotes, in seconds since 1970. -/
def readIsotime (text : List UInt8) : Option ℚ := do
  let (year,text) ← readField 4 text
  let text ← expect 45 text
  let (month,text) ← readField 2 text
  let text ← expect 45 text
  let (day,text) ← readField 2 text
  let text ← expect 84 text
  let (hour,text) ← readField 2 text
  let text ← expect 58 text
  let (min,text) ← readField 2 text
  let text ← expect 58 text
  let (sec,text) ← readField 2 text
  let (fraction,text) ← readFraction text
  let ahead ← readZone text
  if 1970 ≤ year ∧ 1 ≤ month ∧ month ≤ 12 ∧ 1 ≤ day ∧ day ≤ monthLength year (month - 1) ∧
      hour < 24 ∧ min < 60 ∧
      sec < 60 then
    some (dayNumber 1970 ⟨year,month - 1,day - 1⟩ * 86400 + hour * 3600 + min * 60 + sec - ahead + fraction)
  else none

end Reading

section ReadBack

theorem readField_append {field rest : List UInt8} {width : ℕ} (hlen : field.length = width)
    (hdigits : AllDigits field) : readField width (field ++ rest) = some (decimal field,rest) := by
  subst hlen
  simp [readField,hdigits]

theorem expect_cons (c : UInt8) (text : List UInt8) : expect c (c :: text) = some text := if_pos rfl

theorem length_numberText {n : ℕ} (h : n ≠ 0) : (numberText 10 n).length = Nat.log 10 n + 1 := by
  rw [numberText,if_neg h,List.length_map,List.length_reverse,Nat.length_digits 10 n (by norm_num) h]

theorem length_numberText_le {n : ℕ} (h : n < 100) : (numberText 10 n).length ≤ 2 := by
  by_cases hn : n = 0
  · simp [hn,numberText]
  · rw [length_numberText hn]
    exact Nat.log_lt_of_lt_pow hn h

theorem decimal_zeros_append (k : ℕ) (text : List UInt8) : decimal (List.replicate k 48 ++ text) = decimal text := by
  induction k with
  | zero => rfl
  | succ k ih => exact ih

theorem paddedText_two {n : ℕ} (h : n < 100) :
    (paddedText 2 n).length = 2 ∧ AllDigits (paddedText 2 n) ∧ decimal (paddedText 2 n) = n := by
  obtain ⟨hdigits,-,hvalue⟩ := numberText_digits n
  have hlen := length_numberText_le h
  refine ⟨by simp [paddedText,hlen],?_,(decimal_zeros_append _ _).trans hvalue⟩
  intro c hc
  rcases List.mem_append.mp hc with hc | hc
  · rw [List.eq_of_mem_replicate hc]
    decide
  · exact hdigits c hc

theorem readField_two {n : ℕ} (h : n < 100) (rest : List UInt8) :
    readField 2 (paddedText 2 n ++ rest) = some (n,rest) := by
  obtain ⟨hlen,hdigits,hvalue⟩ := paddedText_two h
  rw [readField_append hlen hdigits,hvalue]

theorem readField_year {y : ℕ} (hlow : 1000 ≤ y) (hhigh : y < 10000) (rest : List UInt8) :
    readField 4 (numberText 10 y ++ rest) = some (y,rest) := by
  obtain ⟨hdigits,-,hvalue⟩ := numberText_digits y
  have hlog : Nat.log 10 y = 3 := Nat.log_eq_of_pow_le_of_lt_pow hlow hhigh
  have hlen : (numberText 10 y).length = 4 := by rw [length_numberText (by omega),hlog]
  rw [readField_append hlen hdigits,hvalue]

theorem paddedInt_natCast (n : ℕ) : paddedInt 0 n = numberText 10 n := by
  simp [paddedInt,paddedText]

/-- The fraction that the text of a number of some unit is taken for. -/
def fractionValue (usec : ℕ) : ℚ := if usec = 0 then 0 else (usec : ℚ) / 10 ^ (numberText 10 usec).length

theorem readFraction_text (usec : ℕ) :
    readFraction ((if (usec : ℤ) ≠ 0 then 46 :: paddedInt 0 usec else []) ++ zoneText 0) =
      some (fractionValue usec,zoneText 0) := by
  by_cases h : usec = 0
  · subst h
    have hzone : expect 46 (zoneText 0) = none := by decide +kernel
    simp [readFraction,fractionValue,hzone]
  · obtain ⟨hdigits,hne,hvalue⟩ := numberText_digits usec
    have hend : DigitsEnd (zoneText 0) := by
      rintro c ⟨⟩
      decide
    have htake : (numberText 10 usec ++ zoneText 0).takeWhile isDigit = numberText 10 usec :=
      takeWhile_append_eq hdigits hend
    have hdrop : (numberText 10 usec ++ zoneText 0).dropWhile isDigit = zoneText 0 := by
      have hsplit := List.takeWhile_append_dropWhile (p := isDigit) (l := numberText 10 usec ++ zoneText 0)
      rw [htake] at hsplit
      exact List.append_cancel_left hsplit
    have hint : (usec : ℤ) ≠ 0 := by omega
    rw [if_pos hint,paddedInt_natCast,List.cons_append,readFraction,expect_cons]
    simp only [htake,hdrop,if_neg hne,hvalue,fractionValue,if_neg h]

theorem readZone_utc : readZone (zoneText 0) = some 0 := by decide +kernel

/-- The fields of a date and a time of day are read back. -/
theorem readIsotime_fields {date : Date} (hvalid : date.Valid 1970) (hyear : date.year < 10000) {hour min sec : ℕ}
    (hhour : hour < 24) (hmin : min < 60) (hsec : sec < 60) (usec : ℕ) :
    readIsotime (tmToIsotime ⟨date.year - 1900,date.month,date.day + 1,hour,min,sec,0⟩ usec) =
      some (dayNumber 1970 date * 86400 + hour * 3600 + min * 60 + sec + fractionValue usec) := by
  obtain ⟨hepoch,hmonth,hday⟩ := hvalid
  have hmonths := monthLength_le date.year date.month
  have hcentury : 1900 + (date.year - 1900) = date.year := by omega
  have hrange : 1970 ≤ date.year ∧ 1 ≤ 1 + date.month ∧ 1 + date.month ≤ 12 ∧ 1 ≤ date.day + 1 ∧
      date.day + 1 ≤ monthLength date.year date.month ∧ hour < 24 ∧ min < 60 ∧ sec < 60 := by
    omega
  simp only [tmToIsotime,readIsotime,hcentury,readField_year (by omega : 1000 ≤ date.year) hyear,
    readField_two (by omega : 1 + date.month < 100),readField_two (by omega : date.day + 1 < 100),
    readField_two (by omega : hour < 100),readField_two (by omega : min < 100),readField_two (by omega : sec < 100),
    expect_cons,readFraction_text,readZone_utc,bind,Option.bind,Nat.add_sub_cancel_left,Nat.add_sub_cancel,
    Int.cast_zero,sub_zero]
  exact if_pos hrange

/-- What the text of an instant denotes, if four digits are enough for its year. -/
theorem readIsotime_gmtime {secs : ℕ} (hfar : secs / 86400 / 365 < 8000) (usec : ℕ) :
    readIsotime (tmToIsotime (gmtime secs) usec) = some (secs + fractionValue usec) := by
  obtain ⟨hvalid,hyear⟩ := dateOf_valid 1970 (secs / 86400)
  have hread := readIsotime_fields hvalid (by omega) (by omega : secs % 86400 / 3600 < 24)
    (by omega : secs % 3600 / 60 < 60) (by omega : secs % 60 < 60) usec
  have hsecs : dayNumber 1970 (dateOf 1970 (secs / 86400)) * 86400 + secs % 86400 / 3600 * 3600 +
      secs % 3600 / 60 * 60 + secs % 60 = secs := by
    rw [dayNumber_dateOf]
    omega
  refine hread.trans (congrArg some (congrArg (· + fractionValue usec) ?_))
  exact_mod_cast hsecs

end ReadBack

section Denotation

theorem length_numberText_small {n k : ℕ} (hlow : 10 ^ k ≤ n) (hhigh : n < 10 ^ (k + 1)) :
    (numberText 10 n).length = k + 1 := by
  have hpos : 0 < 10 ^ k := by positivity
  rw [length_numberText (by omega),Nat.log_eq_of_pow_le_of_lt_pow hlow hhigh]

/-- When the milliseconds without their first zeros are taken for the right fraction. -/
theorem fractionValue_eq_iff {us : ℕ} (hus : us < 1000000) :
    fractionValue (us / 1000) = (us : ℚ) / 10 ^ 6 ↔ us = 0 ∨ 100000 ≤ us ∧ us % 1000 = 0 := by
  by_cases hzero : us / 1000 = 0
  · rw [fractionValue,if_pos hzero,eq_comm,div_eq_zero_iff]
    simp only [Nat.cast_eq_zero,pow_eq_zero_iff,OfNat.ofNat_ne_zero,or_false,ne_eq,not_false_eq_true]
    omega
  · have hscale : ∀ k, (numberText 10 (us / 1000)).length = k →
        (fractionValue (us / 1000) = (us : ℚ) / 10 ^ 6 ↔ us / 1000 * 10 ^ 6 = us * 10 ^ k) := by
      intro k hk
      rw [fractionValue,if_neg hzero,hk,div_eq_div_iff (by positivity) (by positivity)]
      norm_cast
    rcases lt_or_ge (us / 1000) 10 with hone | hten
    · rw [hscale 1 (length_numberText_small (by omega) (by omega))]
      omega
    · rcases lt_or_ge (us / 1000) 100 with htwo | hhundred
      · rw [hscale 2 (length_numberText_small (by omega) (by omega))]
        omega
      · rw [hscale 3 (length_numberText_small (by omega) (by omega))]
        omega

theorem length_fraction {usec : ℕ} (husec : usec < 1000) :
    (if (usec : ℤ) ≠ 0 then 46 :: paddedInt 0 usec else []).length ≤ 4 := by
  split
  next hne =>
    have hlog : Nat.log 10 usec < 3 := Nat.log_lt_of_lt_pow (by omega) husec
    rw [paddedInt_natCast,List.length_cons,length_numberText (by omega)]
    omega
  next => exact Nat.zero_le _

theorem length_fields {date : Date} (hvalid : date.Valid 1970) (hyear : date.year < 10000) {hour min sec : ℕ}
    (hhour : hour < 24) (hmin : min < 60) (hsec : sec < 60) {usec : ℕ} (husec : usec < 1000) :
    (tmToIsotime ⟨date.year - 1900,date.month,date.day + 1,hour,min,sec,0⟩ usec).length ≤ 63 := by
  obtain ⟨hepoch,hmonth,hday⟩ := hvalid
  have hmonths := monthLength_le date.year date.month
  have htwo : ∀ n, n < 100 → (paddedText 2 n).length = 2 := fun n hn => (paddedText_two hn).1
  have hfour : (numberText 10 (1900 + (date.year - 1900))).length = 4 :=
    length_numberText_small (by omega) (by omega)
  have hzone : (zoneText 0).length = 6 := by decide +kernel
  have hfraction := length_fraction husec
  simp only [tmToIsotime,List.length_append,List.length_cons,hfour,hzone,htwo (1 + date.month) (by omega),
    htwo (date.day + 1) (by omega),htwo hour (by omega),htwo min (by omega),htwo sec (by omega)]
  omega

/-- A text fits a buffer of 64 bytes. -/
theorem length_tmToIsotime {secs usec : ℕ} (hfar : secs / 86400 / 365 < 8000) (husec : usec < 1000) :
    (tmToIsotime (gmtime secs) usec).length ≤ 63 := by
  obtain ⟨hvalid,hyear⟩ := dateOf_valid 1970 (secs / 86400)
  exact length_fields hvalid (by omega) (by omega : secs % 86400 / 3600 < 24) (by omega : secs % 3600 / 60 < 60)
    (by omega : secs % 60 < 60) husec

/-- The instants for which the seconds can be turned into nanoseconds again, and that are at
the start of a second or at a whole number of milliseconds with three digits. -/
def PrintedExactly (nsecTs : UInt64) : Prop :=
  nsecTs.toNat / 1000000000 * 1000000000 < 2 ^ 63 ∧
    (nsecTs.toNat / 1000 % 1000000 = 0 ∨
      100000 ≤ nsecTs.toNat / 1000 % 1000000 ∧ nsecTs.toNat / 1000 % 1000 = 0)

theorem printNsecTimestamp_ok {nsecTs : UInt64} (hfits : nsecTs.toNat / 1000000000 * 1000000000 < 2 ^ 63) :
    printNsecTimestamp nsecTs 64 =
      .ok (tmToIsotime (gmtime (nsecTs.toNat / 1000000000)) (nsecTs.toNat / 1000 % 1000000 / 1000 : ℕ)) := by
  have hlt := nsecTs.toNat_lt
  have hfar : nsecTs.toNat / 1000000000 / 86400 / 365 < 8000 := by omega
  have hmillis : nsecsToUsecs (nsecTs.toNat - nsecTs.toNat / 1000000000 * 1000000000) =
      nsecTs.toNat / 1000 % 1000000 / 1000 := by
    rw [nsecsToUsecs]
    omega
  unfold printNsecTimestamp nsecsToSecs
  rw [if_pos hfits,hmillis,List.take_of_length_le (length_tmToIsotime hfar (by omega))]

theorem printNsecTimestamp_overflow {nsecTs : UInt64}
    (hover : ¬ nsecTs.toNat / 1000000000 * 1000000000 < 2 ^ 63) :
    printNsecTimestamp nsecTs 64 = .error .overflow :=
  if_neg hover

/-- What the printed text denotes: the whole seconds and the fraction that its milliseconds
are taken for. -/
theorem readIsotime_printed (nsecTs : UInt64) :
    readIsotime (tmToIsotime (gmtime (nsecTs.toNat / 1000000000)) (nsecTs.toNat / 1000 % 1000000 / 1000 : ℕ)) =
      some ((nsecTs.toNat / 1000000000 : ℕ) + fractionValue (nsecTs.toNat / 1000 % 1000000 / 1000)) := by
  have hlt := nsecTs.toNat_lt
  exact readIsotime_gmtime (by omega) _

/-- The printed text denotes the instant, up to the microsecond, for no other instants. -/
theorem printed_exactly_iff (nsecTs : UInt64) :
    (∃ text, printNsecTimestamp nsecTs 64 = .ok text ∧
      readIsotime text = some (((nsecTs.toNat / 1000 : ℕ) : ℚ) / 10 ^ 6)) ↔ PrintedExactly nsecTs := by
  have hsplit : ((nsecTs.toNat / 1000 : ℕ) : ℚ) / 10 ^ 6 =
      (nsecTs.toNat / 1000000000 : ℕ) + ((nsecTs.toNat / 1000 % 1000000 : ℕ) : ℚ) / 10 ^ 6 := by
    have hparts : nsecTs.toNat / 1000 = nsecTs.toNat / 1000000000 * 10 ^ 6 + nsecTs.toNat / 1000 % 1000000 := by
      omega
    rw [eq_comm,eq_div_iff (by positivity),add_mul,div_mul_cancel₀ _ (by positivity)]
    exact_mod_cast hparts.symm
  have hfraction := fractionValue_eq_iff (Nat.mod_lt (nsecTs.toNat / 1000) (by norm_num : 0 < 1000000))
  have hmod : nsecTs.toNat / 1000 % 1000000 % 1000 = nsecTs.toNat / 1000 % 1000 := by omega
  rw [hmod] at hfraction
  rw [PrintedExactly,← hfraction]
  by_cases hfits : nsecTs.toNat / 1000000000 * 1000000000 < 2 ^ 63
  · rw [printNsecTimestamp_ok hfits,hsplit]
    simp only [Except.ok.injEq,exists_eq_left',readIsotime_printed,Option.some.injEq,add_right_inj]
    exact (and_iff_right hfits).symm
  · rw [printNsecTimestamp_overflow hfits]
    constructor
    · rintro ⟨text,htext,-⟩
      cases htext
    · rintro ⟨hbelow,-⟩
      exact absurd hbelow hfits

/-- The text of an instant denotes it, up to the microsecond, exactly for the instants that
are printed exactly; among these, later microseconds have other texts, for later instants. -/
theorem timestamp_denoted_iff (nsecTs : UInt64) :
    ((∃ text, printNsecTimestamp nsecTs 64 = .ok text ∧
      readIsotime text = some (((nsecTs.toNat / 1000 : ℕ) : ℚ) / 10 ^ 6)) ↔ PrintedExactly nsecTs) ∧
    ∀ nsecTs' : UInt64, PrintedExactly nsecTs → PrintedExactly nsecTs' →
      nsecTs.toNat / 1000 < nsecTs'.toNat / 1000 →
      ∃ text text' q q', printNsecTimestamp nsecTs 64 = .ok text ∧ printNsecTimestamp nsecTs' 64 = .ok text' ∧
        text ≠ text' ∧ readIsotime text = some q ∧ readIsotime text' = some q' ∧ q < q' := by
  refine ⟨printed_exactly_iff nsecTs,fun nsecTs' h h' hlt => ?_⟩
  obtain ⟨text,hprinted,hread⟩ := (printed_exactly_iff nsecTs).mpr h
  obtain ⟨text',hprinted',hread'⟩ := (printed_exactly_iff nsecTs').mpr h'
  have hq : ((nsecTs.toNat / 1000 : ℕ) : ℚ) / 10 ^ 6 < ((nsecTs'.toNat / 1000 : ℕ) : ℚ) / 10 ^ 6 := by
    have hcast : ((nsecTs.toNat / 1000 : ℕ) : ℚ) < (nsecTs'.toNat / 1000 : ℕ) := by exact_mod_cast hlt
    gcongr
  refine ⟨text,text',_,_,hprinted,hprinted',?_,hread,hread',hq⟩
  rintro rfl
  rw [hread] at hread'
  exact hq.ne (Option.some.inj hread')

theorem timestamp_denoted_iff_second :
    ∃ text text' q q', printNsecTimestamp 1420193596132000000 64 = .ok text ∧
      printNsecTimestamp 1420193597000000000 64 = .ok text' ∧ text ≠ text' ∧ readIsotime text = some q ∧
      readIsotime text' = some q' ∧ q < q' :=
  (timestamp_denoted_iff 1420193596132000000).2 1420193597000000000 ⟨by decide +kernel,by decide +kernel⟩
    ⟨by decide +kernel,by decide +kernel⟩ (by decide +kernel)

/-- The instant that the source gives as a model loses three of its six digits, and five
milliseconds are printed as half a second. -/
theorem fraction_misprinted :
    (printNsecTimestamp 1420193596132222000 64 = .ok (ascii "2015-01-02T10:13:16.132+00:00") ∧
      readIsotime (ascii "2015-01-02T10:13:16.132+00:00") ≠ some (1420193596132222 / 10 ^ 6)) ∧
    printNsecTimestamp 1420193596005000000 64 = .ok (ascii "2015-01-02T10:13:16.5+00:00") ∧
      readIsotime (ascii "2015-01-02T10:13:16.5+00:00") = some (14201935965 / 10) := by
  decide +kernel

end Denotation

end Lightsd.Core.Jsonrpc
