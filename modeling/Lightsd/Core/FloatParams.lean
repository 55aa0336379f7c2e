import Lightsd.Core.JsonHandlers
import Lightsd.Core.NumberTexts

/-! # The encoding of fractions

Numbers of a range are checked on the characters of a token, and converted to the share
that they have of the range in sixteen bits. For those between zero and one the check
leaves only decimal numbers, and the conversion is exact and keeps their order. For hues
the fraction is checked with a function that takes a sign, while the conversion takes the
sign for a digit.
-/
namespace Lightsd.Core.Jsonrpc

open Jsmn Json

variable {json chars rest int frac : List UInt8} {t : Token}

theorem decimal_cons (c : UInt8) (cs : List UInt8) :
    decimal (c :: cs) = (c.toNat - 48) * 10 ^ cs.length + decimal cs := by
  rw [decimal_eq_value,decimal_eq_value,digitsOf,List.map_cons,Decimals.value_cons,List.length_map]
  rfl

theorem decimal_lt (h : AllDigits frac) : decimal frac < 10 ^ frac.length := by
  have hlt := Decimals.value_lt (digitsOf_lt h)
  rwa [← decimal_eq_value,digitsOf,List.length_map] at hlt

theorem decimal_zeros (h : ∀ c ∈ frac, c = 48) : decimal frac = 0 := by
  induction frac with
  | nil => rfl
  | cons c cs ih =>
    rw [decimal_cons,h c List.mem_cons_self,ih (fun d hd => h d (List.mem_cons_of_mem _ hd))]
    simp

/-- A number is less than the next one in front of its dot. -/
theorem millionths_lt (h : AllDigits frac) : millionths int frac < (decimal int + 1) * 10 ^ 6 := by
  have hlt := Decimals.places_lt (digitsOf_lt h) 6
  rw [millionths]
  omega

theorem millionths_of_zero (h : AllDigits frac) (h0 : decimal frac = 0) :
    millionths int frac = decimal int * 10 ^ 6 := by
  rw [decimal_eq_value] at h0
  rw [millionths,Decimals.places_eq_zero h0 (digitsOf_lt h),Nat.add_zero]

theorem millionths_le {bound : ℕ} (h : AllDigits frac)
    (hint : decimal int < bound ∨ decimal int = bound ∧ decimal frac = 0) :
    millionths int frac ≤ bound * 10 ^ 6 := by
  rcases hint with hlt | ⟨heq,h0⟩
  · have hnext : (decimal int + 1) * 10 ^ 6 ≤ bound * 10 ^ 6 := Nat.mul_le_mul_right _ hlt
    exact (millionths_lt h).le.trans hnext
  · rw [millionths_of_zero h h0,heq]

/-- The encoding of a number that is not above the end of its range. -/
theorem encoded_of_denotes {bound : ℕ} (hat : NumberAt json t chars rest) (hd : Denotes chars int frac)
    (hint : decimal int < bound ∨ decimal int = bound ∧ decimal frac = 0) (hbound : bound ≤ 1000) :
    floatRangeToUint16 json t 0 bound = (millionths int frac * 65535 / (bound * 1000000) : ℕ) ∧
      millionths int frac * 65535 / (bound * 1000000) ≤ 65535 := by
  have hle : (decimal int : ℤ) ≤ longMax := by
    rw [longMax]
    omega
  refine ⟨?_,?_⟩
  · rw [floatRangeToUint16_eq hat hd hle,Int.tdiv_eq_ediv_of_nonneg (by positivity)]
    push_cast
    rfl
  · have hv := millionths_le hd.places hint
    apply Nat.div_le_of_le_mul
    nlinarith

/-- A text denotes one number only. -/
theorem Denotes.unique {int' frac' : List UInt8} (h : Denotes chars int frac) (h' : Denotes chars int' frac') :
    int = int' ∧ frac = frac' := by
  have hsplit : ∀ {as bs}, Denotes chars as bs → as = chars.takeWhile isDigit ∧ bs = chars.drop (as.length + 1) := by
    intro as bs hd
    rcases hd.text with ⟨rfl,rfl⟩ | rfl
    · refine ⟨(List.takeWhile_eq_self_iff.mpr hd.digits).symm,?_⟩
      rw [List.drop_eq_nil_of_le (Nat.le_succ _)]
    · refine ⟨(takeWhile_append_eq hd.digits ?_).symm,?_⟩
      · rintro c ⟨⟩
        decide
      · rw [← List.drop_drop,List.drop_left]
        rfl
  obtain ⟨hint,hfrac⟩ := hsplit h
  obtain ⟨hint',hfrac'⟩ := hsplit h'
  obtain rfl : int = int' := hint.trans hint'.symm
  exact ⟨rfl,hfrac.trans hfrac'.symm⟩

theorem encoded_of_isDecimal {bound : ℕ} {x : ℚ} (hat : NumberAt json t chars rest) (hd : Denotes chars int frac)
    (hint : decimal int < bound ∨ decimal int = bound ∧ decimal frac = 0) (hbound : bound ≤ 1000)
    (hx : IsDecimal chars x) : floatRangeToUint16 json t 0 bound = ⌊x * 1000000⌋ * 65535 / (bound * 1000000) := by
  obtain ⟨int',frac',hd',rfl⟩ := hx
  obtain ⟨rfl,rfl⟩ := hd.unique hd'
  rw [(encoded_of_denotes hat hd hint hbound).1,floor_millionths hd.places]
  push_cast
  rfl

/-- A text that denotes a number up to the end of a range, and its encoding. -/
theorem exists_encoded {bound : ℕ} (hat : NumberAt json t chars rest) (hd : Denotes chars int frac)
    (hint : decimal int < bound ∨ decimal int = bound ∧ decimal frac = 0) (hbound : bound ≤ 1000) :
    ∃ x : ℚ, IsDecimal (tokenText json t) x ∧ 0 ≤ x ∧ x ≤ bound ∧
      floatRangeToUint16 json t 0 bound = ⌊x * 1000000⌋ * 65535 / (bound * 1000000) ∧
      0 ≤ floatRangeToUint16 json t 0 bound ∧ floatRangeToUint16 json t 0 bound ≤ 65535 := by
  have hx : IsDecimal chars (decimal int + decimal frac / 10 ^ frac.length) := ⟨int,frac,hd,rfl⟩
  obtain ⟨hencoded,hle⟩ := encoded_of_denotes hat hd hint hbound
  refine ⟨_,by rwa [tokenText_of_number hat],by positivity,?_,encoded_of_isDecimal hat hd hint hbound hx,?_,?_⟩
  · rcases hint with hlt | ⟨heq,h0⟩
    · have hfrac : (decimal frac : ℚ) / 10 ^ frac.length ≤ 1 := by
        rw [div_le_one (by positivity)]
        exact_mod_cast (decimal_lt hd.places).le
      have hnext : (decimal int : ℚ) + 1 ≤ bound := by exact_mod_cast hlt
      linarith
    · rw [heq,h0]
      simp
  · rw [hencoded]
    positivity
  · rw [hencoded]
    exact_mod_cast hle

section Unit

theorem unitChars_fraction {one : Bool} {cs : List UInt8} (h : unitChars true one cs = true) :
    AllDigits cs ∧ (one = true → ∀ c ∈ cs, c = 48) := by
  induction cs with
  | nil => simp [AllDigits]
  | cons c cs ih =>
    rw [unitChars] at h
    simp only [if_true] at h
    split_ifs at h with hdot hrange hone
    · simp at h
    · obtain ⟨hdigits,hzeros⟩ := ih h
      have hc : isDigit c = true := by
        simp only [Bool.or_eq_true,decide_eq_true_eq,not_or,UInt8.not_lt] at hrange
        simp [isDigit,hrange]
      refine ⟨List.forall_mem_cons.mpr ⟨hc,hdigits⟩,fun htrue => List.forall_mem_cons.mpr ⟨?_,hzeros htrue⟩⟩
      simpa [htrue] using hone

/-- The characters in front of the dot, from a state of the loop on. -/
theorem unitChars_text {one : Bool} {cs : List UInt8} (h : unitChars false one cs = true) :
    ∃ int frac, AllDigits int ∧ AllDigits frac ∧ (cs = int ∧ frac = [] ∨ cs = int ++ 46 :: frac) ∧
      (if one then int = [] ∧ decimal frac = 0
        else decimal int < 1 ∨ decimal int = 1 ∧ decimal frac = 0) := by
  induction cs generalizing one with
  | nil =>
    refine ⟨[],[],by simp [AllDigits],by simp [AllDigits],.inl ⟨rfl,rfl⟩,?_⟩
    cases one <;> decide
  | cons c cs ih =>
    rw [unitChars] at h
    simp only [Bool.false_eq_true,if_false] at h
    split_ifs at h with hdot hone h49
    · obtain ⟨hdigits,hzeros⟩ := unitChars_fraction (Bool.and_eq_true_iff.mp h).2
      refine ⟨[],cs,by simp [AllDigits],hdigits,.inr (by rw [hdot]; rfl),?_⟩
      cases one with
      | true => exact ⟨rfl,decimal_zeros (hzeros rfl)⟩
      | false => exact .inl (by decide)
    · obtain ⟨int,frac,hint,hfrac,htext,hvalue⟩ := ih h
      obtain ⟨rfl,h0⟩ := hvalue
      refine ⟨[49],frac,by simp [AllDigits,isDigit],hfrac,?_,?_⟩
      · rw [h49]
        rcases htext with ⟨rfl,rfl⟩ | rfl
        · exact .inl ⟨rfl,rfl⟩
        · exact .inr rfl
      · rw [if_neg hone]
        exact .inr ⟨by decide,h0⟩
    · obtain ⟨h48,hcs⟩ := Bool.and_eq_true_iff.mp h
      obtain ⟨int,frac,hint,hfrac,htext,hvalue⟩ := ih hcs
      rw [decide_eq_true_eq] at h48
      subst h48
      refine ⟨48 :: int,frac,List.forall_mem_cons.mpr ⟨by decide,hint⟩,hfrac,?_,?_⟩
      · rcases htext with ⟨rfl,rfl⟩ | rfl
        · exact .inl ⟨rfl,rfl⟩
        · exact .inr rfl
      · have hsame : decimal (48 :: int) = decimal int := by
          rw [decimal_cons]
          simp
        rw [if_neg hone] at hvalue ⊢
        rw [hsame]
        exact hvalue

/-- The texts that are taken for numbers between zero and one. -/
theorem unit_denotes (hat : PrimitiveAt json t chars rest) (h : typeFloatBetween0And1 t json = true) :
    ∃ int frac, Denotes chars int frac ∧ (decimal int < 1 ∨ decimal int = 1 ∧ decimal frac = 0) := by
  rw [typeFloatBetween0And1,Bool.and_eq_true,tokenText_of_primitive hat] at h
  obtain ⟨int,frac,hint,hfrac,htext,hvalue⟩ := unitChars_text h.2
  refine ⟨int,frac,⟨hint,?_,hfrac,htext⟩,hvalue⟩
  rintro rfl
  have hchars := hat.chars
  rcases htext with ⟨rfl,rfl⟩ | rfl
  · cases hchars
  · exact absurd hchars (by simp [primitiveChars,charKind,isSpace])

variable {p p' : Parser} {numTokens numTokens' : Option ℕ} {json' : List UInt8} {t' : Token}

theorem unit_read (hp : parse json numTokens = .ok p) (ht : t ∈ p.tokens) (h : typeFloatBetween0And1 t json = true) :
    ∃ chars rest int frac, PrimitiveAt json t chars rest ∧ Denotes chars int frac ∧
      (decimal int < 1 ∨ decimal int = 1 ∧ decimal frac = 0) := by
  have htype : t.type = .primitive := by
    rw [typeFloatBetween0And1,Bool.and_eq_true,decide_eq_true_eq] at h
    exact h.1
  obtain ⟨chars,rest,hat⟩ := primitivesIn_parse hp t ht htype
  obtain ⟨int,frac,hd,hint⟩ := unit_denotes hat h
  exact ⟨chars,rest,int,frac,hat,hd,hint⟩

/-- The encoding keeps the order of the numbers. -/
theorem unit_ordered (hp : parse json numTokens = .ok p) (ht : t ∈ p.tokens) (h : typeFloatBetween0And1 t json = true)
    (hp' : parse json' numTokens' = .ok p') (ht' : t' ∈ p'.tokens) (h' : typeFloatBetween0And1 t' json' = true)
    {x y : ℚ} (hx : IsDecimal (tokenText json t) x) (hy : IsDecimal (tokenText json' t') y) (hxy : x ≤ y) :
    floatRangeToUint16 json t 0 1 ≤ floatRangeToUint16 json' t' 0 1 := by
  obtain ⟨chars,rest,int,frac,hat,hd,hint⟩ := unit_read hp ht h
  obtain ⟨chars',rest',int',frac',hat',hd',hint'⟩ := unit_read hp' ht' h'
  rw [tokenText_of_primitive hat] at hx
  rw [tokenText_of_primitive hat'] at hy
  have hencoded := encoded_of_isDecimal (numberAt_of_primitive hat) hd hint (by norm_num) hx
  have hencoded' := encoded_of_isDecimal (numberAt_of_primitive hat') hd' hint' (by norm_num) hy
  have hfloor : ⌊x * 1000000⌋ ≤ ⌊y * 1000000⌋ := Int.floor_le_floor (by linarith)
  rw [Nat.cast_one] at hencoded hencoded'
  rw [hencoded,hencoded']
  exact Int.ediv_le_ediv (by norm_num) (by linarith)

/-- Every token that is taken for a number between zero and one denotes such a number and
is encoded exactly, in the order of the numbers. -/
theorem unit_values_encoded (hp : parse json numTokens = .ok p) (ht : t ∈ p.tokens)
    (h : typeFloatBetween0And1 t json = true) :
    (∃ x : ℚ, IsDecimal (tokenText json t) x ∧ 0 ≤ x ∧ x ≤ 1 ∧
      floatRangeToUint16 json t 0 1 = ⌊x * 1000000⌋ * 65535 / 1000000 ∧
      0 ≤ floatRangeToUint16 json t 0 1 ∧ floatRangeToUint16 json t 0 1 ≤ 65535) ∧
    ∀ {json' numTokens' p' t'}, parse json' numTokens' = .ok p' → t' ∈ p'.tokens →
      typeFloatBetween0And1 t' json' = true → ∀ x y : ℚ, IsDecimal (tokenText json t) x →
      IsDecimal (tokenText json' t') y → x ≤ y → floatRangeToUint16 json t 0 1 ≤ floatRangeToUint16 json' t' 0 1 := by
  obtain ⟨chars,rest,int,frac,hat,hd,hint⟩ := unit_read hp ht h
  refine ⟨by simpa using exists_encoded (numberAt_of_primitive hat) hd hint (by norm_num),?_⟩
  exact fun hp' ht' h' x y => unit_ordered hp ht h hp' ht' h'

theorem unit_values_encoded_tenth :
    ∃ x : ℚ, IsDecimal (tokenText (ascii "[0.1]") ⟨.primitive,1,4,0⟩) x ∧ 0 ≤ x ∧ x ≤ 1 ∧
      floatRangeToUint16 (ascii "[0.1]") ⟨.primitive,1,4,0⟩ 0 1 = ⌊x * 1000000⌋ * 65535 / 1000000 ∧
      0 ≤ floatRangeToUint16 (ascii "[0.1]") ⟨.primitive,1,4,0⟩ 0 1 ∧
      floatRangeToUint16 (ascii "[0.1]") ⟨.primitive,1,4,0⟩ 0 1 ≤ 65535 := by
  have hp : parse (ascii "[0.1]") (some 2) =
      .ok ⟨[⟨.array,0,5,1⟩,⟨.primitive,1,4,0⟩],[none,some 0],none,2⟩ := by decide +kernel
  exact (unit_values_encoded hp (by decide) (by decide +kernel)).1

end Unit

section Hue

/-- There is a sign behind a dot. -/
def SignBehindDot (text : List UInt8) : Prop :=
  ∃ before sign after, text = before ++ 46 :: sign :: after ∧ (sign = 43 ∨ sign = 45)

theorem not_signBehindDot (h : Denotes chars int frac) : ¬ SignBehindDot chars := by
  rintro ⟨before,sign,after,htext,hsign⟩
  have hmem : sign ∈ chars := by
    rw [htext]
    simp
  have hdigits : isDigit sign = true ∨ sign = 46 := by
    rcases h.text with ⟨rfl,-⟩ | rfl
    · exact .inl (h.digits sign hmem)
    · rcases List.mem_append.mp hmem with hmem | hmem
      · exact .inl (h.digits sign hmem)
      · rcases List.mem_cons.mp hmem with hmem | hmem
        · exact .inr hmem
        · exact .inl (h.places sign hmem)
  rcases hsign with rfl | rfl <;> exact absurd hdigits (by decide)

theorem visible_char {c : UInt8} (h : (c ≠ 0 && !endsPrimitive c && !(c < 32 || 127 ≤ c)) = true) :
    isCSpace c = false := by
  revert h
  revert c
  decide +kernel

theorem first_char : ∀ c : UInt8, charKind c = .primitive → isCSpace c = false ∧ c ≠ 43 ∧ c ≠ 46 := by
  decide +kernel

/-- No character of a primitive is a blank. -/
theorem not_isCSpace (hat : PrimitiveAt json t chars rest) : ∀ c ∈ chars, isCSpace c = false := by
  have hchars := hat.chars
  cases chars with
  | nil => cases hchars
  | cons c cs =>
    rw [primitiveChars,Bool.and_eq_true,decide_eq_true_eq,List.all_eq_true] at hchars
    exact List.forall_mem_cons.mpr ⟨(first_char c hchars.1).1,fun d hd => visible_char (hchars.2 d hd)⟩

/-- What is checked of a hue. -/
structure HueChecks (json : List UInt8) (t : Token) (int frac : Strtol) : Prop where
  dot : (int.stop : ℤ) = t.stop ∨ byteAt json int.stop = 46
  erange : int.erange = false
  nonneg : 0 ≤ int.value
  le : int.value ≤ 360
  unsigned : ¬ (int.value = 0 ∧ byteAt json t.start = 45)
  frac : (int.stop : ℤ) = t.stop ∨ (frac.stop : ℤ) = t.stop ∧ frac.erange = false ∧ (int.value < 360 ∨ frac.value = 0)

theorem hueChecks_of_accepted (h : typeFloatBetween0And360 t json = true) :
    HueChecks json t (strtol json t.start) (strtol json ((strtol json t.start).stop + 1)) := by
  rw [typeFloatBetween0And360] at h
  split at h
  · cases h
  · dsimp only at h
    split at h
    · cases h
    · split at h
      · cases h
      next hchecks =>
        simp only [Bool.or_eq_true,Bool.and_eq_true,decide_eq_true_eq,not_or,not_and,not_lt,ne_eq,
          not_not,Bool.not_eq_true] at hchecks
        obtain ⟨⟨⟨⟨hdot,herange⟩,hnonneg⟩,hle⟩,hsign⟩ := hchecks
        refine ⟨?_,herange,hnonneg,hle,fun hboth => hsign hboth.1 hboth.2,?_⟩
        · exact Decidable.or_iff_not_imp_left.mpr hdot
        · split at h
          next hstop => exact .inl hstop
          next =>
            simp only [Bool.and_eq_true,Bool.or_eq_true,decide_eq_true_eq,Bool.not_eq_true'] at h
            exact .inr ⟨h.1.1.1,h.1.1.2,h.2⟩

theorem hue_text_of_digits {ds more : List UInt8} (hat : PrimitiveAt json t (ds ++ more) rest) (hds : AllDigits ds)
    (hne : ds ≠ []) (hchecks : HueChecks json t ⟨decimal ds,t.start + ds.length,false⟩
      (strtol json (t.start + ds.length + 1))) :
    SignBehindDot (ds ++ more) ∨ ∃ int frac, Denotes (ds ++ more) int frac ∧
      (decimal int < 360 ∨ decimal int = 360 ∧ decimal frac = 0) := by
  have hle : decimal ds ≤ 360 := Int.ofNat_le.mp hchecks.le
  have hstop := hat.stop
  have hempty : AllDigits [] := fun c hc => absurd hc List.not_mem_nil
  have hends : ∀ frac, decimal frac = 0 → (decimal ds < 360 ∨ decimal ds = 360 ∧ decimal frac = 0) :=
    fun frac h0 => hle.lt_or_eq.imp_right (fun heq => ⟨heq,h0⟩)
  cases more with
  | nil =>
    rw [List.append_nil]
    exact .inr ⟨ds,[],⟨hds,hne,hempty,.inl ⟨rfl,rfl⟩⟩,hends [] rfl⟩
  | cons m ms =>
    rw [List.length_append,List.length_cons] at hstop
    have hbefore : ¬ ((t.start + ds.length : ℕ) : ℤ) = t.stop := by omega
    have hbehind : json.drop (t.start + ds.length) = m :: (ms ++ rest) := by
      rw [← List.drop_drop,hat.text,List.append_assoc,List.drop_left]
      rfl
    have hfrac : json.drop (t.start + ds.length + 1) = ms ++ rest := by
      rw [← List.drop_drop,hbehind]
      rfl
    obtain rfl : m = 46 := (byteAt_of_drop hbehind).symm.trans (hchecks.dot.resolve_left hbefore)
    obtain ⟨hfstop,hferange,hfvalue⟩ := hchecks.frac.resolve_left hbefore
    cases ms with
    | nil => exact .inr ⟨ds,[],⟨hds,hne,hempty,.inr rfl⟩,hends [] rfl⟩
    | cons x xs =>
      have hblank : isCSpace x = false := not_isCSpace hat x (by simp)
      have hwhole : (strtol json (t.start + ds.length + 1)).stop = t.start + ds.length + 1 + (x :: xs).length := by
        omega
      obtain ⟨sign,es,htext,hsign,hes,-,heq⟩ := strtol_whole hfrac hblank hat.ends hwhole
      rcases hsign with rfl | rfl | rfl
      · rw [heq] at hferange hfvalue
        rw [clipped_fits hferange] at hfvalue
        obtain rfl : x :: xs = es := htext
        refine .inr ⟨ds,x :: xs,⟨hds,hne,hes,.inr rfl⟩,?_⟩
        have hzero : (signed [] (x :: xs)) = decimal (x :: xs) := rfl
        dsimp only at hfvalue
        omega
      · exact .inl ⟨ds,43,es,by rw [htext]; rfl,.inl rfl⟩
      · exact .inl ⟨ds,45,es,by rw [htext]; rfl,.inr rfl⟩

/-- The texts that are taken for hues. -/
theorem hue_text (hat : PrimitiveAt json t chars rest) (h : typeFloatBetween0And360 t json = true) :
    SignBehindDot chars ∨ ∃ int frac, Denotes chars int frac ∧
      (decimal int < 360 ∨ decimal int = 360 ∧ decimal frac = 0) := by
  have hchecks := hueChecks_of_accepted h
  have hblanks := not_isCSpace hat
  have hchars := hat.chars
  obtain ⟨c,cs,rfl⟩ : ∃ c cs, chars = c :: cs := by
    cases chars with
    | nil => cases hchars
    | cons c cs => exact ⟨c,cs,rfl⟩
  rw [primitiveChars,Bool.and_eq_true,decide_eq_true_eq] at hchars
  obtain ⟨hblank,hplus,hdot⟩ := first_char c hchars.1
  have hfirst : byteAt json t.start = c := byteAt_of_drop hat.text
  have hstop := hat.stop
  rcases strtol_inside hat.text hblank hat.ends with hnone | ⟨sign,ds,more,htext,hnum⟩
  · rw [hnone] at hchecks
    rcases hchecks.dot with hend | hbyte
    · rw [List.length_cons] at hstop
      push_cast at hstop
      dsimp only at hend
      omega
    · exact absurd (hfirst.symm.trans hbyte) hdot
  have hint := strtol_numeral hnum
  have hclip := hchecks.erange
  rw [hint] at hclip
  rw [clipped_fits hclip] at hint
  rw [hint] at hchecks
  rcases hnum.sign with rfl | rfl | rfl
  · rw [htext,List.nil_append] at hat ⊢
    exact hue_text_of_digits hat hnum.digits hnum.nonempty hchecks
  · exact absurd (List.cons.inj htext).1 hplus
  · have hneg : (signed [45] ds) = -(decimal ds : ℤ) := rfl
    have hnonneg := hchecks.nonneg
    have hunsigned := hchecks.unsigned
    rw [hfirst] at hunsigned
    dsimp only at hnonneg hunsigned
    exact absurd ⟨by omega,(List.cons.inj htext).1⟩ hunsigned

variable {p : Parser} {numTokens : Option ℕ}

/-- A token that is taken for a hue is encoded as its value, in the range of sixteen bits
that the commands ask for, unless there is a sign behind its dot. -/
theorem hue_encoded_iff (hp : parse json numTokens = .ok p) (ht : t ∈ p.tokens)
    (h : typeFloatBetween0And360 t json = true) :
    ((∃ x : ℚ, IsDecimal (tokenText json t) x ∧
        floatRangeToUint16 json t 0 360 = ⌊x * 1000000⌋ * 65535 / 360000000) ∧
      0 ≤ floatRangeToUint16 json t 0 360 ∧ floatRangeToUint16 json t 0 360 ≤ 65535 ∧
      inUint16 (floatRangeToUint16 json t 0 360) = true) ↔ ¬ SignBehindDot (tokenText json t) := by
  have htype : t.type = .primitive := by
    by_contra hne
    rw [typeFloatBetween0And360,if_pos hne] at h
    cases h
  obtain ⟨chars,rest,hat⟩ := primitivesIn_parse hp t ht htype
  constructor
  · rintro ⟨⟨x,⟨int,frac,hd,-⟩,-⟩,-⟩
    exact not_signBehindDot hd
  · intro hsign
    rw [tokenText_of_primitive hat] at hsign
    obtain ⟨int,frac,hd,hint⟩ := (hue_text hat h).resolve_left hsign
    have hencoded := exists_encoded (numberAt_of_primitive hat) hd hint (by norm_num)
    norm_num at hencoded
    obtain ⟨x,hx,-,-,heq,hnonneg,hle⟩ := hencoded
    exact ⟨⟨x,hx,heq⟩,hnonneg,hle,by simp [inUint16,hnonneg,hle]⟩

theorem hue_encoded_iff_half :
    (∃ x : ℚ, IsDecimal (tokenText (ascii "[0.5]") ⟨.primitive,1,4,0⟩) x ∧
      floatRangeToUint16 (ascii "[0.5]") ⟨.primitive,1,4,0⟩ 0 360 = ⌊x * 1000000⌋ * 65535 / 360000000) ∧
    0 ≤ floatRangeToUint16 (ascii "[0.5]") ⟨.primitive,1,4,0⟩ 0 360 ∧
    floatRangeToUint16 (ascii "[0.5]") ⟨.primitive,1,4,0⟩ 0 360 ≤ 65535 ∧
    inUint16 (floatRangeToUint16 (ascii "[0.5]") ⟨.primitive,1,4,0⟩ 0 360) = true := by
  have hp : parse (ascii "[0.5]") (some 2) =
      .ok ⟨[⟨.array,0,5,1⟩,⟨.primitive,1,4,0⟩],[none,some 0],none,2⟩ := by decide +kernel
  have hd : Denotes (tokenText (ascii "[0.5]") ⟨.primitive,1,4,0⟩) [48] [53] :=
    ⟨by decide +kernel,by simp,by decide +kernel,.inr (by decide +kernel)⟩
  exact (hue_encoded_iff hp (by decide) (by decide +kernel)).mpr (not_signBehindDot hd)

/-- A request with a sign behind the dot of the hue. -/
def signedHueJson : List UInt8 :=
  ascii "\x7b\"jsonrpc\":\"2.0\",\"method\":\"set_light_from_hsbk\",\"params\":[\"*\",0.+5,1,1,3500,0]\x7d"

def signedHueToks : List Token := (parseTokens signedHueJson).getD []

/-- The hue is accepted and encoded as a negative number, which an assertion finds. -/
theorem signed_hue_crashes :
    (∃ t ∈ signedHueToks, tokenText signedHueJson t = ascii "0.+5" ∧ typeFloatBetween0And360 t signedHueJson = true ∧
      floatRangeToUint16 signedHueJson t 0 360 = -81) ∧
    (dispatchRequest (methodHandlers plainSetting signedHueToks signedHueJson) signedHueToks signedHueJson
      ⟨{},⟨some [],some [],none⟩⟩).map (fun _ => ()) = .error .assertion := by
  constructor <;> decide +kernel

end Hue
end Lightsd.Core.Jsonrpc
