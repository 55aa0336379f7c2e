import Lightsd.Core.JsonParams
import Lightsd.Core.Primitives
import Lightsd.Library.Decimals

/-! # The texts of numbers

What `strtol` makes of the characters of a primitive, and which number such characters
denote. Blanks and a sign are skipped in front of digits; a delimiter behind the primitive
ends the digits, so that none are taken from the rest of the buffer.
-/
namespace Lightsd.Core.Jsonrpc

open Jsmn Json

def AllDigits (text : List UInt8) : Prop := ∀ c ∈ text, isDigit c = true

instance (text : List UInt8) : Decidable (AllDigits text) :=
  inferInstanceAs (Decidable (∀ c ∈ text, isDigit c = true))

/-- The digits end before these bytes. -/
def DigitsEnd (rest : List UInt8) : Prop := ∀ c ∈ rest.head?, isDigit c = false

def digitsOf (text : List UInt8) : List ℕ := text.map (fun c => c.toNat - 48)

theorem decimal_eq_value (ds : List UInt8) : decimal ds = Decimals.value (digitsOf ds) := by
  rw [Decimals.value,digitsOf,List.foldl_map]
  rfl

theorem digit_char : ∀ c : UInt8, isDigit c = true →
    isCSpace c = false ∧ c ≠ 43 ∧ c ≠ 45 ∧ c ≠ 46 ∧ endsPrimitive c = false ∧
      c.toNat - 48 < 10 ∧ 48 ≤ c.toNat := by
  decide +kernel

theorem delimiter_char : ∀ c : UInt8, endsPrimitive c = true → isDigit c = false ∧ c ≠ 46 := by
  decide +kernel

theorem digitsOf_lt {ds : List UInt8} (h : AllDigits ds) : ∀ d ∈ digitsOf ds, d < 10 := by
  intro d hd
  obtain ⟨c,hc,rfl⟩ := List.mem_map.mp hd
  exact (digit_char c (h c hc)).2.2.2.2.2.1

theorem digitsEnd_of_ends {rest : List UInt8} (h : Ends rest) : DigitsEnd rest := by
  obtain ⟨d,ds,rfl,hd⟩ := h
  rintro c ⟨⟩
  exact (delimiter_char d hd).1

section Strtol

/-- The sign of a numeral, with its value. -/
def IsSign (sign : List UInt8) : Prop := sign = [] ∨ sign = [43] ∨ sign = [45]

def signed (sign ds : List UInt8) : ℤ := if sign = [45] then -(decimal ds) else decimal ds

/-- The bytes begin with a numeral, behind some blanks. -/
structure Numeral (s blanks sign ds rest : List UInt8) : Prop where
  text : s = blanks ++ (sign ++ (ds ++ rest))
  blanks : ∀ c ∈ blanks, isCSpace c = true
  sign : IsSign sign
  digits : AllDigits ds
  nonempty : ds ≠ []
  rest : DigitsEnd rest

variable {json s blanks sign ds rest : List UInt8} {i : ℕ}

theorem takeWhile_append_eq {α : Type} {p : α → Bool} {as bs : List α} (has : ∀ a ∈ as, p a = true)
    (hbs : ∀ b ∈ bs.head?, p b = false) : (as ++ bs).takeWhile p = as := by
  rw [List.takeWhile_append_of_pos has]
  cases bs with
  | nil => exact List.append_nil _
  | cons b bs =>
    rw [List.takeWhile_cons,hbs b rfl]
    exact List.append_nil _

theorem strtol_numeral (h : Numeral (json.drop i) blanks sign ds rest) :
    strtol json i = .clipped (signed sign ds) (i + blanks.length + sign.length + ds.length) := by
  have hdigits : (ds ++ rest).takeWhile isDigit = ds := takeWhile_append_eq h.digits h.rest
  obtain ⟨d,ds',rfl⟩ := List.exists_cons_of_ne_nil h.nonempty
  obtain ⟨hblank,hplus,hminus,-⟩ := digit_char d (h.digits d List.mem_cons_self)
  have hblanks : (json.drop i).takeWhile isCSpace = blanks := by
    rw [h.text]
    apply takeWhile_append_eq h.blanks
    rcases h.sign with rfl | rfl | rfl
    · rintro c ⟨⟩
      exact hblank
    · rintro c ⟨⟩
      decide
    · rintro c ⟨⟩
      decide
  have hdrop : (json.drop i).drop blanks.length = sign ++ (d :: ds' ++ rest) := by
    rw [h.text,List.drop_left]
  rw [strtol]
  simp only [hblanks,hdrop]
  rcases h.sign with rfl | rfl | rfl
  · have htake : List.take 1 (d :: ds' ++ rest) = [d] := rfl
    have hsign : ¬ ([d] = [45] ∨ [d] = [43]) := by simp [hplus,hminus]
    simp only [List.nil_append,htake,hsign,if_false,List.drop_zero,hdigits]
    simp [signed,hminus]
  · have htake : List.take 1 ([43] ++ (d :: ds' ++ rest)) = [43] := rfl
    have htail : List.drop 1 ([43] ++ (d :: ds' ++ rest)) = d :: ds' ++ rest := rfl
    simp only [htake,or_true,if_true,htail,hdigits]
    simp [signed]
  · have htake : List.take 1 ([45] ++ (d :: ds' ++ rest)) = [45] := rfl
    have htail : List.drop 1 ([45] ++ (d :: ds' ++ rest)) = d :: ds' ++ rest := rfl
    simp only [htake,true_or,if_true,htail,hdigits]
    simp [signed]

/-- There is a numeral, or nothing is read. -/
theorem strtol_cases (json : List UInt8) (i : ℕ) :
    strtol json i = ⟨0,i,false⟩ ∨ ∃ blanks sign ds rest, Numeral (json.drop i) blanks sign ds rest := by
  let blanks := (json.drop i).takeWhile isCSpace
  let s := (json.drop i).drop blanks.length
  let signLen := if s.take 1 = [45] ∨ s.take 1 = [43] then 1 else 0
  by_cases hds : (s.drop signLen).takeWhile isDigit = []
  · left
    exact if_pos hds
  · right
    refine ⟨blanks,s.take signLen,(s.drop signLen).takeWhile isDigit,(s.drop signLen).dropWhile isDigit,
      ?_,?_,?_,?_,hds,?_⟩
    · rw [List.takeWhile_append_dropWhile,List.take_append_drop]
      have hpre : blanks = (json.drop i).take blanks.length := by
        have hsplit := List.takeWhile_append_dropWhile (p := isCSpace) (l := json.drop i)
        exact List.prefix_iff_eq_take.mp ⟨_,hsplit⟩
      nth_rewrite 1 [hpre]
      exact (List.take_append_drop _ _).symm
    · exact fun c hc => List.mem_takeWhile_imp hc
    · by_cases hsign : s.take 1 = [45] ∨ s.take 1 = [43]
      · have hlen : signLen = 1 := if_pos hsign
        rw [hlen]
        exact .inr hsign.symm
      · have hlen : signLen = 0 := if_neg hsign
        rw [hlen]
        exact .inl List.take_zero
    · exact fun c hc => List.mem_takeWhile_imp hc
    · intro c hc
      have hnot := List.head?_dropWhile_not isDigit (s.drop signLen)
      rw [Option.mem_def.mp hc] at hnot
      exact hnot

theorem clipped_stop (v : ℤ) (stop : ℕ) : (Strtol.clipped v stop).stop = stop := by
  rw [Strtol.clipped]
  split_ifs <;> rfl

/-- A number that is in range is given as it is. -/
theorem clipped_fits {v : ℤ} {stop : ℕ} (h : (Strtol.clipped v stop).erange = false) :
    Strtol.clipped v stop = ⟨v,stop,false⟩ := by
  rw [Strtol.clipped] at h ⊢
  split_ifs at h ⊢
  rfl

theorem clipped_of_range {v : ℤ} {stop : ℕ} (hmin : longMin ≤ v) (hmax : v ≤ longMax) :
    Strtol.clipped v stop = ⟨v,stop,false⟩ := by
  rw [Strtol.clipped,if_neg (not_lt.mpr hmin),if_neg (not_lt.mpr hmax)]

/-- Digits that stand before other characters end before a delimiter behind those. -/
theorem digits_inside {chars tail : List UInt8} (h : ds ++ tail = chars ++ rest) (hds : AllDigits ds)
    (hends : Ends rest) : ∃ more, chars = ds ++ more ∧ tail = more ++ rest := by
  rcases List.append_eq_append_iff.mp h with ⟨more,hchars,htail⟩ | ⟨more,hds',hrest⟩
  · exact ⟨more,hchars,htail⟩
  · cases more with
    | nil => exact ⟨[],by rw [hds',List.append_nil,List.append_nil],hrest.symm⟩
    | cons c cs =>
      obtain ⟨d,_,rfl,hd⟩ := hends
      cases hrest
      have hc := hds c (by rw [hds']; simp)
      rw [(delimiter_char c hd).1] at hc
      cases hc

/-- The numeral in characters that do not begin with a blank. -/
theorem strtol_inside {c : UInt8} {cs : List UInt8} (h : json.drop i = c :: cs ++ rest) (hc : isCSpace c = false)
    (hends : Ends rest) : strtol json i = ⟨0,i,false⟩ ∨ ∃ sign ds more, c :: cs = sign ++ (ds ++ more) ∧
      Numeral (json.drop i) [] sign ds (more ++ rest) := by
  rcases strtol_cases json i with hnone | ⟨blanks,sign,ds,tail,hnum⟩
  · exact .inl hnone
  · right
    obtain rfl : blanks = [] := by
      cases blanks with
      | nil => rfl
      | cons b bs =>
        have htext := h.symm.trans hnum.text
        have hb := hnum.blanks b List.mem_cons_self
        rw [← (List.cons.inj htext).1,hc] at hb
        cases hb
    have htext : sign ++ (ds ++ tail) = c :: cs ++ rest := hnum.text.symm.trans h
    have hinside : ∃ more, c :: cs = sign ++ (ds ++ more) ∧ tail = more ++ rest := by
      rcases hnum.sign with rfl | rfl | rfl
      · exact digits_inside htext hnum.digits hends
      all_goals
        obtain ⟨rfl,htail⟩ := List.cons.inj htext
        obtain ⟨more,rfl,htail'⟩ := @digits_inside ds _ _ _ htail hnum.digits hends
        exact ⟨more,rfl,htail'⟩
    obtain ⟨more,hchars,rfl⟩ := hinside
    exact ⟨sign,ds,more,hchars,hnum⟩

/-- A number that goes to the end of the characters is a sign and digits. -/
theorem strtol_whole {c : UInt8} {cs : List UInt8} (h : json.drop i = c :: cs ++ rest) (hc : isCSpace c = false)
    (hends : Ends rest) (hstop : (strtol json i).stop = i + (c :: cs).length) :
    ∃ sign ds, c :: cs = sign ++ ds ∧ IsSign sign ∧ AllDigits ds ∧ ds ≠ [] ∧
      strtol json i = .clipped (signed sign ds) (i + (c :: cs).length) := by
  rcases strtol_inside h hc hends with hnone | ⟨sign,ds,more,hchars,hnum⟩
  · rw [hnone,List.length_cons] at hstop
    simp at hstop
  · have heq := strtol_numeral hnum
    rw [heq,clipped_stop] at hstop
    have hlen := congrArg List.length hchars
    simp only [List.length_append,List.length_nil] at hlen hstop
    obtain rfl : more = [] := List.length_eq_zero_iff.mp (by omega)
    rw [List.append_nil] at hchars
    refine ⟨sign,ds,hchars,hnum.sign,hnum.digits,hnum.nonempty,?_⟩
    rw [heq,hchars,List.length_append,List.length_nil,Nat.add_zero,Nat.add_assoc]

end Strtol

section Decimal

/-- The text consists of digits, and perhaps of a dot and more digits. -/
structure Denotes (text int frac : List UInt8) : Prop where
  digits : AllDigits int
  nonempty : int ≠ []
  places : AllDigits frac
  text : text = int ∧ frac = [] ∨ text = int ++ 46 :: frac

/-- The text denotes the number. -/
def IsDecimal (text : List UInt8) (x : ℚ) : Prop :=
  ∃ int frac, Denotes text int frac ∧ x = decimal int + decimal frac / 10 ^ frac.length

/-- The number of millionths of a text, without what is less than one. -/
def millionths (int frac : List UInt8) : ℕ := decimal int * 10 ^ 6 + Decimals.places 6 (digitsOf frac)

variable {json chars rest text int frac : List UInt8} {t : Token} {x : ℚ}

theorem floor_millionths (h : AllDigits frac) :
    ⌊((decimal int : ℚ) + decimal frac / 10 ^ frac.length) * 1000000⌋ = millionths int frac := by
  have hfloor := Decimals.floor_places (digitsOf_lt h) (decimal int) 6
  rw [← decimal_eq_value,digitsOf,List.length_map] at hfloor
  norm_num at hfloor
  rw [hfloor,millionths,digitsOf]
  norm_num

def placeValues : ℕ → List ℕ
  | 0 => []
  | p + 1 => 10 ^ p :: placeValues p

theorem fracPart_eq_places {start i : ℕ} (h : json.drop (start + i) = frac ++ rest) (hfrac : AllDigits frac) (p : ℕ) :
    fracPart json start (i + frac.length) (placeValues p) i = Decimals.places p (digitsOf frac) := by
  induction frac generalizing i p with
  | nil =>
    cases p with
    | zero => rfl
    | succ p => simp [placeValues,fracPart,digitsOf]
  | cons c cs ih =>
    cases p with
    | zero => rfl
    | succ p =>
      have hnext : json.drop (start + (i + 1)) = cs ++ rest := by
        rw [← Nat.add_assoc,← List.drop_drop,h]
        rfl
      have hlen : i + (c :: cs).length = i + 1 + cs.length := by
        rw [List.length_cons]
        omega
      have hne : i ≠ i + (c :: cs).length := by simp
      have hdigit := (digit_char c (hfrac c List.mem_cons_self)).2.2.2.2.2.2
      have hcons : digitsOf (c :: cs) = (c.toNat - 48) :: digitsOf cs := rfl
      rw [placeValues,fracPart,if_neg hne,byteAt_of_drop h,hlen,
        ih hnext (fun d hd => hfrac d (List.mem_cons_of_mem _ hd)),hcons,Decimals.places]
      push_cast [hdigit]
      ring

/-- The token has the given characters, and no digit stands behind it. -/
structure NumberAt (json : List UInt8) (t : Token) (chars rest : List UInt8) : Prop where
  text : json.drop t.start = chars ++ rest
  stop : t.stop = t.start + chars.length
  ends : DigitsEnd rest

theorem numberAt_of_primitive (hat : PrimitiveAt json t chars rest) : NumberAt json t chars rest :=
  ⟨hat.text,hat.stop,digitsEnd_of_ends hat.ends⟩

theorem tokenLen_of_number (hat : NumberAt json t chars rest) : tokenLen t = chars.length := by
  rw [tokenLen,hat.stop]
  omega

theorem tokenText_of_number (hat : NumberAt json t chars rest) : tokenText json t = chars := by
  rw [tokenText,tokenLen_of_number hat,hat.text,List.take_left]

theorem tokenText_of_primitive (hat : PrimitiveAt json t chars rest) : tokenText json t = chars :=
  tokenText_of_number (numberAt_of_primitive hat)

/-- The digits in front of the dot are read, whatever stands behind it. -/
theorem strtol_int {i : ℕ} {tail : List UInt8} (h : json.drop i = int ++ tail) (hint : AllDigits int) (hne : int ≠ [])
    (htail : DigitsEnd tail) : strtol json i = .clipped (decimal int) (i + int.length) := by
  have hnum : Numeral (json.drop i) [] [] int tail := ⟨h,by simp,.inl rfl,hint,hne,htail⟩
  simpa [signed] using strtol_numeral hnum

/-- A decimal number is converted to the share that its millionths have of the range. -/
theorem floatRangeToUint16_eq (hat : NumberAt json t chars rest) (hd : Denotes chars int frac)
    (hle : decimal int ≤ longMax) (stop : ℤ) :
    floatRangeToUint16 json t 0 stop = (millionths int frac * 65535 : ℤ).tdiv (stop * 1000000) := by
  have hrange : Strtol.clipped (decimal int) (t.start + int.length) = ⟨decimal int,t.start + int.length,false⟩ :=
    clipped_of_range (by rw [longMin]; omega) hle
  have hdot : t.start + int.length - t.start = int.length := by omega
  have hlen := tokenLen_of_number hat
  rcases hd.text with ⟨rfl,rfl⟩ | rfl
  · have hint := strtol_int hat.text hd.digits hd.nonempty hat.ends
    rw [floatRangeToUint16]
    simp only [hint,hrange,hdot,hlen]
    simp [millionths,digitsOf,floatPrec]
  · have htext : json.drop t.start = int ++ (46 :: frac ++ rest) := by
      rw [hat.text,List.append_assoc]
    have htail : DigitsEnd (46 :: frac ++ rest) := by
      rintro c ⟨⟩
      decide
    have hint := strtol_int htext hd.digits hd.nonempty htail
    have hbehind : json.drop (t.start + int.length) = 46 :: (frac ++ rest) := by
      rw [← List.drop_drop,htext,List.drop_left]
      rfl
    have hfrac : json.drop (t.start + (int.length + 1)) = frac ++ rest := by
      rw [← Nat.add_assoc,← List.drop_drop,hbehind]
      rfl
    have hlen' : tokenLen t = int.length + 1 + frac.length := by
      rw [hlen,List.length_append,List.length_cons]
      omega
    have hne : int.length ≠ int.length + 1 + frac.length := by omega
    have hplaces : fracPart json t.start (int.length + 1 + frac.length) [100000,10000,1000,100,10,1] (int.length + 1) =
        Decimals.places 6 (digitsOf frac) := fracPart_eq_places hfrac hd.places 6
    rw [floatRangeToUint16]
    simp only [hint,hrange,hdot,hlen',byteAt_of_drop hbehind,hne,ne_eq,not_false_eq_true,and_self,if_true,hplaces]
    simp [millionths,floatPrec]

end Decimal
end Lightsd.Core.Jsonrpc
