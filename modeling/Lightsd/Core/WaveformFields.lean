import Lightsd.Core.FloatParams

/-! # The fields of waveforms

The skew ratio of a waveform is a share of sixteen bits that is moved by half of the range
before it is stored, so that it can be read as a signed number. The range that results has
one value too many at its upper end: the skew ratio one becomes the least signed number.
-/
namespace Lightsd.Core.Jsonrpc

open Jsmn Lifx

variable {json json' : List UInt8} {t t' : Token} {p p' : Parser} {numTokens numTokens' : Option ℕ} {x y : ℚ}

/-- What is passed to the command for a skew ratio. -/
def skewOf (json : List UInt8) (t : Token) : ℤ := floatRangeToUint16 json t 0 1 - 32767

/-- The field of a skew ratio, as a signed number. -/
def Waveform.skew (pkt : Waveform) : ℤ := pkt.skewRatio.toInt16.toInt

theorem toInt16_uint16 (n : ℤ) : (uint16 n).toInt16.toInt = n.bmod (2 ^ 16) := by
  have hbits : (uint16 n).toInt16.toInt = (BitVec.ofNat 16 (n % 2 ^ 16).toNat).toInt := rfl
  have hmod : ((n % 2 ^ 16).toNat : ℤ) = n % 2 ^ 16 := Int.toNat_of_nonneg (Int.emod_nonneg n (by norm_num))
  rw [hbits,BitVec.toInt_ofNat',hmod]
  exact Int.emod_bmod n (2 ^ 16)

theorem IsDecimal.unique {text : List UInt8} (hx : IsDecimal text x) (hy : IsDecimal text y) : x = y := by
  obtain ⟨int,frac,hd,rfl⟩ := hx
  obtain ⟨int',frac',hd',rfl⟩ := hy
  obtain ⟨rfl,rfl⟩ := hd.unique hd'
  rfl

/-- The skew ratio one is out of the range of the field, and only this one is. -/
theorem skew_eq (hp : parse json numTokens = .ok p) (ht : t ∈ p.tokens) (h : typeFloatBetween0And1 t json = true)
    (hx : IsDecimal (tokenText json t) x) :
    (x < 1 ∧ -32767 ≤ skewOf json t ∧ (skewOf json t).bmod (2 ^ 16) = skewOf json t) ∨
      x = 1 ∧ (skewOf json t).bmod (2 ^ 16) = -32768 := by
  obtain ⟨chars,rest,int,frac,hat,hd,hint⟩ := unit_read hp ht h
  obtain ⟨x',hx',hnonneg,hle,hcode,-,-⟩ := exists_encoded (numberAt_of_primitive hat) hd hint (by norm_num)
  obtain rfl : x = x' := hx.unique hx'
  rw [Nat.cast_one] at hle hcode
  rcases hle.lt_or_eq with hlt | rfl
  · have hfloor : ⌊x * 1000000⌋ < 1000000 := by
      rw [Int.floor_lt]
      push_cast
      linarith
    have hpos : 0 ≤ ⌊x * 1000000⌋ := Int.floor_nonneg.mpr (by linarith)
    have hskew : -32767 ≤ skewOf json t ∧ skewOf json t ≤ 32767 := by
      rw [skewOf,hcode]
      omega
    exact .inl ⟨hlt,hskew.1,Int.bmod_eq_of_le (by omega) (by omega)⟩
  · have hone : ⌊(1 : ℚ) * 1000000⌋ = 1000000 := by norm_num
    have hskew : skewOf json t = 32768 := by
      rw [skewOf,hcode,hone]
      norm_num
    exact .inr ⟨rfl,by rw [hskew]; decide⟩

/-- The fields of two skew ratios are in the order of the ratios, unless the greater one is
one and the other one is less. -/
theorem skew_ordered_iff (hp : parse json numTokens = .ok p) (ht : t ∈ p.tokens)
    (h : typeFloatBetween0And1 t json = true) (hp' : parse json' numTokens' = .ok p') (ht' : t' ∈ p'.tokens)
    (h' : typeFloatBetween0And1 t' json' = true) (hx : IsDecimal (tokenText json t) x)
    (hy : IsDecimal (tokenText json' t') y) (hxy : x ≤ y) (w w' : ℕ)
    (hue hue' s s' b b' k k' period period' cycles cycles' : ℤ) (transient transient' : Bool) :
    Waveform.skew (waveformPacket w hue s b k period cycles (skewOf json t) transient) ≤
      Waveform.skew (waveformPacket w' hue' s' b' k' period' cycles' (skewOf json' t') transient') ↔
    ¬ (x < 1 ∧ y = 1) := by
  have hmono : skewOf json t ≤ skewOf json' t' := Int.sub_le_sub_right (unit_ordered hp ht h hp' ht' h' hx hy hxy) _
  simp only [Waveform.skew,waveformPacket,toInt16_uint16]
  rcases skew_eq hp ht h hx with ⟨hlt,hge,heq⟩ | ⟨rfl,heq⟩
  · rcases skew_eq hp' ht' h' hy with ⟨hlt',-,heq'⟩ | ⟨rfl,heq'⟩
    · rw [heq,heq']
      exact ⟨fun _ hboth => hlt'.ne hboth.2,fun _ => hmono⟩
    · rw [heq,heq']
      exact ⟨fun hle => absurd hle (by omega),fun hnot => absurd ⟨hlt,rfl⟩ hnot⟩
  · rcases skew_eq hp' ht' h' hy with ⟨hlt',-,-⟩ | ⟨rfl,heq'⟩
    · exact absurd hxy (not_le.mpr hlt')
    · rw [heq,heq']
      exact ⟨fun _ hboth => hboth.1.ne rfl,fun _ => le_rfl⟩

section Samples

def skewsJson : List UInt8 := ascii "[0.5,1]"
def halfToken : Token := ⟨.primitive,1,4,0⟩
def oneToken : Token := ⟨.primitive,5,6,0⟩

theorem skewsJson_parsed :
    parse skewsJson (some 3) = .ok ⟨[⟨.array,0,7,2⟩,halfToken,oneToken],[none,some 0,some 0],none,3⟩ := by
  decide +kernel

theorem half_isDecimal : IsDecimal (tokenText skewsJson halfToken) (1 / 2) :=
  ⟨[48],[53],⟨by decide +kernel,by simp,by decide +kernel,.inr (by decide +kernel)⟩,by decide +kernel⟩

theorem skew_ordered_iff_half :
    Waveform.skew (waveformPacket 1 0 0 0 3500 1 1 (skewOf skewsJson halfToken) true) ≤
      Waveform.skew (waveformPacket 1 0 0 0 3500 1 1 (skewOf skewsJson halfToken) true) ↔
    ¬ ((1 / 2 : ℚ) < 1 ∧ (1 / 2 : ℚ) = 1) :=
  skew_ordered_iff skewsJson_parsed (by simp) (by decide +kernel) skewsJson_parsed (by simp) (by decide +kernel)
    half_isDecimal half_isDecimal le_rfl _ _ _ _ _ _ _ _ _ _ _ _ _ _ _ _

/-- The field of the skew ratio one is less than that of one half. -/
theorem full_skew_least :
    typeFloatBetween0And1 halfToken skewsJson = true ∧ typeFloatBetween0And1 oneToken skewsJson = true ∧
    IsDecimal (tokenText skewsJson halfToken) (1 / 2) ∧ IsDecimal (tokenText skewsJson oneToken) 1 ∧
    Waveform.skew (waveformPacket 1 0 0 0 3500 1 1 (skewOf skewsJson oneToken) true) <
      Waveform.skew (waveformPacket 1 0 0 0 3500 1 1 (skewOf skewsJson halfToken) true) := by
  refine ⟨by decide +kernel,by decide +kernel,half_isDecimal,?_,by decide +kernel⟩
  exact ⟨[49],[],⟨by decide +kernel,by simp,by decide +kernel,.inl ⟨by decide +kernel,rfl⟩⟩,by decide +kernel⟩

end Samples
end Lightsd.Core.Jsonrpc
