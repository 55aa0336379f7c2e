import Lightsd.Core.JsonParams

/-! # The label that a client gives to a bulb

The label goes out in a packet of 32 bytes, comes back as the label of the bulb and is then
compared with the targets of other requests. The packet is built over what was on the stack,
from a length that was cut to an int. The bulb's label has no terminator if it takes up all
of its bytes.
-/
namespace Lightsd.Core

open Lifx

/-- The characters of a C string, without its terminator. -/
abbrev CText := {text : List UInt8 // 0 ∉ text}

def memcpyLabel (dst : Lifx.Label) (src : List UInt8) (n : ℕ) : Lifx.Label :=
  Vector.ofFn (fun i => if i.val < n then src.getD i.val 0 else dst.get i)

def memsetLabel (dst : Lifx.Label) (first n : ℕ) : Lifx.Label :=
  Vector.ofFn (fun i => if first ≤ i.val ∧ i.val < first + n then 0 else dst.get i)

/-- The packet that `lgtd_proto_set_label` builds over the bytes of the stack. There is none
if a negative length is given to `memcpy`, which takes it for a huge one. -/
def setLabelPacket (stack : Lifx.Label) (label : List UInt8) : Option Lifx.Label :=
  let labelLen := Jsonrpc.toInt32 label.length
  let copied := min labelLen labelSize
  if copied < 0 then none
  else
    let pkt := memcpyLabel stack label copied.toNat
    some (memsetLabel pkt labelLen.toNat (max (labelSize - labelLen) 0).toNat)

/-- `lgtd_lifx_bulb_has_label` by the lengths and bytes that it compares. -/
def hasLabelBytes (b : Bulb) (label : List UInt8) : Bool :=
  let bulbLabel := b.state.label.toList
  let bulbLabelLen := (bulbLabel.findIdx? (· = 0)).getD labelSize
  let labelLen := min label.length labelSize
  labelLen = bulbLabelLen && bulbLabel.take labelLen = label.take labelLen

section Matching

/-- The text ends where the first NUL byte is found, or where the bytes end. -/
theorem length_cString (bytes : List UInt8) :
    (cString bytes).length = (bytes.findIdx? (· = 0)).getD bytes.length := by
  induction bytes with
  | nil => rfl
  | cons c cs ih =>
    by_cases hc : c = 0
    · simp [hc,cString,List.findIdx?_cons]
    · have hcons : cString (c :: cs) = c :: cString cs := by simp [cString,hc]
      rw [hcons,List.length_cons,ih,List.findIdx?_cons]
      cases cs.findIdx? (· = 0) <;> simp [hc]

theorem take_length_cString (bytes : List UInt8) : bytes.take (cString bytes).length = cString bytes :=
  (List.prefix_iff_eq_take.mp (List.takeWhile_prefix _)).symm

/-- Comparing lengths and bytes comes to comparing the clipped label with the text. -/
theorem hasLabelBytes_eq (b : Bulb) (label : List UInt8) : hasLabelBytes b label = b.hasLabel label := by
  have hlen := length_cString b.state.label.toList
  have hsize : b.state.label.toList.length = labelSize := by simp [labelSize]
  have hclip : label.take (min label.length labelSize) = label.take labelSize := by
    rw [min_comm,List.take_eq_take_iff]
    simp
  rw [hsize] at hlen
  rw [hasLabelBytes,Bulb.hasLabel,← hlen,hclip,← Bool.decide_and,decide_eq_decide]
  constructor
  · rintro ⟨hlength,hbytes⟩
    rw [← hbytes,hlength,take_length_cString]
  · intro h
    have hlength : min label.length labelSize = (cString b.state.label.toList).length := by
      rw [← h,List.length_take,min_comm]
    exact ⟨hlength,by rw [h,hlength,take_length_cString]⟩

theorem take_append_zeros (text : List UInt8) (n : ℕ) :
    (List.ofFn (fun i : Fin n => text.getD i.val 0)) = text.take n ++ List.replicate (n - text.length) 0 := by
  apply List.ext_getElem
  · simp
    omega
  · intro i hi hi'
    rw [List.getElem_ofFn,List.getElem_append]
    split
    next hlt =>
      have hin : i < text.length := hlt.trans_le (List.length_take_le' _ _)
      simp [hin]
    next hge =>
      have hout : text.length ≤ i := by
        simp at hge hi
        omega
      simp [List.getElem?_eq_none hout]

/-- A text reads back from a zeroed label as its first 32 bytes. -/
theorem cString_padLabel {text : List UInt8} (h : 0 ∉ text) : cString (padLabel text).toList = text.take labelSize := by
  have hbytes : (padLabel text).toList = text.take labelSize ++ List.replicate (labelSize - text.length) 0 := by
    rw [padLabel,Vector.toList_ofFn]
    exact take_append_zeros text labelSize
  have hclean : ∀ c ∈ text.take labelSize, c ≠ 0 := fun c hc hzero => h (hzero ▸ List.mem_of_mem_take hc)
  rw [hbytes,cString,List.takeWhile_append_of_pos (by simpa using hclean)]
  simp

theorem padLabel_get {text : List UInt8} {i : Fin 32} (h : text.length ≤ i.val) : (padLabel text).get i = 0 := by
  simp [padLabel,List.getElem?_eq_none h]

theorem hasLabelBytes_padLabel (b : Bulb) {text : List UInt8} (h : 0 ∉ text) (label : List UInt8) :
    hasLabelBytes (b.setLabel (padLabel text)) label = true ↔ text.take labelSize = label.take labelSize := by
  rw [hasLabelBytes_eq,Bulb.hasLabel,decide_eq_true_iff,Bulb.setLabel,cString_padLabel h]
  exact eq_comm

end Matching

section Packet

theorem toInt32_of_lt {n : ℕ} (h : n % 2 ^ 32 < 2 ^ 31) : Jsonrpc.toInt32 n = (n % 2 ^ 32 : ℕ) := by
  rw [Jsonrpc.toInt32,Int.bmod]
  omega

theorem toInt32_of_ge {n : ℕ} (h : 2 ^ 31 ≤ n % 2 ^ 32) : Jsonrpc.toInt32 n < 0 := by
  rw [Jsonrpc.toInt32,Int.bmod]
  omega

theorem padLabel_take (stack : Lifx.Label) (label : List UInt8) (n : ℕ) :
    memsetLabel (memcpyLabel stack label (min n labelSize)) n (labelSize - n) = padLabel (label.take n) := by
  apply Vector.ext
  intro i hi
  simp only [memsetLabel,memcpyLabel,padLabel,Vector.get_ofFn,Vector.getElem_ofFn,List.getD_eq_getElem?_getD]
  by_cases hn : n ≤ i
  · rw [if_pos ⟨hn,by rw [labelSize]; omega⟩,List.getElem?_eq_none (by simp; omega)]
    rfl
  · rw [if_neg (by omega),if_pos (by rw [labelSize]; omega),List.getElem?_take_of_lt (by omega)]

/-- The packet has the bytes up to the length that is left in the int, and zeros behind them. -/
theorem setLabelPacket_eq (stack : Lifx.Label) (label : List UInt8) : setLabelPacket stack label =
    if label.length % 2 ^ 32 < 2 ^ 31 then some (padLabel (label.take (label.length % 2 ^ 32))) else none := by
  rw [setLabelPacket]
  by_cases hfits : label.length % 2 ^ 32 < 2 ^ 31
  · have hlen := toInt32_of_lt hfits
    rw [if_pos hfits,hlen,← padLabel_take stack]
    generalize label.length % 2 ^ 32 = n
    have hcopied : (min (n : ℤ) labelSize).toNat = min n labelSize := by omega
    have hcleared : (max ((labelSize : ℤ) - n) 0).toNat = labelSize - n := by omega
    simp only [hcopied,hcleared,Int.toNat_natCast]
    exact if_neg (by omega)
  · have hneg := toInt32_of_ge (not_lt.mp hfits)
    rw [if_neg hfits]
    exact if_pos (min_lt_of_left_lt hneg)

/-- When cutting a text first makes no difference to cutting it to the size of a label. -/
theorem take_mod_iff (text : List UInt8) (k : ℕ) (hk : k ≤ text.length)
    (hsmall : text.length < 2 ^ 32 → k = text.length) :
    (text.take k).take labelSize = text.take labelSize ↔ text.length < labelSize ∨ labelSize ≤ k := by
  rw [List.take_take,List.take_eq_take_iff]
  constructor
  · intro h
    omega
  · rintro (hshort | hlong)
    · rw [labelSize] at hshort
      rw [hsmall (by omega)]
      omega
    · omega

/-- A bulb with the label of a client matches exactly the texts with the same first 32 bytes,
the label itself among them, if the length of the label survives being cut to an int. -/
theorem label_matched_iff (stack : Lifx.Label) (b : Bulb) (l m : CText) :
    (∃ pkt, setLabelPacket stack l.val = some pkt ∧
      (hasLabelBytes (b.setLabel pkt) m.val = true ↔ l.val.take labelSize = m.val.take labelSize) ∧
      hasLabelBytes (b.setLabel pkt) l.val = true ∧
      ∀ i : Fin 32, l.val.length ≤ i.val → pkt.get i = 0) ↔
    l.val.length % 2 ^ 32 < 2 ^ 31 ∧ (l.val.length < labelSize ∨ labelSize ≤ l.val.length % 2 ^ 32) := by
  obtain ⟨l,hl⟩ := l
  have hcut : 0 ∉ l.take (l.length % 2 ^ 32) := fun h => hl (List.mem_of_mem_take h)
  have hiff := take_mod_iff l (l.length % 2 ^ 32) (Nat.mod_le _ _) (Nat.mod_eq_of_lt ·)
  constructor
  · rintro ⟨pkt,hpkt,-,hself,-⟩
    rw [setLabelPacket_eq] at hpkt
    split at hpkt
    next hfits =>
      obtain rfl := Option.some.inj hpkt
      exact ⟨hfits,hiff.mp ((hasLabelBytes_padLabel b hcut l).mp hself)⟩
    next => nomatch hpkt
  · rintro ⟨hfits,hkept⟩
    have hmatch := hasLabelBytes_padLabel b hcut
    rw [hiff.mpr hkept] at hmatch
    refine ⟨_,by rw [setLabelPacket_eq,if_pos hfits],hmatch m.val,(hmatch l).mpr rfl,fun i hi => ?_⟩
    have hout : (l.take (l.length % 2 ^ 32)).length ≤ i.val := (List.length_take_le' _ _).trans hi
    exact padLabel_get hout

/-- A text as long as 2 ^ 32 has nothing left of its length in an int. -/
theorem setLabelPacket_huge (stack : Lifx.Label) {label : List UInt8} (h : label.length = 2 ^ 32) :
    setLabelPacket stack label = some (padLabel []) := by
  have hmod : label.length % 2 ^ 32 = 0 := by omega
  rw [setLabelPacket_eq,hmod,if_pos (by norm_num),List.take_zero]

theorem hasLabelBytes_empty (b : Bulb) {label : List UInt8} (h : label ≠ []) :
    hasLabelBytes (b.setLabel (padLabel [])) label = false := by
  rw [Bool.eq_false_iff]
  intro hmatch
  have hsame := (hasLabelBytes_padLabel b List.not_mem_nil label).mp hmatch
  rw [List.take_nil,eq_comm,List.take_eq_nil_iff] at hsame
  rcases hsame with hzero | hnil
  · cases hzero
  · exact h hnil

/-- A label of 4 GiB is sent as an empty one, and the bulb does not match it. -/
theorem huge_label_lost : ∃ label : CText, label.val = List.replicate (2 ^ 32) 97 ∧
    setLabelPacket (Vector.replicate 32 0) label.val = some (padLabel []) ∧
    hasLabelBytes (Bulb.setLabel {} (padLabel [])) label.val = false := by
  have hlen : (List.replicate (2 ^ 32) (97 : UInt8)).length = 2 ^ 32 := List.length_replicate
  have hclean : 0 ∉ List.replicate (2 ^ 32) (97 : UInt8) := fun h =>
    absurd (List.eq_of_mem_replicate h) (by decide)
  generalize List.replicate (2 ^ 32) (97 : UInt8) = label at hlen hclean
  have hne : label ≠ [] := by
    rintro rfl
    cases hlen
  exact ⟨⟨label,hclean⟩,rfl,setLabelPacket_huge _ hlen,hasLabelBytes_empty _ hne⟩

end Packet

end Lightsd.Core
