import Lightsd.Core.FloatTexts
import Lightsd.Library.JsonPieces

/-! # The parts of the text of a bulb

Up to its label, the text of a bulb is the start of an object with five members, whatever
the fields of the bulb are: every name, address and number is printed as a value of JSON in
a bounded number of bytes. The label is between quotes as it is, and the text always fits
its buffer.
-/
namespace Lightsd.Core.Jsonrpc

open JsonStrings JsonReader Lifx

section Numbers

theorem digitText_isWord : ∀ d < 16, isWord (digitText d) = true := by decide

theorem digitText_word {d : ℕ} (h : d < 16) : PlainByte (digitText d) ∧ digitText d < 128 :=
  (isWord_iff _).mp (digitText_isWord d h)

/-- The digits of a number are as many as the power of its base that it is under. -/
theorem numberText_word {base n k : ℕ} (hbase : 1 < base) (hle : base ≤ 16) (hk : 0 < k) (h : n < base ^ k) :
    WordPiece k (numberText base n) := by
  by_cases hn : n = 0
  · subst hn
    exact ⟨by simp [numberText,Plain,PlainByte],by simp [numberText,Ascii],hk⟩
  · have hdigit : ∀ c ∈ numberText base n, PlainByte c ∧ c < 128 := by
      intro c hc
      rw [numberText,if_neg hn] at hc
      obtain ⟨d,hd,rfl⟩ := List.mem_map.mp hc
      exact digitText_word ((Nat.digits_lt_base hbase (List.mem_reverse.mp hd)).trans_le hle)
    refine ⟨fun c hc => (hdigit c hc).1,fun c hc => (hdigit c hc).2,?_⟩
    rw [numberText,if_neg hn,List.length_map,List.length_reverse]
    exact (Nat.digits_length_le_iff hbase n).mpr h

theorem numberText_head {n : ℕ} : numberText 10 n = [48] ∨ (numberText 10 n).head? ≠ some 48 := by
  by_cases hn : n = 0
  · exact .inl (by simp [numberText,hn])
  · right
    have hne : Nat.digits 10 n ≠ [] := Nat.digits_ne_nil_iff_ne_zero.mpr hn
    have hlast := Nat.getLast_digit_ne_zero 10 hn
    have hlt : (Nat.digits 10 n).getLast hne < 10 := Nat.digits_lt_base (by norm_num) (List.getLast_mem hne)
    have hzero : ∀ d < 10, digitText d = 48 → d = 0 := by decide
    rw [numberText,if_neg hn,List.head?_map,List.head?_reverse,List.getLast?_eq_getLast_of_ne_nil hne]
    intro h
    exact hlast (hzero _ hlt (by simpa using h))

theorem number_piece {n k : ℕ} (hk : 0 < k) (h : n < 10 ^ k) : ValuePiece k (numberText 10 n) := by
  obtain ⟨hdigits,hne,-⟩ := numberText_digits n
  have hfrac : Fraction [] := .inl rfl
  have hnumber := isNumberText_decimal hne hdigits numberText_head hfrac
  have hword := isWordByte_decimal hdigits hfrac
  rw [List.append_nil] at hnumber hword
  exact .number hnumber hword (numberText_word (by norm_num) (by norm_num) hk h).short

theorem numberText_isWord (n : ℕ) : ∀ c ∈ numberText 10 n, isWord c = true :=
  (numberText_word (by norm_num) (by norm_num) (Nat.succ_pos n)
    ((Nat.lt_succ_self n).trans (Nat.lt_pow_self (by norm_num)))).isWord

theorem paddedText_isWord (width n : ℕ) : ∀ c ∈ paddedText width n, isWord c = true := by
  intro c hc
  rcases List.mem_append.mp hc with hc | hc
  · rw [List.eq_of_mem_replicate hc]
    decide
  · exact numberText_isWord n c hc

theorem paddedInt_isWord (width : ℕ) (n : ℤ) : ∀ c ∈ paddedInt width n, isWord c = true := by
  have hminus : isWord 45 = true := by decide
  unfold paddedInt
  split
  · exact List.forall_mem_cons.mpr ⟨hminus,paddedText_isWord _ _⟩
  · exact paddedText_isWord _ _

/-- A date and a time of day need no escapes, whatever the fields are. -/
theorem tmToIsotime_isWord (tm : Tm) (usec : ℤ) : ∀ c ∈ tmToIsotime tm usec, isWord c = true := by
  have hpunctuation : isWord 45 = true ∧ isWord 84 = true ∧ isWord 58 = true ∧ isWord 46 = true ∧ isWord 43 = true := by
    decide
  obtain ⟨hminus,ht,hcolon,hdot,hplus⟩ := hpunctuation
  have hzone : ∀ c ∈ zoneText tm.gmtoff, isWord c = true := by
    unfold zoneText
    simp only [List.forall_mem_cons,List.forall_mem_append]
    refine ⟨?_,paddedInt_isWord _ _,hcolon,paddedInt_isWord _ _⟩
    split <;> assumption
  have hfraction : ∀ c ∈ if usec ≠ 0 then 46 :: paddedInt 0 usec else [], isWord c = true := by
    split
    · exact List.forall_mem_cons.mpr ⟨hdot,paddedInt_isWord _ _⟩
    · simp
  unfold tmToIsotime
  simp only [List.forall_mem_cons,List.forall_mem_append]
  exact ⟨numberText_isWord _,hminus,paddedText_isWord _ _,hminus,paddedText_isWord _ _,ht,paddedText_isWord _ _,
    hcolon,paddedText_isWord _ _,hcolon,paddedText_isWord _ _,hfraction,hzone⟩

theorem printNsecTimestamp_word {nsecTs : UInt64} {text : List UInt8}
    (h : printNsecTimestamp nsecTs 64 = .ok text) : WordPiece 63 text := by
  unfold printNsecTimestamp at h
  by_cases hfits : nsecsToSecs nsecTs * 1000000000 < 2 ^ 63
  · rw [if_pos hfits] at h
    rw [← Except.ok.inj h]
    exact .take (tmToIsotime_isWord _ _) _
  · rw [if_neg hfits] at h
    cases h

theorem timestampText_word (nsecTs : UInt64) : WordPiece 63 (timestampText nsecTs) := by
  unfold timestampText
  cases htext : printNsecTimestamp nsecTs 64 with
  | ok text => exact printNsecTimestamp_word htext
  | error fault => exact .of_check rfl

theorem uint16_piece (x : UInt16) : ValuePiece 5 (numberText 10 x.toNat) :=
  number_piece (by norm_num) (by have := x.toNat_lt; omega)

theorem uint32_piece (x : UInt32) : ValuePiece 10 (numberText 10 x.toNat) :=
  number_piece (by norm_num) (by have := x.toNat_lt; omega)

theorem fractionText_fraction {millionths : ℕ} (h : millionths < 10 ^ 6) :
    Fraction (fractionText millionths) ∧ (fractionText millionths).length ≤ 7 := by
  rw [fractionText]
  split_ifs with hzero
  · exact ⟨.inl rfl,by simp⟩
  · have hlt : ∀ d ∈ Decimals.dropZeros (Decimals.digits 6 millionths), d < 10 :=
      fun d hd => Decimals.digits_lt h d (Decimals.mem_of_mem_dropZeros hd)
    refine ⟨.inr ⟨_,by simpa using Decimals.dropZeros_digits_ne_nil h hzero,allDigits_map hlt,rfl⟩,?_⟩
    have hlen := Decimals.length_dropZeros_le (Decimals.digits 6 millionths)
    rw [Decimals.length_digits] at hlen
    simpa using Nat.lt_succ_of_le hlen

theorem canonical_piece {value : ℕ} (h : value < 10 ^ 9) : ValuePiece 10 (canonical value) := by
  obtain ⟨hdigits,hne,-⟩ := numberText_digits (value / 10 ^ 6)
  obtain ⟨hfrac,hlen⟩ := fractionText_fraction (Nat.mod_lt value (show 10 ^ 6 > 0 by norm_num))
  have hint := (numberText_word (k := 3) (by norm_num) (by norm_num) (by norm_num)
    (show value / 10 ^ 6 < 10 ^ 3 by omega)).short
  rw [canonical]
  refine .number (isNumberText_decimal hne hdigits numberText_head hfrac) (isWordByte_decimal hdigits hfrac) ?_
  rw [List.length_append]
  omega

/-- A component of a color is printed in full. -/
theorem component_piece (encoded : UInt16) {stop : ℕ} (hstop : stop ≤ 360) :
    ValuePiece 10 (uint16RangeToFloatString encoded 0 stop 16) := by
  have hencoded := encoded.toNat_lt
  have hvalue : encoded.toNat * (stop * floatPrec - 0 * floatPrec) / 65535 < 10 ^ 9 := by
    have hmul : encoded.toNat * (stop * floatPrec) ≤ 65535 * (360 * floatPrec) :=
      Nat.mul_le_mul (by omega) (Nat.mul_le_mul_right _ hstop)
    rw [Nat.zero_mul,Nat.sub_zero]
    rw [floatPrec] at hmul ⊢
    omega
  have hpiece := canonical_piece hvalue
  rw [uint16RangeToFloatString_eq _ _ _ (by norm_num),valueText_eq_canonical,List.take_of_length_le]
  · exact hpiece
  · exact hpiece.short.trans (by norm_num)

end Numbers
section Bulbs

/-- Whether the bits are those of a finite number. -/
def isFinite (bits : UInt32) : Bool := bits.toNat / 2 ^ 23 % 256 ≠ 255

/-- The C library prints any Internet address in a buffer for the longest one, without quotes
and escapes, and finite floats as decimal numbers. -/
structure Printer.Sound (p : Printer) : Prop where
  inetNtop : ∀ family addr size, family ≠ .unix → 46 ≤ size →
    ∃ text, p.inetNtop family addr size = some text ∧ WordPiece 45 text
  float : ∀ x, isFinite x = true → isNumberText (p.float x) = true ∧ (∀ c ∈ p.float x, isWordByte c = true) ∧
    (p.float x).length ≤ 47

/-- The address is one of the Internet, as those of the peers of a UDP socket are. -/
def Internet (peer : SockAddr) : Prop := saFamily peer = some .inet ∨ saFamily peer = some .inet6

/-- The model and the vendor of a bulb are those of a product, if they are known. -/
structure Named (b : Bulb) : Prop where
  model : ∀ m ∈ b.model, ∃ vendorId productId, m = getModelName vendorId productId
  vendor : ∀ v ∈ b.vendor, ∃ vendorId, v = getVendorName vendorId

theorem modelName_word (vendorId productId : UInt32) : WordPiece 15 (ascii (getModelName vendorId productId)) := by
  unfold getModelName
  split_ifs
  · exact .of_check rfl
  · split <;> exact .of_check rfl

theorem vendorName_word (vendorId : UInt32) : WordPiece 15 (ascii (getVendorName vendorId)) := by
  rw [getVendorName]
  split_ifs <;> exact .of_check rfl

theorem stringOrNull_piece {name : Option String} (h : ∀ m ∈ name, WordPiece 15 (ascii m)) :
    ValuePiece 17 (stringOrNull name) := by
  cases name with
  | none =>
    have htext : stringOrNull none = nullText := rfl
    rw [htext]
    exact ValuePiece.null.mono (by norm_num)
  | some m =>
    have hquote : ascii "\"" = [34] := rfl
    have htext : stringOrNull (some m) = literal (ascii m) := by simp [stringOrNull,literal,hquote]
    rw [htext]
    exact (h m rfl).literal

theorem hexByte_word (b : UInt8) : WordPiece 2 (hexByte b) := by
  have hb := b.toNat_lt
  have hhigh : PlainByte (digitText (b.toNat / 16)) ∧ digitText (b.toNat / 16) < 128 := digitText_word (by omega)
  have hlow : PlainByte (digitText (b.toNat % 16)) ∧ digitText (b.toNat % 16) < 128 := digitText_word (by omega)
  exact ⟨by simpa [hexByte,Plain] using ⟨hhigh.1,hlow.1⟩,by simpa [hexByte,Ascii] using ⟨hhigh.2,hlow.2⟩,le_rfl⟩

theorem exists_bytes (addr : Addr) : ∃ b₀ b₁ b₂ b₃ b₄ b₅, addr.toList = [b₀,b₁,b₂,b₃,b₄,b₅] := by
  have hlen : addr.toList.length = 6 := by simp
  match addr.toList, hlen with
  | [b₀,b₁,b₂,b₃,b₄,b₅], _ => exact ⟨b₀,b₁,b₂,b₃,b₄,b₅,rfl⟩

theorem macText_word (addr : Addr) : WordPiece 17 (macText addr) := by
  obtain ⟨b₀,b₁,b₂,b₃,b₄,b₅,h⟩ := exists_bytes addr
  have hcolon : WordPiece 1 [58] := .of_check rfl
  have htext : macText addr = hexByte b₀ ++ ([58] ++ (hexByte b₁ ++ ([58] ++ (hexByte b₂ ++ ([58] ++ (hexByte b₃ ++
      ([58] ++ (hexByte b₄ ++ ([58] ++ hexByte b₅))))))))) := by
    simp [macText,h,List.intercalate]
  rw [htext]
  have hb := hexByte_word
  exact (hb b₀).append (hcolon.append ((hb b₁).append (hcolon.append ((hb b₂).append (hcolon.append ((hb b₃).append
    (hcolon.append ((hb b₄).append (hcolon.append (hb b₅))))))))))

theorem bulbId_word (addr : Addr) : WordPiece 12 (addr.toList.flatMap hexByte) := by
  obtain ⟨b₀,b₁,b₂,b₃,b₄,b₅,h⟩ := exists_bytes addr
  have hb := hexByte_word
  simpa [h] using (hb b₀).append ((hb b₁).append ((hb b₂).append ((hb b₃).append ((hb b₄).append (hb b₅)))))

theorem firmwareVersion_word (version : UInt32) : WordPiece 11 (firmwareVersion version) := by
  have hversion := version.toNat_lt
  have hmajor : WordPiece 5 (numberText 10 (version.toNat / 2 ^ 16)) :=
    numberText_word (by norm_num) (by norm_num) (by norm_num) (by omega)
  have hminor : WordPiece 5 (numberText 10 (version.toNat % 2 ^ 16)) :=
    numberText_word (by norm_num) (by norm_num) (by norm_num) (by omega)
  have hdot : WordPiece 1 (ascii ".") := .of_check rfl
  exact (hmajor.append hdot).append hminor

/-- The text of a bulb up to what is known of its IP stacks. -/
def addressesText (set : Setting) (gw : Gateway) (b : Bulb) : List UInt8 :=
  ascii "\x7b\"_lifx\":\x7b\"addr\":\"" ++ macText b.addr ++ ascii "\",\"gateway\":\x7b\"site\":\"" ++
    macText gw.site ++ ascii "\",\"url\":\"tcp://" ++ peerText set.printer gw.peer ++
    ascii "\",\"latency\":" ++ numberText 10 gw.latency.toNat ++ ascii "\x7d"

/-- The text of a bulb from its model to its power. -/
def stateText (b : Bulb) : List UInt8 :=
  ascii ",\"_model\":" ++ stringOrNull b.model ++ ascii ",\"_vendor\":" ++ stringOrNull b.vendor ++
    ascii ",\"hsbk\":[" ++ uint16RangeToFloatString b.state.hue 0 360 16 ++ ascii "," ++
    uint16RangeToFloatString b.state.saturation 0 1 16 ++ ascii "," ++
    uint16RangeToFloatString b.state.brightness 0 1 16 ++ ascii "," ++
    numberText 10 b.state.kelvin.toNat ++ ascii "],\"power\":" ++
    (if b.state.power = powerOn then ascii "true" else ascii "false")

theorem bulbText_eq (set : Setting) (gw : Gateway) (b : Bulb) : bulbText set gw b =
    addressesText set gw b ++ ipText set .mcu (b.ips .mcu) ++ ipText set .wifi (b.ips .wifi) ++ infoText set b ++
      stateText b ++ (ascii ",\"label\":\"" ++ bulbLabel b ++ ascii "\",\"tags\":[") := by
  unfold bulbText addressesText stateText
  simp only [List.append_assoc]

theorem bulbText_start (set : Setting) (gw : Gateway) (b : Bulb) : ∃ text, bulbText set gw b = 123 :: 34 :: text := by
  have h : ascii "\x7b\"_lifx\":\x7b\"addr\":\"" = 123 :: 34 :: ascii "_lifx\":\x7b\"addr\":\"" := rfl
  have haddresses : ∃ text, addressesText set gw b = 123 :: 34 :: text := by
    unfold addressesText
    rw [h]
    exact ⟨_,rfl⟩
  obtain ⟨text,htext⟩ := haddresses
  rw [bulbText_eq,htext]
  exact ⟨_,rfl⟩

theorem peerText_word {p : Printer} (hp : p.Sound) {peer : SockAddr} (hpeer : Internet peer) :
    WordPiece 127 (peerText p peer) := by
  have hbracket : ∀ c ∈ ascii "[::ffff:" ++ ascii "[" ++ ascii "]:", isWord c = true := by decide +kernel
  simp only [List.forall_mem_append] at hbracket
  obtain ⟨⟨hmapped,hopen⟩,hclose⟩ := hbracket
  have hport := numberText_isWord (saPort peer)
  unfold peerText sockaddrtoa
  rcases hpeer with hfamily | hfamily
  · obtain ⟨text,htext,hword⟩ := hp.inetNtop .inet ((peer.drop 4).take 4) (128 - 8) (by decide) (by norm_num)
    simp only [hfamily,htext,Option.map_some,Option.getD_some]
    refine .take ?_ 127
    simp only [List.forall_mem_append]
    exact ⟨⟨hmapped,hword.isWord⟩,hclose,hport⟩
  · obtain ⟨text,htext,hword⟩ := hp.inetNtop .inet6 ((peer.drop 8).take 16) (128 - 1) (by decide) (by norm_num)
    simp only [hfamily,htext,Option.map_some,Option.getD_some]
    refine .take ?_ 127
    simp only [List.forall_mem_append]
    exact ⟨⟨hopen,hword.isWord⟩,hclose,hport⟩

variable {set : Setting} (hset : set.printer.Sound)
include hset

omit hset in
/-- Where the commas and the brackets of what is known of an IP stack are. -/
theorem ip_text (name built installed version signal tx rx temperature : List UInt8) :
    ascii ",\"" ++ name ++ ascii "\":\x7b\"firmware_built_at\":\"" ++ built ++
        ascii "\",\"firmware_installed_at\":\"" ++ installed ++ ascii "\",\"firmware_version\":\"" ++ version ++
        ascii "\",\"signal_strength\":" ++ signal ++ ascii ",\"tx_bytes\":" ++ tx ++ ascii ",\"rx_bytes\":" ++ rx ++
        ascii ",\"temperature\":" ++ temperature ++ ascii "\x7d" =
      44 :: (memberKey name ++ 123 :: (memberKey (ascii "firmware_built_at") ++ literal built ++ 44 ::
        (memberKey (ascii "firmware_installed_at") ++ literal installed ++ 44 ::
        (memberKey (ascii "firmware_version") ++ literal version ++ 44 ::
        (memberKey (ascii "signal_strength") ++ signal ++ 44 :: (memberKey (ascii "tx_bytes") ++ tx ++ 44 ::
        (memberKey (ascii "rx_bytes") ++ rx ++ 44 ::
          (memberKey (ascii "temperature") ++ temperature)))))) ++ [125])) := by
  have h₀ : ascii ",\"" = [44,34] := rfl
  have h₁ : ascii "\":\x7b\"firmware_built_at\":\"" = 34 :: 58 :: 123 :: 34 ::
    (ascii "firmware_built_at" ++ [34,58,34]) := rfl
  have h₂ : ascii "\",\"firmware_installed_at\":\"" = 34 :: 44 :: 34 ::
    (ascii "firmware_installed_at" ++ [34,58,34]) := rfl
  have h₃ : ascii "\",\"firmware_version\":\"" = 34 :: 44 :: 34 ::
    (ascii "firmware_version" ++ [34,58,34]) := rfl
  have h₄ : ascii "\",\"signal_strength\":" = 34 :: 44 :: 34 :: (ascii "signal_strength" ++ [34,58]) := rfl
  have h₅ : ascii ",\"tx_bytes\":" = 44 :: 34 :: (ascii "tx_bytes" ++ [34,58]) := rfl
  have h₆ : ascii ",\"rx_bytes\":" = 44 :: 34 :: (ascii "rx_bytes" ++ [34,58]) := rfl
  have h₇ : ascii ",\"temperature\":" = 44 :: 34 :: (ascii "temperature" ++ [34,58]) := rfl
  have h₈ : ascii "\x7d" = [125] := rfl
  simp [h₀,h₁,h₂,h₃,h₄,h₅,h₆,h₇,h₈,memberKey,literal]

/-- What is known of an IP stack is one more member. -/
theorem ipText_piece (ip : BulbIpId) {info : BulbIp}
    (hfinite : set.debug = true → isFinite info.state.signalStrength = true) :
    ∃ text, ipText set ip info = 44 :: text ∧ MembersPiece [ipName ip] 420 text := by
  have hname : WordPiece 4 (ipName ip) := by cases ip <;> exact .of_check rfl
  have hversion := MembersPiece.single (.of_check rfl : WordPiece 16 (ascii "firmware_version"))
    (firmwareVersion_word info.fwInfo.version).literal
  by_cases hdebug : set.debug = true
  · have hbuilt := MembersPiece.single (.of_check rfl : WordPiece 17 (ascii "firmware_built_at"))
      (timestampText_word info.fwInfo.builtAt).literal
    have hinstalled := MembersPiece.single (.of_check rfl : WordPiece 21 (ascii "firmware_installed_at"))
      (timestampText_word info.fwInfo.installedAt).literal
    obtain ⟨hnumber,hword,hshort⟩ := hset.float _ (hfinite hdebug)
    have hsignal := MembersPiece.single (.of_check rfl : WordPiece 15 (ascii "signal_strength"))
      (ValuePiece.number hnumber hword hshort)
    have htx := MembersPiece.single (.of_check rfl : WordPiece 8 (ascii "tx_bytes"))
      (uint32_piece info.state.txBytes)
    have hrx := MembersPiece.single (.of_check rfl : WordPiece 8 (ascii "rx_bytes"))
      (uint32_piece info.state.rxBytes)
    have htemperature := MembersPiece.single (.of_check rfl : WordPiece 11 (ascii "temperature"))
      (uint16_piece info.state.temperature)
    have hpiece := MembersPiece.single hname (hbuilt.append (hinstalled.append (hversion.append (hsignal.append
      (htx.append (hrx.append htemperature)))))).object
    rw [ipText,if_pos hdebug,ip_text]
    exact ⟨_,rfl,hpiece.mono (by norm_num)⟩
  · have hopen : ascii "\":\x7b\"firmware_version\":\"" = 34 :: 58 :: 123 :: 34 ::
        (ascii "firmware_version" ++ [34,58,34]) := rfl
    have hquote : ascii ",\"" = [44,34] := rfl
    have hclose : ascii "\"\x7d" = [34,125] := rfl
    have hpiece := MembersPiece.single hname hversion.object
    refine ⟨_,?_,hpiece.mono (by norm_num)⟩
    rw [ipText,if_neg hdebug]
    generalize firmwareVersion info.fwInfo.version = version
    simp [hquote,hopen,hclose,memberKey,literal]

omit hset in
/-- Where the commas and the brackets of what is known of a bulb are. -/
theorem info_text (vendor product version time uptime downtime : List UInt8) :
    ascii ",\"product_info\":\x7b\"vendor_id\":\"" ++ vendor ++ ascii "\",\"product_id\":\"" ++ product ++
        ascii "\",\"version\":" ++ version ++ ascii "\x7d,\"runtime_info\":\x7b\"time\":\"" ++ time ++
        ascii "\",\"uptime\":" ++ uptime ++ ascii ",\"downtime\":" ++ downtime ++ ascii "\x7d\x7d" =
      44 :: (memberKey (ascii "product_info") ++ 123 :: (memberKey (ascii "vendor_id") ++ literal vendor ++ 44 ::
        (memberKey (ascii "product_id") ++ literal product ++ 44 ::
          (memberKey (ascii "version") ++ version)) ++ [125]) ++
        44 :: (memberKey (ascii "runtime_info") ++ 123 :: (memberKey (ascii "time") ++ literal time ++ 44 ::
        (memberKey (ascii "uptime") ++ uptime ++ 44 :: (memberKey (ascii "downtime") ++ downtime)) ++ [125])) ++
        [125]) := by
  have h₁ : ascii ",\"product_info\":\x7b\"vendor_id\":\"" = 44 :: 34 :: (ascii "product_info" ++
    34 :: 58 :: 123 :: 34 :: (ascii "vendor_id" ++ [34,58,34])) := rfl
  have h₂ : ascii "\",\"product_id\":\"" = 34 :: 44 :: 34 :: (ascii "product_id" ++ [34,58,34]) := rfl
  have h₃ : ascii "\",\"version\":" = 34 :: 44 :: 34 :: (ascii "version" ++ [34,58]) := rfl
  have h₄ : ascii "\x7d,\"runtime_info\":\x7b\"time\":\"" = 125 :: 44 :: 34 :: (ascii "runtime_info" ++
    34 :: 58 :: 123 :: 34 :: (ascii "time" ++ [34,58,34])) := rfl
  have h₅ : ascii "\",\"uptime\":" = 34 :: 44 :: 34 :: (ascii "uptime" ++ [34,58]) := rfl
  have h₆ : ascii ",\"downtime\":" = 44 :: 34 :: (ascii "downtime" ++ [34,58]) := rfl
  have h₇ : ascii "\x7d\x7d" = [125,125] := rfl
  simp [h₁,h₂,h₃,h₄,h₅,h₆,h₇,memberKey,literal]

omit hset in
/-- What is known of a bulb besides its state ends an object. -/
theorem infoText_piece (set : Setting) (b : Bulb) : infoText set b = [125] ∨
    ∃ keys text, infoText set b = 44 :: (text ++ [125]) ∧ MembersPiece keys 260 text := by
  by_cases hdebug : set.debug = true
  · right
    have hid (x : UInt32) : WordPiece 8 (numberText 16 x.toNat) :=
      numberText_word (by norm_num) (by norm_num) (by norm_num) x.toNat_lt
    have hsecs (x : UInt64) : ValuePiece 20 (numberText 10 (nsecsToSecs x)) :=
      number_piece (by norm_num) (by have := x.toNat_lt; rw [nsecsToSecs]; omega)
    have hvendor := MembersPiece.single (.of_check rfl : WordPiece 9 (ascii "vendor_id"))
      (hid b.productInfo.vendorId).literal
    have hproduct := MembersPiece.single (.of_check rfl : WordPiece 10 (ascii "product_id"))
      (hid b.productInfo.productId).literal
    have hversion := MembersPiece.single (.of_check rfl : WordPiece 7 (ascii "version"))
      (uint32_piece b.productInfo.version)
    have hproductInfo := MembersPiece.single (.of_check rfl : WordPiece 12 (ascii "product_info"))
      (hvendor.append (hproduct.append hversion)).object
    have htime := MembersPiece.single (.of_check rfl : WordPiece 4 (ascii "time"))
      (timestampText_word b.runtimeInfo.time).literal
    have huptime := MembersPiece.single (.of_check rfl : WordPiece 6 (ascii "uptime"))
      (hsecs b.runtimeInfo.uptime)
    have hdowntime := MembersPiece.single (.of_check rfl : WordPiece 8 (ascii "downtime"))
      (hsecs b.runtimeInfo.downtime)
    have hruntimeInfo := MembersPiece.single (.of_check rfl : WordPiece 12 (ascii "runtime_info"))
      (htime.append (huptime.append hdowntime)).object
    rw [infoText,if_pos hdebug,info_text]
    exact ⟨_,_,rfl,(hproductInfo.append hruntimeInfo).mono (by norm_num)⟩
  · left
    have hclose : ascii "\x7d" = [125] := rfl
    rw [infoText,if_neg hdebug,hclose]

/-- The network addresses of a bulb and of its gateway. -/
theorem addresses_piece {gw : Gateway} (hpeer : Internet gw.peer) (b : Bulb) : ∃ keys text,
    addressesText set gw b = 123 :: (memberKey (ascii "_lifx") ++ 123 :: text) ∧ MembersPiece keys 260 text := by
  have haddr := MembersPiece.single (.of_check rfl : WordPiece 4 (ascii "addr")) (macText_word b.addr).literal
  have hsite := MembersPiece.single (.of_check rfl : WordPiece 4 (ascii "site")) (macText_word gw.site).literal
  have hurl := MembersPiece.single (.of_check rfl : WordPiece 3 (ascii "url"))
    ((show WordPiece 6 (ascii "tcp://") from .of_check rfl).append (peerText_word hset hpeer)).literal
  have hlatency := MembersPiece.single (.of_check rfl : WordPiece 7 (ascii "latency"))
    (show ValuePiece 20 (numberText 10 gw.latency.toNat) from
      number_piece (by norm_num) (by have := gw.latency.toNat_lt; omega))
  have hgateway := MembersPiece.single (.of_check rfl : WordPiece 7 (ascii "gateway"))
    (hsite.append (hurl.append hlatency)).object
  have h₁ : ascii "\x7b\"_lifx\":\x7b\"addr\":\"" = 123 :: 34 :: (ascii "_lifx" ++ 34 :: 58 :: 123 :: 34 ::
    (ascii "addr" ++ [34,58,34])) := rfl
  have h₂ : ascii "\",\"gateway\":\x7b\"site\":\"" = 34 :: 44 :: 34 :: (ascii "gateway" ++ 34 :: 58 :: 123 :: 34 ::
    (ascii "site" ++ [34,58,34])) := rfl
  have h₃ : ascii "\",\"url\":\"tcp://" = 34 :: 44 :: 34 :: (ascii "url" ++ 34 :: 58 :: 34 :: ascii "tcp://") := rfl
  have h₄ : ascii "\",\"latency\":" = 34 :: 44 :: 34 :: (ascii "latency" ++ [34,58]) := rfl
  have h₅ : ascii "\x7d" = [125] := rfl
  refine ⟨_,_,?_,(haddr.append hgateway).mono (by norm_num)⟩
  simp [addressesText,h₁,h₂,h₃,h₄,h₅,memberKey,literal]

variable {gw : Gateway} (hpeer : Internet gw.peer) {b : Bulb}
  (hfinite : set.debug = true → ∀ ip, isFinite (b.ips ip).state.signalStrength = true)
include hpeer hfinite

theorem lifx_piece : ∃ text,
    addressesText set gw b ++ ipText set .mcu (b.ips .mcu) ++ ipText set .wifi (b.ips .wifi) ++ infoText set b =
      123 :: text ∧ MembersPiece [ascii "_lifx"] 1400 text := by
  obtain ⟨_,addresses,haddresses,hpiece⟩ := addresses_piece hset hpeer b
  obtain ⟨mcu,hmcu,hmcuPiece⟩ := ipText_piece hset .mcu (fun hdebug => hfinite hdebug .mcu)
  obtain ⟨wifi,hwifi,hwifiPiece⟩ := ipText_piece hset .wifi (fun hdebug => hfinite hdebug .wifi)
  have hkey : WordPiece 5 (ascii "_lifx") := .of_check rfl
  rw [haddresses,hmcu,hwifi]
  rcases infoText_piece set b with hinfo | ⟨_,info,hinfo,hinfoPiece⟩
  · have hlifx := MembersPiece.single hkey (hpiece.append (hmcuPiece.append hwifiPiece)).object
    refine ⟨_,?_,hlifx.mono (by norm_num)⟩
    simp [hinfo]
  · have hlifx := MembersPiece.single hkey (hpiece.append (hmcuPiece.append (hwifiPiece.append hinfoPiece))).object
    refine ⟨_,?_,hlifx.mono (by norm_num)⟩
    simp [hinfo]

/-- The members of the object of a bulb before its label. -/
def knownKeys : List (List UInt8) := ["_lifx","_model","_vendor","hsbk","power"].map ascii

omit hset hpeer hfinite in
/-- Where the commas and the brackets of the members of a state are. -/
theorem state_text (model vendor hue saturation brightness kelvin power : List UInt8) :
    ascii ",\"_model\":" ++ model ++ ascii ",\"_vendor\":" ++ vendor ++ ascii ",\"hsbk\":[" ++ hue ++ ascii "," ++
        saturation ++ ascii "," ++ brightness ++ ascii "," ++ kelvin ++ ascii "],\"power\":" ++ power =
      44 :: (memberKey (ascii "_model") ++ model ++ 44 :: (memberKey (ascii "_vendor") ++ vendor ++ 44 ::
        (memberKey (ascii "hsbk") ++ 91 :: (hue ++ 44 :: (saturation ++ 44 :: (brightness ++ 44 :: kelvin)) ++ [93]) ++
          44 :: (memberKey (ascii "power") ++ power)))) := by
  have h₁ : ascii ",\"_model\":" = 44 :: 34 :: (ascii "_model" ++ [34,58]) := rfl
  have h₂ : ascii ",\"_vendor\":" = 44 :: 34 :: (ascii "_vendor" ++ [34,58]) := rfl
  have h₃ : ascii ",\"hsbk\":[" = 44 :: 34 :: (ascii "hsbk" ++ [34,58,91]) := rfl
  have h₄ : ascii "," = [44] := rfl
  have h₅ : ascii "],\"power\":" = 93 :: 44 :: 34 :: (ascii "power" ++ [34,58]) := rfl
  simp [h₁,h₂,h₃,h₄,h₅,memberKey]

omit hset hpeer hfinite in
theorem state_piece (hnamed : Named b) : ∃ text, stateText b = 44 :: text ∧
      MembersPiece ([ascii "_model"] ++ ([ascii "_vendor"] ++ ([ascii "hsbk"] ++ [ascii "power"]))) 150 text := by
  have hmodelName : ValuePiece 17 (stringOrNull b.model) := by
    apply stringOrNull_piece
    intro m hm
    obtain ⟨vendorId,productId,rfl⟩ := hnamed.model m hm
    exact modelName_word vendorId productId
  have hvendorName : ValuePiece 17 (stringOrNull b.vendor) := by
    apply stringOrNull_piece
    intro v hv
    obtain ⟨vendorId,rfl⟩ := hnamed.vendor v hv
    exact vendorName_word vendorId
  have hmodel := MembersPiece.single (.of_check rfl : WordPiece 6 (ascii "_model")) hmodelName
  have hvendor := MembersPiece.single (.of_check rfl : WordPiece 7 (ascii "_vendor")) hvendorName
  have hhsbk := MembersPiece.single (.of_check rfl : WordPiece 4 (ascii "hsbk"))
    ((component_piece b.state.hue (show 360 ≤ 360 by norm_num)).items.append
      ((component_piece b.state.saturation (show 1 ≤ 360 by norm_num)).items.append
        ((component_piece b.state.brightness (show 1 ≤ 360 by norm_num)).items.append
          (uint16_piece b.state.kelvin).items))).array
  have hpower := MembersPiece.single (.of_check rfl : WordPiece 5 (ascii "power"))
    (ValuePiece.bool (decide (b.state.power = powerOn)))
  have hpowerText : (if b.state.power = powerOn then ascii "true" else ascii "false") =
      boolText (decide (b.state.power = powerOn)) := by
    have htrue : ascii "true" = boolText true := rfl
    have hfalse : ascii "false" = boolText false := rfl
    split_ifs with h <;> simp [h,htrue,hfalse]
  unfold stateText
  rw [hpowerText,state_text]
  exact ⟨_,rfl,(hmodel.append (hvendor.append (hhsbk.append hpower))).mono (by norm_num)⟩

/-- The text of a bulb is an object, with the label between quotes as it is and with the tags left open. -/
theorem bulbText_piece (hnamed : Named b) : ∃ text, bulbText set gw b =
    123 :: (text ++ 44 :: (memberKey (ascii "label") ++ (literal (bulbLabel b) ++
      44 :: (memberKey (ascii "tags") ++ [91])))) ∧ MembersPiece knownKeys 1600 text := by
  obtain ⟨lifx,hlifx,hlifxPiece⟩ := lifx_piece hset hpeer hfinite
  obtain ⟨state,hstate,hstatePiece⟩ := state_piece hnamed
  have hlabel : ascii ",\"label\":\"" = 44 :: 34 :: (ascii "label" ++ [34,58,34]) := rfl
  have htags : ascii "\",\"tags\":[" = 34 :: 44 :: 34 :: (ascii "tags" ++ [34,58,91]) := rfl
  have hkeys : knownKeys = [ascii "_lifx"] ++ ([ascii "_model"] ++ ([ascii "_vendor"] ++ ([ascii "hsbk"] ++
    [ascii "power"]))) := by simp [knownKeys]
  rw [hkeys]
  refine ⟨_,?_,(hlifxPiece.append hstatePiece).mono (by norm_num)⟩
  rw [bulbText_eq,hlifx,hstate,hlabel,htags]
  simp [memberKey,literal]

omit hset hpeer hfinite in
theorem length_cString_label (b : Bulb) : (cString b.state.label.toList).length ≤ 32 := by
  have hlen : b.state.label.toList.length = 32 := by simp
  exact (List.takeWhile_prefix _).length_le.trans hlen.le

/-- The text of a bulb always fits the buffer. -/
theorem bulbText_fits (hnamed : Named b) : (bulbText set gw b).length < bufferSize := by
  obtain ⟨text,htext,hpiece⟩ := bulbText_piece hset hpeer hfinite hnamed
  have hshort := hpiece.short
  have hlabel : (bulbLabel b).length ≤ 32 := by
    have hlen := length_cString_label b
    rw [bulbLabel]
    split
    · exact (bulbId_word b.addr).short.trans (by norm_num)
    · exact hlen
  have hkeys : (ascii "label").length = 5 ∧ (ascii "tags").length = 4 := ⟨rfl,rfl⟩
  rw [htext]
  simp only [memberKey,literal,bufferSize,List.length_cons,List.length_append,List.length_nil,hkeys.1,hkeys.2]
  omega

end Bulbs

section Library

/-- The numbers of an Internet address, without the abbreviation for zeros. -/
def addressText (addr : List UInt8) : AddressFamily → List UInt8
  | .inet => [46].intercalate ((List.range 4).map (fun i => numberText 10 (addr.getD i 0).toNat))
  | .inet6 => [58].intercalate ((List.range 8).map (fun i =>
      numberText 16 (256 * (addr.getD (2 * i) 0).toNat + (addr.getD (2 * i + 1) 0).toNat)))
  | .unix => []

/-- A quotient rounded to the nearest number, and to the even one of two. -/
def roundEven (n d : ℕ) : ℕ :=
  if 2 * (n % d) < d ∨ 2 * (n % d) = d ∧ n / d % 2 = 0 then n / d else n / d + 1

/-- The magnitude of a finite float in millionths. -/
def floatMillionths (bits : UInt32) : ℕ :=
  let e := bits.toNat / 2 ^ 23 % 256
  let m := bits.toNat % 2 ^ 23 + if e = 0 then 0 else 2 ^ 23
  roundEven (m * 2 ^ max e 1 * 10 ^ 6) (2 ^ 150)

def millionthsDecimal (minus : Bool) (value : ℕ) : List UInt8 :=
  (if minus then [45] else []) ++ (numberText 10 (value / 10 ^ 6) ++ 46 :: paddedText 6 (value % 10 ^ 6))

/-- What `%f` prints for a finite float. -/
def floatText (bits : UInt32) : List UInt8 := millionthsDecimal bits.toBitVec.msb (floatMillionths bits)

/-- A C library. -/
def libraryPrinter : Printer where
  inetNtop family addr size :=
    if family = .unix ∨ size ≤ (addressText addr family).length then none else some (addressText addr family)
  float := floatText

/-- The daemon as it prints the most. -/
def debugSetting : Setting := ⟨0,true,libraryPrinter⟩

theorem addressText_word (addr : List UInt8) {family : AddressFamily} : WordPiece 45 (addressText addr family) := by
  cases family with
  | inet =>
    refine (WordPiece.intercalate (n := 3) (.of_check rfl) (fun text htext => ?_)).mono (by simp)
    obtain ⟨i,-,rfl⟩ := List.mem_map.mp htext
    exact numberText_word (by norm_num) (by norm_num) (by norm_num) (by have := (addr.getD i 0).toNat_lt; omega)
  | inet6 =>
    refine (WordPiece.intercalate (n := 4) (.of_check rfl) (fun text htext => ?_)).mono (by simp)
    obtain ⟨i,-,rfl⟩ := List.mem_map.mp htext
    have hhigh := (addr.getD (2 * i) 0).toNat_lt
    have hlow := (addr.getD (2 * i + 1) 0).toNat_lt
    exact numberText_word (by norm_num) (by norm_num) (by norm_num) (by omega)
  | unix => exact .of_check rfl

theorem roundEven_le (n d : ℕ) : roundEven n d ≤ n / d + 1 := by
  unfold roundEven
  split <;> omega

theorem floatMillionths_lt {bits : UInt32} (h : isFinite bits = true) :
    floatMillionths bits / 10 ^ 6 < 10 ^ 39 := by
  have hexp : max (bits.toNat / 2 ^ 23 % 256) 1 ≤ 254 := by
    have hne : bits.toNat / 2 ^ 23 % 256 ≠ 255 := by simpa [isFinite] using h
    omega
  have hpow : 2 ^ max (bits.toNat / 2 ^ 23 % 256) 1 ≤ 2 ^ 254 := Nat.pow_le_pow_right (by norm_num) hexp
  have hm : (bits.toNat % 2 ^ 23 + if bits.toNat / 2 ^ 23 % 256 = 0 then 0 else 2 ^ 23) ≤ 2 ^ 24 := by
    split <;> omega
  have hvalue := roundEven_le ((bits.toNat % 2 ^ 23 + if bits.toNat / 2 ^ 23 % 256 = 0 then 0 else 2 ^ 23) *
    2 ^ max (bits.toNat / 2 ^ 23 % 256) 1 * 10 ^ 6) (2 ^ 150)
  have hmul := Nat.mul_le_mul_right (10 ^ 6) (Nat.mul_le_mul hm hpow)
  rw [floatMillionths]
  norm_num at hmul hvalue ⊢
  omega

theorem paddedText_six {n : ℕ} (h : n < 10 ^ 6) : Fraction (46 :: paddedText 6 n) ∧ (paddedText 6 n).length = 6 := by
  obtain ⟨hdigits,hne,-⟩ := numberText_digits n
  have hlen := (numberText_word (by norm_num) (by norm_num) (by norm_num) h).short
  refine ⟨.inr ⟨_,?_,?_,rfl⟩,by simp [paddedText]; omega⟩
  · simp [paddedText,hne]
  · intro c hc
    rcases List.mem_append.mp hc with hc | hc
    · rw [List.eq_of_mem_replicate hc]
      decide
    · exact hdigits c hc

theorem signed_number (minus : Bool) {text : List UInt8} {n : ℕ} (hnumber : isNumberText text = true)
    (hhead : text.head? ≠ some 45) (hword : ∀ c ∈ text, isWordByte c = true) (hlen : text.length ≤ n) :
    isNumberText ((if minus then [45] else []) ++ text) = true ∧
      (∀ c ∈ (if minus then [45] else []) ++ text, isWordByte c = true) ∧
      ((if minus then [45] else []) ++ text).length ≤ n + 1 := by
  cases minus with
  | true => exact ⟨isNumberText_minus hnumber hhead,List.forall_mem_cons.mpr ⟨by decide,hword⟩,Nat.succ_le_succ hlen⟩
  | false => exact ⟨hnumber,hword,hlen.trans (Nat.le_succ n)⟩

theorem millionthsDecimal_number (minus : Bool) {value : ℕ} (h : value / 10 ^ 6 < 10 ^ 39) :
    isNumberText (millionthsDecimal minus value) = true ∧
      (∀ c ∈ millionthsDecimal minus value, isWordByte c = true) ∧ (millionthsDecimal minus value).length ≤ 47 := by
  obtain ⟨hdigits,hne,-⟩ := numberText_digits (value / 10 ^ 6)
  obtain ⟨hfrac,hsix⟩ := paddedText_six (Nat.mod_lt value (show 10 ^ 6 > 0 by norm_num))
  have hlen := (numberText_word (by norm_num) (by norm_num) (by norm_num) h).short
  refine signed_number minus (isNumberText_decimal hne hdigits numberText_head hfrac) ?_
    (isWordByte_decimal hdigits hfrac) ?_
  · rw [List.head?_append_of_ne_nil _ hne]
    intro hminus
    exact absurd (hdigits 45 (List.mem_of_mem_head? hminus)) (by decide)
  · simp only [List.length_append,List.length_cons,hsix]
    omega

theorem libraryPrinter_sound : libraryPrinter.Sound where
  inetNtop family addr size hfamily hsize := by
    have hword := @addressText_word addr family
    have hshort := hword.short
    have hfits : ¬ (family = .unix ∨ size ≤ (addressText addr family).length) := by
      rintro (hunix | hlong)
      · exact hfamily hunix
      · omega
    exact ⟨_,if_neg hfits,hword⟩
  float _ hfinite := millionthsDecimal_number _ (floatMillionths_lt hfinite)

example : timestampText 0 = ascii "1970-01-01T00:00:00+00:00" ∧ floatText 0 = ascii "0.000000" ∧
    floatText 0xbdcccccd = ascii "-0.100000" ∧
    peerText libraryPrinter [2,0,221,124,192,168,1,10] = ascii "[::ffff:192.168.1.10]:56700" := by
  decide +kernel

end Library
end Lightsd.Core.Jsonrpc
