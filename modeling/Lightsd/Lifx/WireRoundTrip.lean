import Lightsd.Lifx.HostOrder

/-! # The wire format does not depend on the host

What a host of either byte order sends are the bytes of the little-endian model, and what
it makes of received bytes are the numbers of that model. The protocol word is the only
field where the two kinds of host keep different numbers, each to be read with its own
masks.
-/
namespace Lightsd.Lifx

open ByteOrder

section Conversions
variable (o : Order)

theorem convert16_toNat (x : UInt16) : (convert16 o x).toNat = o.convert 2 x.toNat := by
  have hlt := o.convert_lt (n := 2) x.toNat_lt
  simpa [convert16] using Nat.mod_eq_of_lt hlt

theorem convert32_toNat (x : UInt32) : (convert32 o x).toNat = o.convert 4 x.toNat := by
  have hlt := o.convert_lt (n := 4) x.toNat_lt
  simpa [convert32] using Nat.mod_eq_of_lt hlt

theorem convert64_toNat (x : UInt64) : (convert64 o x).toNat = o.convert 8 x.toNat := by
  have hlt := o.convert_lt (n := 8) x.toNat_lt
  simpa [convert64] using Nat.mod_eq_of_lt hlt

@[simp] theorem store_convert16 (x : UInt16) : o.store 2 (convert16 o x).toNat = bytes 2 x.toNat := by
  rw [convert16_toNat,o.store_convert]

@[simp] theorem store_convert32 (x : UInt32) : o.store 4 (convert32 o x).toNat = bytes 4 x.toNat := by
  rw [convert32_toNat,o.store_convert]

@[simp] theorem store_convert64 (x : UInt64) : o.store 8 (convert64 o x).toNat = bytes 8 x.toNat := by
  rw [convert64_toNat,o.store_convert]

theorem convert16_load {bs : List UInt8} (h : bs.length = 2) :
    convert16 o (UInt16.ofNat (o.load bs)) = UInt16.ofNat (value bs) := by
  have hlt := o.load_lt bs
  rw [h] at hlt
  have hload : (UInt16.ofNat (o.load bs)).toNat = o.load bs := by simpa using Nat.mod_eq_of_lt hlt
  rw [convert16,hload,← h,o.convert_load]

theorem convert32_load {bs : List UInt8} (h : bs.length = 4) :
    convert32 o (UInt32.ofNat (o.load bs)) = UInt32.ofNat (value bs) := by
  have hlt := o.load_lt bs
  rw [h] at hlt
  have hload : (UInt32.ofNat (o.load bs)).toNat = o.load bs := by simpa using Nat.mod_eq_of_lt hlt
  rw [convert32,hload,← h,o.convert_load]

@[simp] theorem storeVector_toList (n x : ℕ) : (storeVector o n x).toList = o.store n x := by
  simp [storeVector,Vector.toList]

theorem convertTarget_toList (target : Vector UInt8 8) :
    (convertTarget o target).toList = bytes 8 (o.load target.toList) := by
  rw [convertTarget,storeVector_toList,o.store_convert]

end Conversions

@[simp] theorem window_length (b : Buffer) (offset n : ℕ) : (b.window offset n).length = n := by
  simp [Buffer.window]

theorem vector_toList (b : Buffer) (offset n : ℕ) : (b.vector offset n).toList = b.window offset n := by
  apply List.ext_getElem
  · simp
  · intro i h₁ h₂
    simp [Buffer.vector,Buffer.window]

theorem window_bufferOf {bs : List UInt8} {offset n : ℕ} (h : offset + n ≤ bs.length) :
    (bufferOf bs).window offset n = (bs.drop offset).take n := by
  apply List.ext_getElem
  · simp
    omega
  · intro i h₁ h₂
    have hi : i < n := by simpa using h₁
    have hlt : offset + i < bs.length := by omega
    simp [Buffer.window,bufferOf,List.getElem?_eq_getElem hlt]

/-- Where the fields of a header are. -/
theorem window_toBytes (h : Header) :
    (bufferOf h.toBytes).window 0 2 = bytes 2 h.size.toNat ∧
    (bufferOf h.toBytes).window 2 2 = bytes 2 h.protocol.toNat ∧
    (bufferOf h.toBytes).window 4 4 = bytes 4 h.source.toNat ∧
    (bufferOf h.toBytes).window 8 8 = h.target.toList ∧
    (bufferOf h.toBytes).window 16 6 = h.site.toList ∧
    (bufferOf h.toBytes).window 22 2 = [h.flags,h.seqn] ∧
    (bufferOf h.toBytes).window 24 8 = bytes 8 h.atTime.toNat ∧
    (bufferOf h.toBytes).window 32 2 = bytes 2 h.packetType.toNat := by
  have hlen : h.toBytes.length = 36 := h.toBytes_length
  have hw : ∀ offset n, offset + n ≤ 36 →
      (bufferOf h.toBytes).window offset n = (h.toBytes.drop offset).take n :=
    fun offset n hle => window_bufferOf (by omega)
  refine ⟨?_,?_,?_,?_,?_,?_,?_,?_⟩ <;> rw [hw _ _ (by omega)] <;>
    simp [Header.toBytes,List.drop_append,List.take_append,List.drop_eq_nil_of_le]

/-- Reading a header back. -/
theorem decodeHeader_toBytes (h : Header) : decodeHeader (bufferOf h.toBytes) = h := by
  obtain ⟨hsize,hprotocol,hsource,htarget,hsite,hflags,hat,htype⟩ := window_toBytes h
  have htarget' : (bufferOf h.toBytes).vector 8 8 = h.target :=
    Vector.toList_inj.mp ((vector_toList _ 8 8).trans htarget)
  have hsite' : (bufferOf h.toBytes).vector 16 6 = h.site :=
    Vector.toList_inj.mp ((vector_toList _ 16 6).trans hsite)
  have hflags' : bufferOf h.toBytes 22 = h.flags ∧ bufferOf h.toBytes 23 = h.seqn := by
    simpa [Buffer.window,List.range_succ] using hflags
  simp only [decodeHeader,Buffer.le16,Buffer.le32,Buffer.le64,Buffer.le,hsize,hprotocol,hsource,hat,htype,
    htarget',hsite',hflags'.1,hflags'.2,value_bytes (n := 2) h.size.toNat_lt,
    value_bytes (n := 4) h.source.toNat_lt,value_bytes (n := 8) h.atTime.toNat_lt,
    value_bytes (n := 2) h.packetType.toNat_lt,value_bytes (n := 2) h.protocol.isLt,
    UInt16.ofNat_toNat,UInt32.ofNat_toNat,UInt64.ofNat_toNat]
  have hp : (UInt16.ofNat h.protocol.toNat).toBitVec = h.protocol := by simp
  rw [hp]

theorem tags_toList (mask : TagMask) : (Target.tags mask).bytes.toList = bytes 8 mask.toNat := by
  apply List.ext_getElem
  · simp
  · intro i h₁ h₂
    simp [Target.bytes,bytes]

/-- What a host of either kind sends as a header. -/
theorem memory_setupHeaderOn (o : Order) (clientId : UInt32) (target : Target) (site : Option Addr)
    (info : PacketInfo) :
    (setupHeaderOn o clientId target site info).memory o =
      (setupHeader clientId target site info).toBytes := by
  have htagged : o.store 2 ((convert16 o (UInt16.ofBitVec protocolV1)).toBitVec |||
      protocolAddressableOn o ||| protocolTaggedOn o).toNat =
        bytes 2 (protocolV1 ||| protocolAddressable ||| protocolTagged).toNat := by
    cases o <;> decide
  have haddressed : o.store 2 ((convert16 o (UInt16.ofBitVec protocolV1)).toBitVec |||
      protocolAddressableOn o).toNat = bytes 2 (protocolV1 ||| protocolAddressable).toNat := by
    cases o <;> decide
  have hzero : (convertTarget o (Vector.replicate 8 0)).toList = (Vector.replicate 8 (0 : UInt8)).toList := by
    cases o <;> decide
  cases target with
  | site | allDevices =>
    simp [-BitVec.toNat_or,setupHeaderOn,encodeHeaderOn,plainHeader,Header.memory,Header.toBytes,
      setupHeader,htagged,hzero,Target.tagged,Target.bytes]
  | tags mask =>
    have hmask : (convertTarget o (storeVector o 8 mask.toNat)).toList =
        (Target.tags mask).bytes.toList := by
      rw [convertTarget_toList,storeVector_toList,o.load_store mask.isLt,tags_toList]
    simp [-BitVec.toNat_or,setupHeaderOn,encodeHeaderOn,plainHeader,Header.memory,Header.toBytes,
      setupHeader,htagged,hmask,Target.tagged]
  | device addr =>
    simp [-BitVec.toNat_or,setupHeaderOn,encodeHeaderOn,plainHeader,Header.memory,Header.toBytes,
      setupHeader,haddressed,Target.tagged]

/-- A host of either kind makes of received bytes what the little-endian model makes of
them, but for the protocol word and the target. -/
theorem decodeHeaderOn_ofMemory (o : Order) (b : Buffer) :
    (decodeHeaderOn o (.ofMemory o b)).size = (decodeHeader b).size ∧
    (decodeHeaderOn o (.ofMemory o b)).source = (decodeHeader b).source ∧
    (decodeHeaderOn o (.ofMemory o b)).site = (decodeHeader b).site ∧
    (decodeHeaderOn o (.ofMemory o b)).packetType = (decodeHeader b).packetType :=
  ⟨convert16_load o (window_length b 0 2),convert32_load o (window_length b 4 4),rfl,
    convert16_load o (window_length b 32 2)⟩

theorem tagsOn_convertTarget (o : Order) (h : Header) (target : Vector UInt8 8) :
    { h with target := convertTarget o target : Header }.tagsOn o =
      BitVec.ofNat 64 (value target.toList) := by
  have hlen : target.toList.length = 8 := by simp
  have hlt : o.convert 8 (o.load target.toList) < 256 ^ 8 := by
    apply o.convert_lt
    simpa [hlen] using o.load_lt target.toList
  have hconvert := o.convert_load target.toList
  rw [hlen] at hconvert
  simp only [Header.tagsOn,convertTarget,storeVector_toList]
  rw [o.load_store hlt,hconvert]

/-- A decoded header tells what the packet was set up with. -/
structure Recovered (o : Order) (clientId : UInt32) (target : Target) (site : Option Addr)
    (info : PacketInfo) (h : Header) : Prop where
  size : h.size.toNat = headerSize + info.size
  packetType : h.packetType = info.type.code
  source : h.source = clientId
  site : h.site = site.getD (Vector.replicate 6 0)
  version : h.protocol &&& protocolVersionMaskOn o = protocolV1
  addressable : h.protocol &&& protocolAddressableOn o ≠ 0
  tagged : h.protocol &&& protocolTaggedOn o ≠ 0 ↔ ∀ addr, target ≠ .device addr
  device : ∀ addr, target = .device addr → h.deviceAddr = addr
  tags : ∀ mask, target = .tags mask → h.tagsOn o = mask
  all : target = .site ∨ target = .allDevices → h.tagsOn o = 0

/-- The protocol word of a tagged packet, decoded on either kind of host. -/
def protocolOn (o : Order) (tagged : Bool) : BitVec 16 :=
  let received : BitVec 16 := BitVec.ofNat 16 (o.load (bytes 2 (protocolV1 ||| protocolAddressable |||
    (if tagged then protocolTagged else 0)).toNat))
  (convert16 o (UInt16.ofBitVec (received &&& protocolVersionMaskOn o))).toBitVec |||
    (received &&& protocolFlagsMaskOn o)

theorem protocolOn_spec (o : Order) (tagged : Bool) :
    protocolOn o tagged &&& protocolVersionMaskOn o = protocolV1 ∧
    protocolOn o tagged &&& protocolAddressableOn o ≠ 0 ∧
    (protocolOn o tagged &&& protocolTaggedOn o ≠ 0 ↔ tagged = true) := by
  cases o <;> cases tagged <;> decide

theorem decodeHeaderOn_protocol (o : Order) (clientId : UInt32) (target : Target)
    (site : Option Addr) (info : PacketInfo) :
    (decodeHeaderOn o (.ofMemory o (bufferOf (setupHeader clientId target site info).toBytes))).protocol =
      protocolOn o target.tagged := by
  have hprotocol := (window_toBytes (setupHeader clientId target site info)).2.1
  simp only [decodeHeaderOn,Header.ofMemory,hprotocol]
  rfl

theorem decodeHeaderOn_target (o : Order) (clientId : UInt32) (target : Target)
    (site : Option Addr) (info : PacketInfo) :
    (decodeHeaderOn o (.ofMemory o (bufferOf (setupHeader clientId target site info).toBytes))).target =
      if target.tagged then convertTarget o target.bytes else target.bytes := by
  have hprotocol := decodeHeaderOn_protocol o clientId target site info
  have htarget := (window_toBytes (setupHeader clientId target site info)).2.2.2.1
  have hvector : (bufferOf (setupHeader clientId target site info).toBytes).vector 8 8 = target.bytes :=
    Vector.toList_inj.mp ((vector_toList _ 8 8).trans htarget)
  have htagged := (protocolOn_spec o target.tagged).2.2
  rw [← hprotocol] at htagged
  have heq : ∀ h : Header, (decodeHeaderOn o h).target =
      if (decodeHeaderOn o h).protocol &&& protocolTaggedOn o ≠ 0 then convertTarget o h.target
      else h.target := fun _ => rfl
  rw [heq]
  simp only [htagged]
  cases target.tagged <;> simp [Header.ofMemory,hvector]

theorem recovered (o : Order) (clientId : UInt32) (target : Target) (site : Option Addr)
    {info : PacketInfo} (hsize : info.size ≤ 52) :
    Recovered o clientId target site info (decodeHeaderOn o
      (.ofMemory o (bufferOf (setupHeader clientId target site info).toBytes))) := by
  obtain ⟨hs,hsource,hsite,htype⟩ := decodeHeaderOn_ofMemory o
    (bufferOf (setupHeader clientId target site info).toBytes)
  rw [decodeHeader_toBytes] at hs hsource hsite htype
  have hprotocol := decodeHeaderOn_protocol o clientId target site info
  have htarget := decodeHeaderOn_target o clientId target site info
  obtain ⟨hversion,haddressable,htagged⟩ := protocolOn_spec o target.tagged
  rw [← hprotocol] at hversion haddressable htagged
  generalize decodeHeaderOn o (.ofMemory o (bufferOf (setupHeader clientId target site info).toBytes)) =
    h at *
  refine ⟨?_,htype,hsource,hsite,hversion,haddressable,?_,?_,?_,?_⟩
  · have hlt : info.size + headerSize < 2 ^ 16 := by
      simp only [headerSize]
      omega
    rw [hs]
    simpa [setupHeader,Nat.add_comm] using Nat.mod_eq_of_lt hlt
  · rw [htagged]
    cases target <;> simp [Target.tagged]
  · rintro addr rfl
    have hbytes : h.target = (Target.device addr).bytes := htarget
    apply Vector.ext
    intro i hi
    simp [Header.deviceAddr,hbytes,Target.bytes]
  · rintro mask rfl
    have hbytes : h.target = convertTarget o (Target.tags mask).bytes := htarget
    have hh : { h with target := convertTarget o (Target.tags mask).bytes : Header } = h := by rw [← hbytes]
    have htags := tagsOn_convertTarget o h (Target.tags mask).bytes
    rw [hh,tags_toList,value_bytes (n := 8) mask.isLt] at htags
    simpa using htags
  · intro hall
    have hbytes : h.target = convertTarget o (Vector.replicate 8 0) := by
      rcases hall with rfl | rfl <;> exact htarget
    have hh : { h with target := convertTarget o (Vector.replicate 8 0) : Header } = h := by rw [← hbytes]
    have htags := tagsOn_convertTarget o h (Vector.replicate 8 0)
    have hzero : value (Vector.replicate 8 (0 : UInt8)).toList = 0 := by decide
    rwa [hh,hzero] at htags

theorem size_le_of_packetTable {type : PacketType} {info : PacketInfo}
    (h : packetTable type = some info) : info.type = type ∧ info.size ≤ 52 := by
  cases type <;> simp only [packetTable,Option.some.injEq,reduceCtorEq] at h <;> subst h <;>
    exact ⟨rfl,by decide⟩

section Payloads
variable (o : Order)

theorem tagsMemory_encodeTagsOn (tags : TagMask) : tagsMemory o (encodeTagsOn o tags) = bytes 8 tags.toNat := by
  have hlt := o.convert_lt (n := 8) tags.isLt
  have hnat : (encodeTagsOn o tags).toNat = o.convert 8 tags.toNat := by
    simpa [encodeTagsOn] using Nat.mod_eq_of_lt hlt
  rw [tagsMemory,hnat,o.store_convert]

theorem decodeTagsOn_ofMemory (b : Buffer) :
    decodeTagsOn o (tagsOfMemory o b) = BitVec.ofNat 64 (value (b.window 0 8)) := by
  have hlt := o.load_lt (b.window 0 8)
  have hconvert := o.convert_load (b.window 0 8)
  rw [window_length] at hlt hconvert
  have hnat : (tagsOfMemory o b).toNat = o.load (b.window 0 8) := by
    simpa [tagsOfMemory] using Nat.mod_eq_of_lt hlt
  rw [decodeTagsOn,hnat,hconvert]

theorem TagLabels.memory_encodeOn (pkt : TagLabels) :
    (pkt.encodeOn o).memory o = bytes 8 pkt.tags.toNat ++ pkt.label.toList := by
  simp [TagLabels.memory,TagLabels.encodeOn,tagsMemory_encodeTagsOn]

theorem LightColor.memory_encodeOn (stream : UInt8) (c : LightColor) :
    (c.encodeOn o).memory o stream = [stream] ++ bytes 2 c.hue.toNat ++ bytes 2 c.saturation.toNat ++
      bytes 2 c.brightness.toNat ++ bytes 2 c.kelvin.toNat ++ bytes 4 c.transition.toNat := by
  simp [LightColor.memory,LightColor.encodeOn]

theorem Waveform.memory_encodeOn (stream : UInt8) (w : Waveform) :
    (w.encodeOn o).memory o stream = [stream,if w.transient then 1 else 0] ++ bytes 2 w.hue.toNat ++
      bytes 2 w.saturation.toNat ++ bytes 2 w.brightness.toNat ++ bytes 2 w.kelvin.toNat ++
      bytes 4 w.period.toNat ++ bytes 4 w.cycles.toNat ++ bytes 2 w.skewRatio.toNat ++ [w.waveform] := by
  simp only [Waveform.memory,Waveform.encodeOn,store_convert16,store_convert32]
  rfl

end Payloads

theorem tags_roundTrip (o o' : Order) (tags : TagMask) :
    decodeTagsOn o (tagsOfMemory o (bufferOf (tagsMemory o' (encodeTagsOn o' tags)))) = tags := by
  have hwindow : (bufferOf (bytes 8 tags.toNat)).window 0 8 = bytes 8 tags.toNat := by
    rw [window_bufferOf (by simp)]
    simp
  rw [tagsMemory_encodeTagsOn,decodeTagsOn_ofMemory,hwindow,value_bytes (n := 8) tags.isLt]
  simp

theorem tagLabels_roundTrip (o o' : Order) {pkt : TagLabels} (hlast : pkt.label[31] = 0) :
    (TagLabels.ofMemory o (bufferOf ((pkt.encodeOn o').memory o'))).decodeOn o = pkt := by
  have hlen : (bytes 8 pkt.tags.toNat ++ pkt.label.toList).length = 40 := by simp
  have htags : (bufferOf (bytes 8 pkt.tags.toNat ++ pkt.label.toList)).window 0 8 =
      bytes 8 pkt.tags.toNat := by
    rw [window_bufferOf (by omega)]
    simp
  have hlabel : (bufferOf (bytes 8 pkt.tags.toNat ++ pkt.label.toList)).vector 8 32 = pkt.label := by
    apply Vector.toList_inj.mp
    rw [vector_toList,window_bufferOf (by omega)]
    simp
  have hset : pkt.label.set 31 0 = pkt.label := by
    apply Vector.ext
    intro i hi
    by_cases h31 : i = 31
    · subst h31
      simpa using hlast.symm
    · simp [Vector.getElem_set_ne _ _ (Ne.symm h31)]
  rw [TagLabels.memory_encodeOn]
  simp only [TagLabels.decodeOn,TagLabels.ofMemory,decodeTagsOn_ofMemory,htags,hlabel,hset,
    value_bytes (n := 8) pkt.tags.isLt]
  simp

/-- Headers and payloads are the same bytes whatever the byte order of the host that sends
them, and hosts of either byte order read back what was sent. -/
theorem wire_format_independent_of_host (clientId : UInt32) (target : Target) (site : Option Addr)
    {type : PacketType} {info : PacketInfo} (hinfo : packetTable type = some info) (tags : TagMask)
    (labels : TagLabels) (stream : UInt8) (color : LightColor) (waveform : Waveform) :
    (setupHeaderOn .big clientId target site info).memory .big =
      (setupHeaderOn .little clientId target site info).memory .little ∧
    (∀ o o', Recovered o clientId target site info (decodeHeaderOn o (.ofMemory o
      (bufferOf ((setupHeaderOn o' clientId target site info).memory o'))))) ∧
    info.type = type ∧
    tagsMemory .big (encodeTagsOn .big tags) = tagsMemory .little (encodeTagsOn .little tags) ∧
    (labels.encodeOn .big).memory .big = (labels.encodeOn .little).memory .little ∧
    (color.encodeOn .big).memory .big stream = (color.encodeOn .little).memory .little stream ∧
    (waveform.encodeOn .big).memory .big stream = (waveform.encodeOn .little).memory .little stream ∧
    (∀ o o', decodeTagsOn o (tagsOfMemory o (bufferOf (tagsMemory o' (encodeTagsOn o' tags)))) = tags) ∧
    (labels.label[31] = 0 → ∀ o o',
      (TagLabels.ofMemory o (bufferOf ((labels.encodeOn o').memory o'))).decodeOn o = labels) := by
  obtain ⟨htype,hsize⟩ := size_le_of_packetTable hinfo
  refine ⟨?_,?_,htype,?_,?_,?_,?_,fun o o' => tags_roundTrip o o' tags,
    fun hlast o o' => tagLabels_roundTrip o o' hlast⟩
  · simp only [memory_setupHeaderOn]
  · intro o o'
    rw [memory_setupHeaderOn]
    exact recovered o clientId target site hsize
  · simp only [tagsMemory_encodeTagsOn]
  · simp only [TagLabels.memory_encodeOn]
  · simp only [LightColor.memory_encodeOn]
  · simp only [Waveform.memory_encodeOn]

theorem wire_format_independent_of_host_setTagLabels :
    packetTable .setTagLabels = some (.requestOnly .setTagLabels 40) ∧
    (setupHeaderOn .big 7 (.tags 3) (some #v[1,2,3,4,5,6]) (.requestOnly .setTagLabels 40)).memory .big =
      (setupHeaderOn .little 7 (.tags 3) (some #v[1,2,3,4,5,6])
        (.requestOnly .setTagLabels 40)).memory .little ∧
    ∀ o o', (TagLabels.ofMemory o (bufferOf
      (((⟨3,Vector.replicate 32 0⟩ : TagLabels).encodeOn o').memory o'))).decodeOn o =
        ⟨3,Vector.replicate 32 0⟩ := by
  have h := wire_format_independent_of_host 7 (.tags 3) (some #v[1,2,3,4,5,6])
    (show packetTable .setTagLabels = some (.requestOnly .setTagLabels 40) from rfl)
    3 ⟨3,Vector.replicate 32 0⟩ 0 ⟨1,2,3,4,5⟩ ⟨true,1,2,3,4,5,6,7,0⟩
  exact ⟨rfl,h.1,h.2.2.2.2.2.2.2.2 (by decide)⟩

end Lightsd.Lifx
