import Lightsd.Lifx.LabelReads

/-! # When old bytes of the buffer matter

For every handler, the received part of a payload settles its effect exactly under the
condition stated for it. That the condition is needed is shown by two fillings of the
buffer that the handler tells apart.
-/
namespace Lightsd.Lifx

theorem getLsbD_mask (b : Buffer) {id : ℕ} (hid : id < 64) :
    (b.mask 0).getLsbD id = (b (id / 8)).toNat.testBit (id % 8) := by
  have hbyte := le_byte b 0 (n := 8) (i := id / 8) (by omega)
  have hpow : (256 : ℕ) ^ (id / 8) = 2 ^ (8 * (id / 8)) := by
    rw [pow_mul]
    norm_num
  have hbits : id % 8 + 8 * (id / 8) = id := by omega
  have hlow : id % 8 < 8 := by omega
  rw [Nat.zero_add] at hbyte
  rw [← hbyte,UInt8.toNat_ofNat',Nat.testBit_mod_two_pow,hpow,Nat.testBit_div_two_pow,hbits]
  rw [Buffer.mask,BitVec.getLsbD_ofNat]
  simp [hlow,hid]

theorem nameable_of_mem {payload : List UInt8} {rest : Buffer} {id : ℕ}
    (h : id ∈ foreachTagId ((fill payload rest).mask 0)) : Nameable payload id := by
  have hid := lt_of_mem_foreachTagId h
  have hbit := mem_foreachTagId.mp h
  refine ⟨hid,?_⟩
  by_cases hle : 8 * payload.length ≤ id
  · exact Or.inl hle
  · right
    have hlt : id / 8 < payload.length := by omega
    rw [getLsbD_mask _ hid,fill_of_lt hlt] at hbit ⊢
    exact hbit

/-- An id is in the mask when the missing bytes of the mask are full. -/
theorem mem_of_nameable {payload : List UInt8} {rest : Buffer} {id : ℕ} (h : Nameable payload id)
    (hrest : ∀ i, i < 8 → rest i = 255) : id ∈ foreachTagId ((fill payload rest).mask 0) := by
  obtain ⟨hid,hbit⟩ := h
  apply mem_foreachTagId.mpr
  rw [getLsbD_mask _ hid]
  by_cases hlt : id / 8 < payload.length
  · have hnot : ¬ 8 * payload.length ≤ id := by omega
    have hknown := hbit.resolve_left hnot
    rw [getLsbD_mask _ hid,fill_of_lt hlt] at hknown
    rwa [fill_of_lt hlt]
  · have hones : ∀ j, j < 8 → (255 : UInt8).toNat.testBit j = true := by decide
    rw [fill_of_le (by omega),hrest _ (by omega)]
    exact hones _ (by omega)

theorem cString_of_zero_mem {l : List UInt8} (h : 0 ∈ l) (r : List UInt8) :
    cString (l ++ r) = cString l := by
  induction l with
  | nil => simp at h
  | cons x xs ih =>
    by_cases hx : x = 0
    · simp [cString,hx]
    · have hmem : 0 ∈ xs := (List.mem_cons.mp h).resolve_left (Ne.symm hx)
      simpa [cString,hx] using ih hmem

theorem cString_of_zero_notMem {l : List UInt8} (h : 0 ∉ l) (r : List UInt8) :
    cString (l ++ r) = l ++ cString r := by
  apply List.takeWhile_append_of_pos
  intro x hx
  have hne : x ≠ 0 := fun h0 => h (h0 ▸ hx)
  simpa using hne

theorem cString_decodeTagLabels (b : Buffer) :
    cString (decodeTagLabels b).label.toList = cString (b.window 8 31) := by
  have hlist : (decodeTagLabels b).label.toList = b.window 8 31 ++ [0] := by
    apply List.ext_getElem
    · simp [Buffer.window]
    · intro i h₁ h₂
      by_cases hi : i = 31
      · subst hi
        simp [decodeTagLabels,Buffer.window]
      · have hlt : i < 31 := by
          have hlen : i < 32 := by simpa using h₁
          omega
        simp [decodeTagLabels,Buffer.window,Buffer.vector,hlt,Ne.symm hi]
  rw [hlist]
  by_cases hzero : 0 ∈ b.window 8 31
  · exact cString_of_zero_mem hzero [0]
  · have hnil := cString_of_zero_notMem hzero []
    rw [cString_of_zero_notMem hzero,← List.append_nil (b.window 8 31),hnil]
    simp [cString]

section ShortLabel
variable {payload : List UInt8} (h : payload.length < 39)
include h

theorem window_fill (rest : Buffer) : (fill payload rest).window 8 31 =
    payload.drop 8 ++ rest.window (8 + (payload.drop 8).length) (31 - (payload.drop 8).length) := by
  apply List.ext_getElem
  · simp [Buffer.window]
    omega
  · intro i h₁ h₂
    by_cases hi : 8 + i < payload.length
    · have hdrop : i < (payload.drop 8).length := by
        rw [List.length_drop]
        omega
      simp [Buffer.window,fill_of_lt hi,List.getElem_append_left hdrop]
    · have hdrop : (payload.drop 8).length ≤ i := by
        rw [List.length_drop]
        omega
      have hsum : 8 + (payload.drop 8).length + (i - (payload.drop 8).length) = 8 + i := by omega
      rw [List.getElem_append_right hdrop]
      simp only [Buffer.window,List.getElem_map,List.getElem_range,hsum]
      exact fill_of_le (by omega) rest

theorem label_fill_zero (hzero : 0 ∈ payload.drop 8) (rest : Buffer) :
    cString (decodeTagLabels (fill payload rest)).label.toList = cString (payload.drop 8) := by
  rw [cString_decodeTagLabels,window_fill h,cString_of_zero_mem hzero]

theorem label_fill (hzero : 0 ∉ payload.drop 8) (rest : Buffer) :
    cString (decodeTagLabels (fill payload rest)).label.toList =
      payload.drop 8 ++
        cString (rest.window (8 + (payload.drop 8).length) (31 - (payload.drop 8).length)) := by
  rw [cString_decodeTagLabels,window_fill h,cString_of_zero_notMem hzero]

end ShortLabel

/-- A rest of a payload that completes the mask with full bytes and the label with at most
one more character. -/
def tail (payload : List UInt8) (c : UInt8) : Buffer :=
  fun i => if i < 8 then 255 else if i = 8 + (payload.drop 8).length then c else 0

theorem tail_mask (payload : List UInt8) (c : UInt8) {i : ℕ} (hi : i < 8) : tail payload c i = 255 := by
  simp [tail,hi]

theorem cString_tail (payload : List UInt8) (c : UInt8) (n : ℕ) :
    cString ((tail payload c).window (8 + (payload.drop 8).length) (n + 1)) =
      if c = 0 then [] else [c] := by
  have hhead : tail payload c (8 + (payload.drop 8).length) = c := by simp [tail]
  have hrest : ∀ i, tail payload c (8 + (payload.drop 8).length + (i + 1)) = 0 := by
    intro i
    have h8 : ¬ 8 + (payload.drop 8).length + (i + 1) < 8 := by omega
    have hne : ¬ 8 + (payload.drop 8).length + (i + 1) = 8 + (payload.drop 8).length := by omega
    simp only [tail,if_neg h8,if_neg hne]
  have hwindow : (tail payload c).window (8 + (payload.drop 8).length) (n + 1) =
      c :: List.replicate n 0 := by
    simp only [Buffer.window,List.range_succ_eq_map,List.map_cons,List.map_map,Nat.add_zero,hhead]
    congr 1
    apply List.eq_replicate_iff.mpr
    constructor
    · simp
    · intro x hx
      obtain ⟨i,-,rfl⟩ := List.mem_map.mp hx
      exact hrest i
  rw [hwindow]
  by_cases hc : c = 0
  · simp [cString,hc]
  · cases n <;> simp [cString,hc,List.replicate_succ]

theorem label_tail {payload : List UInt8} (h : payload.length < 39) (hzero : 0 ∉ payload.drop 8)
    (c : UInt8) : cString (decodeTagLabels (fill payload (tail payload c))).label.toList =
      payload.drop 8 ++ if c = 0 then [] else [c] := by
  have hlen : 31 - (payload.drop 8).length = 30 - (payload.drop 8).length + 1 := by
    rw [List.length_drop]
    omega
  rw [label_fill h hzero,hlen,cString_tail]

namespace Daemon

theorem handleTagLabels_congr {pkt pkt' : TagLabels} (htags : pkt.tags = pkt'.tags)
    (hlabel : cString pkt.label.toList = cString pkt'.label.toList) (d : Daemon) (g : GatewayRef)
    (env : Env) : d.handleTagLabels g env pkt = d.handleTagLabels g env pkt' := by
  simp only [handleTagLabels,htags,hlabel]

/-- The effect of a handler does not depend on what completes the received payload. -/
def Settled (d : Daemon) (now : Time) (g : GatewayRef) (handler : Handler) (hdr : Header)
    (payload : List UInt8) : Prop :=
  ∀ env rest rest', d.handle now g handler hdr (fill payload rest) env =
    d.handle now g handler hdr (fill payload rest') env

variable {d : Daemon} {now : Time} {g : GatewayRef} {hdr : Header} {payload : List UInt8}

theorem settled_of_extent {handler : Handler} (h : handler.extent ≤ payload.length) :
    d.Settled now g handler hdr payload :=
  fun env rest rest' => handle_congr ((agree_fill payload rest rest').mono h) d now g hdr env

theorem settled_tagLabels (h : (d.gw g).Suffices payload .tagLabels) :
    d.Settled now g .tagLabels hdr payload := by
  by_cases hlong : 39 ≤ payload.length
  · exact settled_of_extent hlong
  have hshort : payload.length < 39 := by omega
  intro env rest rest'
  simp only [handle]
  by_cases hzero : 0 ∈ payload.drop 8
  · have h8 : 8 ≤ payload.length := by
      by_contra hlt
      rw [List.drop_of_length_le (by omega)] at hzero
      cases hzero
    apply handleTagLabels_congr
    · exact ((agree_fill payload rest rest').mono h8).mask (by omega)
    · rw [label_fill_zero hshort hzero,label_fill_zero hshort hzero]
  · have hknown : ∀ rest, d.handleTagLabels g env (decodeTagLabels (fill payload rest)) = d := by
      intro rest
      apply handleTagLabels_known
      intro id hid
      have hname := nameable_of_mem hid
      rcases h with hlen | hmem | ⟨hne,htaken⟩ | htaken
      · exact absurd hlen hlong
      · exact absurd hmem hzero
      · refine ⟨htaken id hname,Or.inl ?_⟩
        rw [label_fill hshort hzero]
        exact fun hnil => hne (List.append_eq_nil_iff.mp hnil).1
      · exact ⟨(htaken id hname).1,Or.inr (htaken id hname).2⟩
    rw [hknown rest,hknown rest']

theorem suffices_tagLabels (h : d.Settled now g .tagLabels hdr payload) :
    (d.gw g).Suffices payload .tagLabels := by
  by_cases hlong : 39 ≤ payload.length
  · exact Or.inl hlong
  by_cases hzero : 0 ∈ payload.drop 8
  · exact Or.inr (Or.inl hzero)
  have hshort : payload.length < 39 := by omega
  have hmem : ∀ {id} c, Nameable payload id →
      id ∈ foreachTagId (decodeTagLabels (fill payload (tail payload c))).tags :=
    fun c hname => mem_of_nameable hname (fun i hi => tail_mask payload c hi)
  have hlabel := label_tail hshort hzero
  have htaken : ∀ id, Nameable payload id → hasTagId (d.gw g).tagIds id = true := by
    intro id hname
    by_contra hfree
    have hnamed : ∀ c : UInt8, c ≠ 0 → (d.handleTagLabels g {}
        (decodeTagLabels (fill payload (tail payload c)))).Named g id (payload.drop 8 ++ [c]) := by
      intro c hc
      have hc' := handleTagLabels_free (d := d) (g := g) (hmem c hname) (label_decodeTagLabels _)
        (Bool.not_eq_true _ ▸ hfree) (by simp [hlabel,hc])
      simpa only [hlabel,if_neg hc] using hc'
    have heq : d.handleTagLabels g {} (decodeTagLabels (fill payload (tail payload 1))) =
        d.handleTagLabels g {} (decodeTagLabels (fill payload (tail payload 2))) := h {} _ _
    have hsame := (heq ▸ hnamed 1 (by decide)).unique (hnamed 2 (by decide))
    simp at hsame
  by_cases hnil : payload.drop 8 = []
  · refine Or.inr (Or.inr (Or.inr (fun id hname => ⟨htaken id hname,?_⟩)))
    cases htag : (d.gw g).tags id with
    | none => rfl
    | some t =>
      have hforgot := handleTagLabels_forgotten (d := d) (g := g) (hmem 0 hname) (label_decodeTagLabels _)
        (htaken id hname) htag (by simp [hlabel,hnil])
      have hkept := handleTagLabels_kept (d := d) (g := g) (hmem 1 hname) (label_decodeTagLabels _)
        (htaken id hname) (by simp [hlabel])
      have heq : d.handleTagLabels g {} (decodeTagLabels (fill payload (tail payload 0))) =
          d.handleTagLabels g {} (decodeTagLabels (fill payload (tail payload 1))) := h {} _ _
      rw [heq,hkept] at hforgot
      simp [slot,htag] at hforgot
  · exact Or.inr (Or.inr (Or.inl ⟨hnil,htaken⟩))

theorem decodePowerState_short {x : UInt8} (hx : x ≠ 255) (rest : Buffer) :
    decodePowerState (fill [x] rest) = powerOff := by
  have hlow := le_byte (fill [x] rest) 0 (n := 2) (i := 0) (by omega)
  have hlt := le_lt (fill [x] rest) 0 2
  have hne : (fill [x] rest).le16 0 ≠ powerOn := by
    intro hpower
    have hnat := congrArg UInt16.toNat hpower
    rw [Buffer.le16,UInt16.toNat_ofNat_of_lt' hlt] at hnat
    rw [hnat] at hlow
    exact hx hlow.symm
  simp [decodePowerState,clampPower,hne]

theorem settled_powerState (h : (d.gw g).Suffices payload .powerState) :
    d.Settled now g .powerState hdr payload := by
  rcases h with hlen | ⟨x,rfl,hx⟩
  · exact settled_of_extent hlen
  · intro env rest rest'
    simp only [handle,decodePowerState_short hx]

theorem power_settled {payload : List UInt8}
    (h : decodePowerState (fill payload (fun _ => 0)) = decodePowerState (fill payload (fun _ => 255))) :
    2 ≤ payload.length ∨ ∃ x, payload = [x] ∧ x ≠ 255 := by
  match payload with
  | [] => exact absurd h (by decide)
  | [x] =>
    refine Or.inr ⟨x,rfl,?_⟩
    rintro rfl
    exact absurd h (by decide)
  | _ :: _ :: _ => exact Or.inl (by simp)

theorem suffices_powerState (h : d.Settled now g .powerState hdr payload) :
    (d.gw g).Suffices payload .powerState := by
  obtain ⟨read,hread⟩ := d.handle_power now g hdr
  apply power_settled
  rw [← hread,← hread,h {} (fun _ => 0) (fun _ => 255)]

theorem suffices_eq {handler : Handler} (h : handler.fillsRecord = true) (gw : Gateway) :
    gw.Suffices payload handler ↔ handler.extent ≤ payload.length := by
  cases handler <;> first | exact Iff.rfl | cases h

theorem length_of_settled {info : PacketInfo} (hinfo : getPacketInfo hdr.packetType = some info)
    (hfills : info.handle.fillsRecord = true) (h : d.Settled now g info.handle hdr payload) :
    info.handle.extent ≤ payload.length := by
  obtain ⟨read,hread⟩ := handle_last hinfo hfills d now g
  by_contra hshort
  have hle : payload.length ≤ info.handle.extent - 1 := by omega
  have hsame := congrArg read (h {} (fun _ => 0) (fun _ => 1))
  rw [hread,hread,fill_of_le hle,fill_of_le hle] at hsame
  exact absurd hsame (by decide)

/-- The effect of a handler is settled by the received bytes exactly when they suffice. -/
theorem settled_iff {info : PacketInfo} (hinfo : getPacketInfo hdr.packetType = some info) :
    d.Settled now g info.handle hdr payload ↔ (d.gw g).Suffices payload info.handle := by
  cases hfills : info.handle.fillsRecord with
  | true =>
    rw [suffices_eq hfills]
    exact ⟨length_of_settled hinfo hfills,settled_of_extent⟩
  | false =>
    generalize info.handle = handler at *
    cases handler with
    | null => exact ⟨fun _ => Nat.zero_le _,settled_of_extent⟩
    | enosys => exact ⟨fun _ => Nat.zero_le _,settled_of_extent⟩
    | panGateway => exact ⟨fun _ => Nat.zero_le _,settled_of_extent⟩
    | powerState => exact ⟨suffices_powerState,settled_powerState⟩
    | tagLabels => exact ⟨suffices_tagLabels,settled_tagLabels⟩
    | _ => cases hfills

end Daemon
end Lightsd.Lifx
