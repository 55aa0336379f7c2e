import Mathlib

/-! # Text in UTF-8, as a list of bytes

A list of bytes is text if it is the encoding of some characters. The byte of an ASCII
character is never part of the encoding of another one, so text can be cut there.
-/
namespace Utf8Texts

def Utf8 (bytes : List UInt8) : Prop := ∃ cs : List Char, bytes = cs.flatMap String.utf8EncodeChar

theorem utf8_nil : Utf8 [] := ⟨[],rfl⟩

theorem Utf8.append {bytes bytes' : List UInt8} (h : Utf8 bytes) (h' : Utf8 bytes') : Utf8 (bytes ++ bytes') := by
  obtain ⟨cs,rfl⟩ := h
  obtain ⟨cs',rfl⟩ := h'
  exact ⟨cs ++ cs',by simp⟩

/-- The encoding of an ASCII character is its byte. -/
theorem utf8EncodeChar_ascii {c : UInt8} (h : c < 128) : String.utf8EncodeChar (Char.ofNat c.toNat) = [c] := by
  have hc : c.toNat < 128 := h
  have hval : (Char.ofNat c.toNat).val.toNat = c.toNat := Char.toNat_ofNat _ |>.trans (by
    simp [Nat.isValidChar]
    omega)
  simp [String.utf8EncodeChar,hval]
  omega

theorem utf8_of_ascii {bytes : List UInt8} (h : ∀ c ∈ bytes, c < 128) : Utf8 bytes := by
  refine ⟨bytes.map (fun c => Char.ofNat c.toNat),?_⟩
  induction bytes with
  | nil => rfl
  | cons c bytes ih =>
    have hc := utf8EncodeChar_ascii (h c (by simp))
    simp only [List.map_cons,List.flatMap_cons,hc,List.singleton_append]
    rw [← ih (fun b hb => h b (by simp [hb]))]

/-- Only the encoding of an ASCII character has its byte. -/
theorem utf8EncodeChar_of_mem {c : Char} {b : UInt8} (hb : b < 128) (h : b ∈ String.utf8EncodeChar c) :
    String.utf8EncodeChar c = [b] := by
  have hlt : b.toNat < 128 := hb
  have hhigh {n : ℕ} (hlow : 128 ≤ n) (hn : n < 256) : b ≠ UInt8.ofNat n := by
    rintro rfl
    simp [Nat.mod_eq_of_lt hn] at hlt
    omega
  rw [String.utf8EncodeChar] at h ⊢
  split_ifs at h ⊢ with h₁ h₂ h₃
  · rw [List.mem_singleton.mp h]
  · simp only [List.mem_cons,List.not_mem_nil,or_false] at h
    rcases h with h | h <;> exact absurd h (hhigh (by omega) (by omega))
  · simp only [List.mem_cons,List.not_mem_nil,or_false] at h
    rcases h with h | h | h <;> exact absurd h (hhigh (by omega) (by omega))
  · simp only [List.mem_cons,List.not_mem_nil,or_false] at h
    rcases h with h | h | h | h <;> exact absurd h (hhigh (by omega) (by omega))

theorem utf8_cut {bytes rest : List UInt8} {b : UInt8} (hb : b < 128) (h : Utf8 (bytes ++ b :: rest)) :
    Utf8 bytes ∧ Utf8 rest := by
  obtain ⟨cs,h⟩ := h
  induction cs generalizing bytes with
  | nil => simp at h
  | cons c cs ih =>
    rw [List.flatMap_cons] at h
    rcases List.append_eq_append_iff.mp h with ⟨mid,hc,hrest⟩ | ⟨mid,hbytes,hrest⟩
    · cases mid with
      | nil =>
        have hcut : Utf8 [] ∧ Utf8 rest := ih (by simpa using hrest)
        exact ⟨⟨[c],by simpa using hc.symm⟩,hcut.2⟩
      | cons b' mid =>
        obtain ⟨rfl,hrest⟩ := List.cons.inj hrest
        have hmem : b ∈ String.utf8EncodeChar c := by simp [hc]
        rw [utf8EncodeChar_of_mem hb hmem] at hc
        have hsingle : bytes = [] ∧ mid = [] := by
          simpa [List.singleton_eq_append_iff] using hc
        exact ⟨hsingle.1 ▸ utf8_nil,⟨cs,by simpa [hsingle.2] using hrest⟩⟩
    · obtain ⟨⟨cs',hleft⟩,hright⟩ := ih hrest.symm
      exact ⟨⟨c :: cs',by simp [hbytes,hleft]⟩,hright⟩

theorem utf8_append_ascii_iff {bytes rest : List UInt8} {b : UInt8} (hb : b < 128) :
    Utf8 (bytes ++ b :: rest) ↔ Utf8 bytes ∧ Utf8 rest := by
  constructor
  · exact utf8_cut hb
  · rintro ⟨h,h'⟩
    have hmid : Utf8 [b] := utf8_of_ascii (by simpa using hb)
    simpa using h.append (hmid.append h')

theorem utf8_cons_ascii_iff {rest : List UInt8} {b : UInt8} (hb : b < 128) : Utf8 (b :: rest) ↔ Utf8 rest := by
  have h : Utf8 ([] ++ b :: rest) ↔ Utf8 [] ∧ Utf8 rest := utf8_append_ascii_iff hb
  simpa [utf8_nil] using h

end Utf8Texts
