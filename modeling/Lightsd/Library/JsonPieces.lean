import Lightsd.Library.JsonTexts

/-! # Pieces of JSON of a bounded size

Texts of ASCII bytes that print some value, some items or some members with known keys, and
have at most a given number of bytes. Larger pieces are put together from smaller ones with
the sum of their sizes.
-/
namespace JsonReader

open JsonStrings

def Ascii (cs : List UInt8) : Prop := ∀ c ∈ cs, c < 128

instance : DecidablePred Ascii := fun cs => inferInstanceAs (Decidable (∀ c ∈ cs, c < 128))

theorem Ascii.append {cs cs' : List UInt8} (h : Ascii cs) (h' : Ascii cs') : Ascii (cs ++ cs') := by
  intro c hc
  rcases List.mem_append.mp hc with hc | hc
  · exact h c hc
  · exact h' c hc

theorem Ascii.cons {c : UInt8} {cs : List UInt8} (hc : c < 128) (h : Ascii cs) : Ascii (c :: cs) := by
  simpa [Ascii] using ⟨hc,h⟩

/-- ASCII text that stands for itself in a string, of a bounded size. -/
structure WordPiece (n : ℕ) (text : List UInt8) : Prop where
  plain : Plain text
  ascii : Ascii text
  short : text.length ≤ n

/-- Plain ASCII bytes, by their numbers. -/
def isWord (c : UInt8) : Bool := Nat.ble 32 c.toNat && Nat.blt c.toNat 128 && c.toNat != 34 && c.toNat != 92

theorem isWord_iff (c : UInt8) : isWord c = true ↔ PlainByte c ∧ c < 128 := by
  simp [isWord,PlainByte,UInt8.le_iff_toNat_le,UInt8.lt_iff_toNat_lt,← UInt8.toNat_inj]
  tauto

/-- A word is recognised by a computation. -/
theorem WordPiece.of_check {n : ℕ} {text : List UInt8} (h : (text.all isWord && Nat.ble text.length n) = true) :
    WordPiece n text := by
  rw [Bool.and_eq_true,List.all_eq_true] at h
  have hword (c : UInt8) (hc : c ∈ text) := (isWord_iff c).mp (h.1 c hc)
  exact ⟨fun c hc => (hword c hc).1,fun c hc => (hword c hc).2,Nat.le_of_ble_eq_true h.2⟩

structure ValuePiece (n : ℕ) (text : List UInt8) : Prop where
  prints : ∃ v, Prints v text
  ascii : Ascii text
  short : text.length ≤ n

structure ItemsPiece (n : ℕ) (text : List UInt8) : Prop where
  prints : ∃ vs, PrintsItems vs text
  ascii : Ascii text
  short : text.length ≤ n

structure MembersPiece (keys : List (List UInt8)) (n : ℕ) (text : List UInt8) : Prop where
  prints : ∃ ms, ms.map Prod.fst = keys ∧ PrintsMembers ms text
  ascii : Ascii text
  short : text.length ≤ n

variable {n n' : ℕ} {text text' : List UInt8}

theorem WordPiece.append (h : WordPiece n text) (h' : WordPiece n' text') : WordPiece (n + n') (text ++ text') where
  plain := h.plain.append h'.plain
  ascii := h.ascii.append h'.ascii
  short := by
    have := h.short
    have := h'.short
    simp only [List.length_append]
    omega

theorem WordPiece.mono (h : WordPiece n text) (hle : n ≤ n') : WordPiece n' text :=
  ⟨h.plain,h.ascii,h.short.trans hle⟩

theorem WordPiece.intercalate {c : UInt8} (hc : WordPiece 1 [c]) {texts : List (List UInt8)}
    (h : ∀ text ∈ texts, WordPiece n text) : WordPiece (texts.length * (n + 1)) ([c].intercalate texts) := by
  induction texts with
  | nil => exact .of_check rfl
  | cons text texts ih =>
    have htext := h text List.mem_cons_self
    cases texts with
    | nil => simpa [List.intercalate] using htext.mono (by omega)
    | cons text' texts =>
      have hrest := ih (fun t ht => h t (List.mem_cons_of_mem _ ht))
      have hboth := (htext.append hc).append hrest
      have hsplit : [c].intercalate (text :: text' :: texts) = text ++ [c] ++ [c].intercalate (text' :: texts) := by
        simp [List.intercalate]
      rw [hsplit]
      exact hboth.mono (by rw [List.length_cons (a := text),Nat.succ_mul]; omega)

/-- A text cut to the size of a buffer. -/
theorem WordPiece.take (h : ∀ c ∈ text, isWord c = true) (k : ℕ) : WordPiece k (text.take k) where
  plain := fun c hc => ((isWord_iff c).mp (h c (List.mem_of_mem_take hc))).1
  ascii := fun c hc => ((isWord_iff c).mp (h c (List.mem_of_mem_take hc))).2
  short := List.length_take_le k text

theorem WordPiece.isWord (h : WordPiece n text) : ∀ c ∈ text, isWord c = true :=
  fun c hc => (isWord_iff c).mpr ⟨h.plain c hc,h.ascii c hc⟩

theorem WordPiece.literal (h : WordPiece n text) : ValuePiece (n + 2) (literal text) where
  prints := ⟨_,prints_string h.plain⟩
  ascii := .cons (by decide) (h.ascii.append (by simp [Ascii]))
  short := by
    have := h.short
    simp only [JsonReader.literal,List.length_cons,List.length_append,List.length_nil]
    omega

theorem ValuePiece.number (h : isNumberText text = true) (hword : ∀ c ∈ text, isWordByte c = true)
    (hshort : text.length ≤ n) : ValuePiece n text where
  prints := ⟨_,prints_number h hword⟩
  ascii c hc := (show ∀ c, isWordByte c = true → c < 128 by decide +kernel) c (hword c hc)
  short := hshort

theorem ValuePiece.null : ValuePiece 4 nullText := ⟨⟨_,prints_null⟩,by decide +kernel,by decide⟩

theorem ValuePiece.bool (b : Bool) : ValuePiece 5 (boolText b) := by
  refine ⟨⟨_,prints_bool b⟩,?_,?_⟩
  · revert b
    decide +kernel
  · revert b
    decide +kernel

theorem ValuePiece.mono (h : ValuePiece n text) (hle : n ≤ n') : ValuePiece n' text :=
  ⟨h.prints,h.ascii,h.short.trans hle⟩

theorem ValuePiece.items (h : ValuePiece n text) : ItemsPiece n text := by
  obtain ⟨v,hv⟩ := h.prints
  exact ⟨⟨_,.single hv⟩,h.ascii,h.short⟩

theorem ItemsPiece.append (h : ItemsPiece n text) (h' : ItemsPiece n' text') :
    ItemsPiece (n + n' + 1) (text ++ 44 :: text') where
  prints := by
    obtain ⟨vs,hvs⟩ := h.prints
    obtain ⟨vs',hvs'⟩ := h'.prints
    exact ⟨_,hvs.append hvs'⟩
  ascii := h.ascii.append (.cons (by decide) h'.ascii)
  short := by
    have := h.short
    have := h'.short
    simp only [List.length_append,List.length_cons]
    omega

theorem ItemsPiece.array (h : ItemsPiece n text) : ValuePiece (n + 2) (91 :: (text ++ [93])) where
  prints := by
    obtain ⟨vs,hvs⟩ := h.prints
    exact ⟨_,hvs.array⟩
  ascii := .cons (by decide) (h.ascii.append (by simp [Ascii]))
  short := by
    have := h.short
    simp only [List.length_append,List.length_cons,List.length_nil]
    omega

theorem MembersPiece.single {k : ℕ} {key : List UInt8} (hkey : WordPiece k key) (h : ValuePiece n text) :
    MembersPiece [key] (n + k + 3) (memberKey key ++ text) where
  prints := by
    obtain ⟨v,hv⟩ := h.prints
    exact ⟨_,rfl,.single hkey.plain hv⟩
  ascii := .append (.cons (by decide) (hkey.ascii.append (by simp [Ascii]))) h.ascii
  short := by
    have := h.short
    have := hkey.short
    simp only [memberKey,List.length_append,List.length_cons,List.length_nil]
    omega

theorem MembersPiece.append {keys keys' : List (List UInt8)} (h : MembersPiece keys n text)
    (h' : MembersPiece keys' n' text') : MembersPiece (keys ++ keys') (n + n' + 1) (text ++ 44 :: text') where
  prints := by
    obtain ⟨ms,rfl,hms⟩ := h.prints
    obtain ⟨ms',rfl,hms'⟩ := h'.prints
    exact ⟨ms ++ ms',by simp,hms.append hms'⟩
  ascii := h.ascii.append (.cons (by decide) h'.ascii)
  short := by
    have := h.short
    have := h'.short
    simp only [List.length_append,List.length_cons]
    omega

theorem MembersPiece.mono {keys : List (List UInt8)} (h : MembersPiece keys n text) (hle : n ≤ n') :
    MembersPiece keys n' text :=
  ⟨h.prints,h.ascii,h.short.trans hle⟩

theorem MembersPiece.object {keys : List (List UInt8)} (h : MembersPiece keys n text) :
    ValuePiece (n + 2) (123 :: (text ++ [125])) where
  prints := by
    obtain ⟨ms,-,hms⟩ := h.prints
    exact ⟨_,hms.object⟩
  ascii := .cons (by decide) (h.ascii.append (by simp [Ascii]))
  short := by
    have := h.short
    simp only [List.length_append,List.length_cons,List.length_nil]
    omega

section Numbers

variable {int frac : List UInt8}

theorem digitsThen_append {next : List UInt8 → Bool} {ds rest : List UInt8} (hne : ds ≠ [])
    (hds : ∀ c ∈ ds, isDigit c = true) (hrest : ∀ c ∈ rest.head?, isDigit c = false) :
    digitsThen next (ds ++ rest) = next rest := by
  have htake : rest.takeWhile isDigit = [] := by
    cases rest with
    | nil => rfl
    | cons c rest => simp [hrest c rfl]
  have hdrop : rest.dropWhile isDigit = rest := by
    cases rest with
    | nil => rfl
    | cons c rest => simp [hrest c rfl]
  rw [digitsThen,List.takeWhile_append_of_pos hds,List.dropWhile_append_of_pos hds,htake,hdrop]
  simp [hne]

/-- A dot and digits, or nothing. -/
def Fraction (frac : List UInt8) : Prop :=
  frac = [] ∨ ∃ ds, ds ≠ [] ∧ (∀ c ∈ ds, isDigit c = true) ∧ frac = 46 :: ds

theorem Fraction.fracPart (h : Fraction frac) : fracPart frac = true ∧ ∀ c ∈ frac.head?, isDigit c = false := by
  rcases h with rfl | ⟨ds,hne,hds,rfl⟩
  · exact ⟨rfl,by simp⟩
  · have hdigits : digitsThen expPart (ds ++ []) = expPart [] := digitsThen_append hne hds (by simp)
    refine ⟨?_,by simp [isDigit]⟩
    simpa [JsonReader.fracPart,expPart] using hdigits

/-- Digits without a zero at the front, and a fraction. -/
theorem isNumberText_decimal (hne : int ≠ []) (hint : ∀ c ∈ int, isDigit c = true)
    (hzero : int = [48] ∨ int.head? ≠ some 48) (hfrac : Fraction frac) : isNumberText (int ++ frac) = true := by
  obtain ⟨hpart,hhead⟩ := hfrac.fracPart
  have hdigits : digitsThen fracPart (int ++ frac) = fracPart frac := digitsThen_append hne hint hhead
  cases int with
  | nil => exact absurd rfl hne
  | cons c int =>
    have hc : c ≠ 45 := by
      rintro rfl
      exact absurd (hint 45 (by simp)) (by decide)
    rw [List.cons_append,isNumberText,if_neg hc,intPart]
    split_ifs with h48
    · have hnil : int = [] := by simpa [h48] using hzero
      simpa [hnil] using hpart
    · rw [← List.cons_append,hdigits]
      exact hpart

/-- A sign before a number without one. -/
theorem isNumberText_minus {text : List UInt8} (h : isNumberText text = true) (hhead : text.head? ≠ some 45) :
    isNumberText (45 :: text) = true := by
  cases text with
  | nil => cases h
  | cons c text =>
    have hc : c ≠ 45 := fun heq => hhead (by rw [heq]; rfl)
    rw [isNumberText,if_neg hc] at h
    rw [isNumberText,if_pos rfl,h]

theorem isWordByte_decimal (hint : ∀ c ∈ int, isDigit c = true) (hfrac : Fraction frac) :
    ∀ c ∈ int ++ frac, isWordByte c = true := by
  have hdigit {c : UInt8} (h : isDigit c = true) : isWordByte c = true := by simp [isWordByte,h]
  intro c hc
  rcases List.mem_append.mp hc with hc | hc
  · exact hdigit (hint c hc)
  · rcases hfrac with rfl | ⟨ds,-,hds,rfl⟩
    · cases hc
    · rcases List.mem_cons.mp hc with rfl | hc
      · decide
      · exact hdigit (hds c hc)

end Numbers
end JsonReader
