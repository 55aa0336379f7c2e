import Mathlib

/-! # The strings of JSON, byte by byte

An automaton reads a string after its opening quote: escapes, code units and pairs of
surrogates give the bytes they stand for, and any other byte from the space on stands for
itself. Text between quotes that stands for itself is text without a quote, a backslash or
a control byte, whatever comes behind the closing quote.
-/
namespace JsonStrings

inductive Mode
  | plain
  | escape (high : Option ℕ)
  | hex (high : Option ℕ) (left code : ℕ)
  | low (high : ℕ)
  deriving DecidableEq

inductive Outcome
  | fail
  | done
  | next (mode : Mode) (bytes : List UInt8)
  deriving DecidableEq

def hexValue (c : UInt8) : Option ℕ :=
  if 48 ≤ c ∧ c ≤ 57 then some (c.toNat - 48)
  else if 97 ≤ c ∧ c ≤ 102 then some (c.toNat - 87)
  else if 65 ≤ c ∧ c ≤ 70 then some (c.toNat - 55)
  else none

def simpleEscape (c : UInt8) : Option UInt8 :=
  if c = 34 ∨ c = 92 ∨ c = 47 then some c
  else if c = 98 then some 8
  else if c = 102 then some 12
  else if c = 110 then some 10
  else if c = 114 then some 13
  else if c = 116 then some 9
  else none

def encoded (code : ℕ) : List UInt8 := String.utf8EncodeChar (Char.ofNat code)

/-- A code unit by itself, or after the first one of a pair. -/
def codeUnit (high : Option ℕ) (code : ℕ) : Outcome :=
  match high with
  | none =>
    if 0xd800 ≤ code ∧ code < 0xdc00 then .next (.low code) []
    else if 0xdc00 ≤ code ∧ code < 0xe000 then .fail
    else .next .plain (encoded code)
  | some high =>
    if 0xdc00 ≤ code ∧ code < 0xe000 then
      .next .plain (encoded (0x10000 + (high - 0xd800) * 0x400 + (code - 0xdc00)))
    else .fail

def step : Mode → UInt8 → Outcome
  | .plain, c =>
    if c = 34 then .done
    else if c = 92 then .next (.escape none) []
    else if c < 32 then .fail
    else .next .plain [c]
  | .escape none, c =>
    if c = 117 then .next (.hex none 4 0) []
    else match simpleEscape c with
      | some b => .next .plain [b]
      | none => .fail
  | .escape (some high), c => if c = 117 then .next (.hex (some high) 4 0) [] else .fail
  | .hex high left code, c =>
    match hexValue c with
    | some digit =>
      if left ≤ 1 then codeUnit high (16 * code + digit)
      else .next (.hex high (left - 1) (16 * code + digit)) []
    | none => .fail
  | .low high, c => if c = 92 then .next (.escape (some high)) [] else .fail

/-- The bytes a string stands for, and what is behind its closing quote. -/
def readString : Mode → List UInt8 → Option (List UInt8 × List UInt8)
  | _, [] => none
  | m, c :: cs =>
    match step m c with
    | .fail => none
    | .done => some ([],cs)
    | .next m' bytes => (readString m' cs).map (fun r => (bytes ++ r.1,r.2))

/-- A byte that stands for itself. -/
def PlainByte (c : UInt8) : Prop := c ≠ 34 ∧ c ≠ 92 ∧ 32 ≤ c

instance : DecidablePred PlainByte := fun c => inferInstanceAs (Decidable (c ≠ 34 ∧ c ≠ 92 ∧ 32 ≤ c))

def Plain (cs : List UInt8) : Prop := ∀ c ∈ cs, PlainByte c

instance : DecidablePred Plain := fun cs => inferInstanceAs (Decidable (∀ c ∈ cs, PlainByte c))

theorem step_plain {c : UInt8} (h : PlainByte c) : step .plain c = .next .plain [c] := by
  obtain ⟨hquote,hbackslash,hcontrol⟩ := h
  simp [step,hquote,hbackslash,hcontrol]

theorem Plain.append {cs cs' : List UInt8} (h : Plain cs) (h' : Plain cs') : Plain (cs ++ cs') := by
  intro c hc
  rcases List.mem_append.mp hc with hc | hc
  · exact h c hc
  · exact h' c hc

/-- Plain text stands for itself, up to the next byte that is not plain. -/
theorem readString_plain_append {cs : List UInt8} (h : Plain cs) (rest : List UInt8) :
    readString .plain (cs ++ rest) = (readString .plain rest).map (fun r => (cs ++ r.1,r.2)) := by
  induction cs with
  | nil => simp
  | cons c cs ih =>
    have hc := step_plain (h c (by simp))
    have hcs : Plain cs := fun b hb => h b (by simp [hb])
    rw [List.cons_append,readString,hc]
    simp [ih hcs,Function.comp_def]

theorem readString_quote (rest : List UInt8) : readString .plain (34 :: rest) = some ([],rest) := rfl

theorem readString_plain {cs : List UInt8} (h : Plain cs) (rest : List UInt8) :
    readString .plain (cs ++ 34 :: rest) = some (cs,rest) := by
  simp [readString_plain_append h,readString_quote]

section Parts

/-- What the automaton has done after a part of a text. -/
inductive Scanned
  | fail
  | done (bytes rest : List UInt8)
  | next (mode : Mode) (bytes : List UInt8)

def Scanned.prepend (bytes : List UInt8) : Scanned → Scanned
  | .fail => .fail
  | .done bytes' rest => .done (bytes ++ bytes') rest
  | .next m bytes' => .next m (bytes ++ bytes')

def scan : Mode → List UInt8 → Scanned
  | m, [] => .next m []
  | m, c :: cs =>
    match step m c with
    | .fail => .fail
    | .done => .done [] cs
    | .next m' bytes => (scan m' cs).prepend bytes

/-- The outcome for a text from what was done after a part of it. -/
def Scanned.finish (rest : List UInt8) : Scanned → Option (List UInt8 × List UInt8)
  | .fail => none
  | .done bytes left => some (bytes,left ++ rest)
  | .next m bytes => (readString m rest).map (fun r => (bytes ++ r.1,r.2))

theorem finish_prepend (bytes rest : List UInt8) (s : Scanned) :
    (s.prepend bytes).finish rest = (s.finish rest).map (fun r => (bytes ++ r.1,r.2)) := by
  cases s <;> simp [Scanned.prepend,Scanned.finish,Function.comp_def]

theorem readString_append (m : Mode) (cs rest : List UInt8) :
    readString m (cs ++ rest) = (scan m cs).finish rest := by
  induction cs generalizing m with
  | nil => simp [scan,Scanned.finish]
  | cons c cs ih =>
    rw [List.cons_append,readString,scan]
    cases step m c with
    | fail => rfl
    | done => rfl
    | next m' bytes => simp only [ih,finish_prepend]

/-- How many bytes were read since the last byte that was given. -/
def Mode.pending : Mode → ℕ
  | .plain => 0
  | .escape none => 1
  | .escape (some _) => 7
  | .hex none left _ => 2 + (4 - left)
  | .hex (some _) left _ => 8 + (4 - left)
  | .low _ => 6

theorem length_encoded (code : ℕ) : (encoded code).length ≤ 4 := by
  rw [encoded,String.length_utf8EncodeChar]
  exact Char.utf8Size_le_four _

/-- An escape gives fewer bytes than it takes. -/
theorem codeUnit_pending {high : Option ℕ} {code : ℕ} {m : Mode} {bytes : List UInt8}
    (h : codeUnit high code = .next m bytes) :
    bytes.length + m.pending ≤ (Mode.hex high 1 code).pending + 1 ∧
      (m = .plain → bytes.length < (Mode.hex high 1 code).pending + 1) := by
  have hsize := length_encoded
  cases high with
  | none =>
    rw [codeUnit] at h
    split_ifs at h <;> cases h
    · simp [Mode.pending]
    · have := hsize code
      simp only [Mode.pending]
      omega
  | some high =>
    rw [codeUnit] at h
    split_ifs at h; cases h
    have := hsize (0x10000 + (high - 0xd800) * 0x400 + (code - 0xdc00))
    simp only [Mode.pending]
    omega

theorem step_pending {m m' : Mode} {c : UInt8} {bytes : List UInt8} (h : step m c = .next m' bytes) :
    bytes.length + m'.pending ≤ m.pending + 1 ∧
      (m' = .plain → (m = .plain ∧ PlainByte c ∧ bytes = [c]) ∨ bytes.length < m.pending + 1) := by
  cases m with
  | plain =>
    rw [step] at h
    split_ifs at h with hquote hbackslash hcontrol <;> cases h
    · simp [Mode.pending]
    · have hc : PlainByte c := ⟨hquote,hbackslash,by simpa using hcontrol⟩
      simp [Mode.pending,hc]
  | escape high =>
    cases high with
    | none =>
      rw [step] at h
      split_ifs at h
      · cases h
        simp [Mode.pending]
      · cases hs : simpleEscape c <;> rw [hs] at h <;> cases h
        simp [Mode.pending]
    | some high =>
      rw [step] at h
      split_ifs at h
      cases h
      simp [Mode.pending]
  | hex high left code =>
    rw [step] at h
    cases hv : hexValue c with
    | none => simp [hv] at h
    | some digit =>
      simp only [hv] at h
      split_ifs at h with hleft
      · have hunit := codeUnit_pending h
        have hpending : (Mode.hex high 1 (16 * code + digit)).pending ≤ (Mode.hex high left code).pending := by
          cases high <;> simp only [Mode.pending] <;> omega
        exact ⟨by omega,fun hm => .inr (by have := hunit.2 hm; omega)⟩
      · cases h
        cases high <;> simp [Mode.pending] <;> omega
  | low high =>
    rw [step] at h
    split_ifs at h
    cases h
    simp [Mode.pending]

theorem Scanned.prepend_eq_next {bytes bytes' : List UInt8} {m : Mode} {s : Scanned}
    (h : s.prepend bytes = .next m bytes') : ∃ bytes'', s = .next m bytes'' ∧ bytes' = bytes ++ bytes'' := by
  cases s with
  | fail => cases h
  | done => cases h
  | next m' bytes'' => cases h; exact ⟨bytes'',rfl,rfl⟩

theorem Scanned.prepend_eq_done {bytes bytes' rest : List UInt8} {s : Scanned}
    (h : s.prepend bytes = .done bytes' rest) : ∃ bytes'', s = .done bytes'' rest ∧ bytes' = bytes ++ bytes'' := by
  cases s with
  | fail => cases h
  | done bytes'' rest' => cases h; exact ⟨bytes'',rfl,rfl⟩
  | next => cases h

/-- Text that leaves the automaton where it can end stands for itself, or for less. -/
theorem scan_plain {m : Mode} {cs bytes : List UInt8} (h : scan m cs = .next .plain bytes) :
    (m = .plain ∧ Plain cs ∧ bytes = cs) ∨ bytes.length < m.pending + cs.length := by
  induction cs generalizing m bytes with
  | nil =>
    cases h
    exact .inl ⟨rfl,by simp [Plain],rfl⟩
  | cons c cs ih =>
    rw [scan] at h
    cases hstep : step m c with
    | fail => simp [hstep] at h
    | done => simp [hstep] at h
    | next m' bytes' =>
      rw [hstep] at h
      obtain ⟨bytes'',hscan,rfl⟩ := Scanned.prepend_eq_next h
      have hpending := step_pending hstep
      simp only [List.length_append,List.length_cons]
      rcases ih hscan with ⟨hm,hplain,rfl⟩ | hlt
      · rcases hpending.2 hm with ⟨rfl,hc,rfl⟩ | hlt
        · exact .inl ⟨rfl,by simpa [Plain] using ⟨hc,hplain⟩,rfl⟩
        · right; omega
      · right; omega

theorem scan_done {m : Mode} {cs bytes rest : List UInt8} (h : scan m cs = .done bytes rest) :
    bytes.length < m.pending + cs.length := by
  induction cs generalizing m bytes with
  | nil => cases h
  | cons c cs ih =>
    rw [scan] at h
    cases hstep : step m c with
    | fail => simp [hstep] at h
    | done =>
      rw [hstep] at h
      cases h
      simp
    | next m' bytes' =>
      rw [hstep] at h
      obtain ⟨bytes'',hscan,rfl⟩ := Scanned.prepend_eq_done h
      have hpending := (step_pending hstep).1
      have hlt := ih hscan
      simp only [List.length_append,List.length_cons]
      omega

theorem step_escape {m : Mode} {c : UInt8} {bytes : List UInt8} (h : step m c = .next (.escape none) bytes) :
    c = 92 := by
  cases m with
  | plain =>
    rw [step] at h
    split_ifs at h with hquote hbackslash hcontrol
    · exact hbackslash
    · cases h
  | escape high =>
    cases high with
    | none =>
      rw [step] at h
      split_ifs at h
      · cases h
      · cases hs : simpleEscape c <;> rw [hs] at h <;> cases h
    | some high =>
      rw [step] at h
      split_ifs at h
      cases h
  | hex high left code =>
    rw [step] at h
    cases hv : hexValue c with
    | none => simp [hv] at h
    | some digit =>
      cases high <;> simp only [hv,codeUnit] at h <;> split_ifs at h <;> cases h
  | low high =>
    rw [step] at h
    split_ifs at h with hbackslash
    exact hbackslash

/-- Only a backslash at the end leaves an escape open. -/
theorem scan_escape {m : Mode} {cs bytes : List UInt8} (h : scan m cs = .next (.escape none) bytes) :
    (cs = [] ∧ m = .escape none) ∨ cs.getLast? = some 92 := by
  induction cs generalizing m bytes with
  | nil =>
    cases h
    exact .inl ⟨rfl,rfl⟩
  | cons c cs ih =>
    rw [scan] at h
    cases hstep : step m c with
    | fail => simp [hstep] at h
    | done => simp [hstep] at h
    | next m' bytes' =>
      rw [hstep] at h
      obtain ⟨bytes'',hscan,rfl⟩ := Scanned.prepend_eq_next h
      right
      rcases ih hscan with ⟨rfl,rfl⟩ | hlast
      · simp [step_escape hstep]
      · simp [List.getLast?_cons,hlast]

end Parts

/-- Some plain bytes, and then a quote or the end. -/
def Tail (rest : List UInt8) : Prop :=
  ∃ between, between ≠ [] ∧ Plain between ∧ (rest = between ∨ ∃ more, rest = between ++ 34 :: more)

theorem Tail.last_ne {rest bytes left : List UInt8} (h : Tail rest)
    (hread : readString .plain rest = some (bytes,left)) : ∃ c ≠ 92, bytes.getLast? = some c := by
  obtain ⟨between,hne,hplain,rfl | ⟨more,rfl⟩⟩ := h
  · have hnone := readString_plain_append hplain []
    rw [List.append_nil,hread] at hnone
    cases hnone
  · rw [readString_plain hplain] at hread
    cases hread
    obtain ⟨c,hc⟩ := Option.ne_none_iff_exists'.mp (mt List.getLast?_eq_none_iff.mp hne)
    exact ⟨c,(hplain c (List.mem_of_getLast? hc)).2.1,hc⟩

/-- Between quotes, only plain text stands for itself. -/
theorem plain_of_readString_self {cs rest left : List UInt8} (hrest : Tail rest)
    (h : readString .plain (cs ++ 34 :: rest) = some (cs,left)) : Plain cs ∧ left = rest := by
  rw [readString_append] at h
  cases hscan : scan .plain cs with
  | fail => simp [hscan,Scanned.finish] at h
  | done bytes rest' =>
    have hlt := scan_done hscan
    simp only [hscan,Scanned.finish,Option.some.injEq,Prod.mk.injEq] at h
    simp [h.1,Mode.pending] at hlt
  | next m bytes =>
    rw [hscan,Scanned.finish] at h
    cases m with
    | plain =>
      simp only [readString_quote,Option.map_some,List.append_nil,Option.some.injEq,Prod.mk.injEq] at h
      rcases scan_plain hscan with ⟨-,hplain,-⟩ | hlt
      · exact ⟨hplain,h.2.symm⟩
      · simp [h.1,Mode.pending] at hlt
    | escape high =>
      cases high with
      | none =>
        have hlast : cs.getLast? = some 92 := by simpa using scan_escape hscan
        have hstep : step (.escape none) 34 = .next .plain [34] := by decide
        rw [readString,hstep] at h
        cases hread : readString .plain rest with
        | none => simp [hread] at h
        | some r =>
          obtain ⟨c,hc,hr⟩ := hrest.last_ne hread
          simp only [hread,Option.map_some,Option.some.injEq,Prod.mk.injEq] at h
          rw [← h.1,List.getLast?_append,List.getLast?_append,hr] at hlast
          exact absurd (Option.some.inj hlast) hc
      | some high => simp [readString,step] at h
    | hex high left code => simp [readString,step,hexValue] at h
    | low high => simp [readString,step] at h

end JsonStrings
