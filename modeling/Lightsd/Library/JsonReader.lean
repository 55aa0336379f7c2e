import Lightsd.Library.JsonStrings

/-! # Reading JSON

How values are read off the start of a text of bytes: a relation between the text, the value
and the rest of the text, with white space before any lexeme. The byte that comes next decides
which rule applies, so a text has at most one reading.
-/
namespace JsonReader

open JsonStrings

inductive Json
  | null
  | bool (b : Bool)
  | number (text : List UInt8)
  | string (bytes : List UInt8)
  | array (items : List Json)
  | object (members : List (List UInt8 × Json))

section Lexemes

def isWs (c : UInt8) : Bool := c == 32 || c == 9 || c == 10 || c == 13

def skipWs (cs : List UInt8) : List UInt8 := cs.dropWhile isWs

/-- What is behind a byte, if it comes next. -/
def takeByte (b : UInt8) (cs : List UInt8) : Option (List UInt8) :=
  match skipWs cs with
  | c :: rest => if c = b then some rest else none
  | [] => none

def isDigit (c : UInt8) : Bool := 48 ≤ c && c ≤ 57

def digitsThen (next : List UInt8 → Bool) (cs : List UInt8) : Bool :=
  !(cs.takeWhile isDigit).isEmpty && next (cs.dropWhile isDigit)

def expPart : List UInt8 → Bool
  | [] => true
  | c :: cs => (c == 101 || c == 69) &&
    match cs with
    | [] => false
    | sign :: ds => if sign = 43 ∨ sign = 45 then digitsThen List.isEmpty ds else digitsThen List.isEmpty (sign :: ds)

def fracPart : List UInt8 → Bool
  | [] => true
  | c :: cs => if c = 46 then digitsThen expPart cs else expPart (c :: cs)

def intPart : List UInt8 → Bool
  | [] => false
  | c :: cs => if c = 48 then fracPart cs else digitsThen fracPart (c :: cs)

def isNumberText : List UInt8 → Bool
  | [] => false
  | c :: cs => if c = 45 then intPart cs else intPart (c :: cs)

/-- The bytes of numbers and of the names of constants. -/
def isWordByte (c : UInt8) : Bool := isDigit c || c == 43 || c == 45 || c == 46 || c == 69 || (97 ≤ c && c ≤ 122)

def nullText : List UInt8 := [110,117,108,108]

def boolText : Bool → List UInt8
  | true => [116,114,117,101]
  | false => [102,97,108,115,101]

def scalarOf (word : List UInt8) : Option Json :=
  if word = nullText then some .null
  else if word = boolText true then some (.bool true)
  else if word = boolText false then some (.bool false)
  else if isNumberText word then some (.number word)
  else none

def readScalar (cs : List UInt8) : Option (Json × List UInt8) :=
  (scalarOf (cs.takeWhile isWordByte)).map (fun v => (v,cs.dropWhile isWordByte))

end Lexemes

section Grammar

/-- The key of a member, and what is behind the colon. -/
def ReadsKey (cs key rest : List UInt8) : Prop :=
  ∃ cs' cs'', takeByte 34 cs = some cs' ∧ readString .plain cs' = some (key,cs'') ∧ takeByte 58 cs'' = some rest

mutual

/-- A value is read off the start of a text. -/
inductive Reads : List UInt8 → Json → List UInt8 → Prop
  | string {cs cs' bytes rest : List UInt8} (hopen : takeByte 34 cs = some cs')
    (hread : readString .plain cs' = some (bytes,rest)) : Reads cs (.string bytes) rest
  | emptyArray {cs cs' rest : List UInt8} (hopen : takeByte 91 cs = some cs')
    (hclose : takeByte 93 cs' = some rest) : Reads cs (.array []) rest
  | array {cs cs' rest : List UInt8} {vs : List Json} (hopen : takeByte 91 cs = some cs')
    (hread : ReadsItems cs' vs rest) : Reads cs (.array vs) rest
  | emptyObject {cs cs' rest : List UInt8} (hopen : takeByte 123 cs = some cs')
    (hclose : takeByte 125 cs' = some rest) : Reads cs (.object []) rest
  | object {cs cs' rest : List UInt8} {ms : List (List UInt8 × Json)} (hopen : takeByte 123 cs = some cs')
    (hread : ReadsMembers cs' ms rest) : Reads cs (.object ms) rest
  | scalar {cs rest : List UInt8} {v : Json} (hread : readScalar (skipWs cs) = some (v,rest)) : Reads cs v rest

/-- The items of an array and the bracket behind them. -/
inductive ReadsItems : List UInt8 → List Json → List UInt8 → Prop
  | more {cs cs' cs'' rest : List UInt8} {v : Json} {vs : List Json} (hvalue : Reads cs v cs')
    (hcomma : takeByte 44 cs' = some cs'') (hread : ReadsItems cs'' vs rest) : ReadsItems cs (v :: vs) rest
  | last {cs cs' rest : List UInt8} {v : Json} (hvalue : Reads cs v cs') (hclose : takeByte 93 cs' = some rest) :
    ReadsItems cs [v] rest

/-- The members of an object and the brace behind them. -/
inductive ReadsMembers : List UInt8 → List (List UInt8 × Json) → List UInt8 → Prop
  | more {cs cs' cs'' cs₃ rest key : List UInt8} {v : Json} {ms : List (List UInt8 × Json)} (hkey : ReadsKey cs key cs')
    (hvalue : Reads cs' v cs'') (hcomma : takeByte 44 cs'' = some cs₃) (hread : ReadsMembers cs₃ ms rest) :
    ReadsMembers cs ((key,v) :: ms) rest
  | last {cs cs' cs'' rest key : List UInt8} {v : Json} (hkey : ReadsKey cs key cs') (hvalue : Reads cs' v cs'')
    (hclose : takeByte 125 cs'' = some rest) : ReadsMembers cs [(key,v)] rest

end

/-- A text is one value, with white space around it. -/
def Parses (cs : List UInt8) (v : Json) : Prop := ∃ rest, Reads cs v rest ∧ skipWs rest = []

end Grammar

section Inversion

variable {b b' : UInt8} {cs cs' rest rest' : List UInt8} {v v' : Json}

/-- At most one byte comes next. -/
theorem takeByte_unique (h : takeByte b cs = some rest) (h' : takeByte b' cs = some rest') : b = b' := by
  simp only [takeByte] at h h'
  cases hcs : skipWs cs with
  | nil => simp [hcs] at h
  | cons c cs =>
    simp only [hcs] at h h'
    split_ifs at h h' with hb hb'
    rw [← hb,← hb']

theorem takeByte_eq_none (hne : b ≠ b') (h : takeByte b cs = some rest) : takeByte b' cs = none := by
  cases h' : takeByte b' cs with
  | none => rfl
  | some rest' => exact absurd (takeByte_unique h h') hne

theorem takeByte_scalar (hb : isWordByte b = false) {r : Json × List UInt8} (h : readScalar (skipWs cs) = some r) :
    takeByte b cs = none := by
  rw [takeByte]
  cases hcs : skipWs cs with
  | nil => rfl
  | cons c cs' =>
    have hc : c ≠ b := by
      rintro rfl
      rw [hcs,readScalar,List.takeWhile_cons,hb] at h
      cases h
    simp [hc]

theorem Reads.of_quote (hopen : takeByte 34 cs = some cs') (h : Reads cs v rest) :
    ∃ bytes, v = .string bytes ∧ readString .plain cs' = some (bytes,rest) := by
  cases h with
  | string hopen' hread =>
    cases hopen.symm.trans hopen'
    exact ⟨_,rfl,hread⟩
  | emptyArray hopen' | array hopen' | emptyObject hopen' | object hopen' => cases takeByte_unique hopen hopen'
  | scalar hread => cases hopen.symm.trans (takeByte_scalar (by decide) hread)

theorem Reads.of_bracket (hopen : takeByte 91 cs = some cs') (h : Reads cs v rest) :
    (v = .array [] ∧ takeByte 93 cs' = some rest) ∨ ∃ vs, v = .array vs ∧ ReadsItems cs' vs rest := by
  cases h with
  | emptyArray hopen' hclose =>
    cases hopen.symm.trans hopen'
    exact .inl ⟨rfl,hclose⟩
  | array hopen' hread =>
    cases hopen.symm.trans hopen'
    exact .inr ⟨_,rfl,hread⟩
  | string hopen' | emptyObject hopen' | object hopen' => cases takeByte_unique hopen hopen'
  | scalar hread => cases hopen.symm.trans (takeByte_scalar (by decide) hread)

theorem Reads.of_brace (hopen : takeByte 123 cs = some cs') (h : Reads cs v rest) :
    (v = .object [] ∧ takeByte 125 cs' = some rest) ∨ ∃ ms, v = .object ms ∧ ReadsMembers cs' ms rest := by
  cases h with
  | emptyObject hopen' hclose =>
    cases hopen.symm.trans hopen'
    exact .inl ⟨rfl,hclose⟩
  | object hopen' hread =>
    cases hopen.symm.trans hopen'
    exact .inr ⟨_,rfl,hread⟩
  | string hopen' | emptyArray hopen' | array hopen' => cases takeByte_unique hopen hopen'
  | scalar hread => cases hopen.symm.trans (takeByte_scalar (by decide) hread)

theorem Reads.of_scalar (hread : readScalar (skipWs cs) = some (v,rest)) (h : Reads cs v' rest') :
    v = v' ∧ rest = rest' := by
  cases h with
  | string hopen | emptyArray hopen | array hopen | emptyObject hopen | object hopen =>
    cases hopen.symm.trans (takeByte_scalar (by decide) hread)
  | scalar hread' =>
    cases hread.symm.trans hread'
    exact ⟨rfl,rfl⟩

/-- A value does not start with any other byte. -/
theorem Reads.takeByte_eq_none (hb : b ≠ 34 ∧ b ≠ 91 ∧ b ≠ 123) (hword : isWordByte b = false) (h : Reads cs v rest) :
    takeByte b cs = none := by
  cases h with
  | string hopen => exact JsonReader.takeByte_eq_none hb.1.symm hopen
  | emptyArray hopen | array hopen => exact JsonReader.takeByte_eq_none hb.2.1.symm hopen
  | emptyObject hopen | object hopen => exact JsonReader.takeByte_eq_none hb.2.2.symm hopen
  | scalar hread => exact takeByte_scalar hword hread

/-- The items of an array are not its end. -/
theorem ReadsItems.takeByte_close {vs : List Json} (h : ReadsItems cs vs rest) : takeByte 93 cs = none := by
  cases h with
  | more hvalue | last hvalue => exact hvalue.takeByte_eq_none (by decide) (by decide)

theorem ReadsMembers.takeByte_close {ms : List (List UInt8 × Json)} (h : ReadsMembers cs ms rest) :
    takeByte 125 cs = none := by
  cases h with
  | more hkey | last hkey =>
    obtain ⟨_,_,hquote,_⟩ := hkey
    exact JsonReader.takeByte_eq_none (by decide) hquote

theorem ReadsKey.unique {key key' : List UInt8} (h : ReadsKey cs key rest) (h' : ReadsKey cs key' rest') :
    key = key' ∧ rest = rest' := by
  obtain ⟨cs₁,cs₂,hquote,hread,hcolon⟩ := h
  obtain ⟨cs₁',cs₂',hquote',hread',hcolon'⟩ := h'
  cases hquote.symm.trans hquote'
  cases hread.symm.trans hread'
  cases hcolon.symm.trans hcolon'
  exact ⟨rfl,rfl⟩

end Inversion

section Uniqueness

variable {cs cs' cs'' rest rest' key : List UInt8} {v : Json}

/-- Only this value can be read here. -/
def OnlyReads (cs : List UInt8) (v : Json) (rest : List UInt8) : Prop :=
  ∀ v' rest', Reads cs v' rest' → v = v' ∧ rest = rest'

/-- The first item is a value, and behind it is a comma or the end. -/
theorem ReadsItems.of_cons {vs : List Json} (h : ReadsItems cs (v :: vs) rest) : ∃ cs', Reads cs v cs' ∧
    ((∃ cs'', takeByte 44 cs' = some cs'' ∧ ReadsItems cs'' vs rest) ∨ (takeByte 93 cs' = some rest ∧ vs = [])) := by
  cases h with
  | more hvalue hcomma hread => exact ⟨_,hvalue,.inl ⟨_,hcomma,hread⟩⟩
  | last hvalue hclose => exact ⟨_,hvalue,.inr ⟨hclose,rfl⟩⟩

theorem ReadsItems.of_comma {vs : List Json} (hv : OnlyReads cs v cs') (hcomma : takeByte 44 cs' = some cs'')
    (h : ReadsItems cs vs rest) : ∃ vs', ReadsItems cs'' vs' rest ∧ vs = v :: vs' := by
  cases h with
  | more hvalue hcomma' hread =>
    obtain ⟨rfl,rfl⟩ := hv _ _ hvalue
    cases hcomma.symm.trans hcomma'
    exact ⟨_,hread,rfl⟩
  | last hvalue hclose =>
    obtain ⟨rfl,rfl⟩ := hv _ _ hvalue
    cases takeByte_unique hcomma hclose

theorem ReadsItems.of_close {vs : List Json} (hv : OnlyReads cs v cs') (hclose : takeByte 93 cs' = some rest')
    (h : ReadsItems cs vs rest) : [v] = vs ∧ rest' = rest := by
  cases h with
  | more hvalue hcomma =>
    obtain ⟨rfl,rfl⟩ := hv _ _ hvalue
    cases takeByte_unique hclose hcomma
  | last hvalue hclose' =>
    obtain ⟨rfl,rfl⟩ := hv _ _ hvalue
    cases hclose.symm.trans hclose'
    exact ⟨rfl,rfl⟩

/-- A member with a known key has a value, and behind it is a comma or the end. -/
theorem ReadsMembers.of_key {ms : List (List UInt8 × Json)} (hkey : ReadsKey cs key cs')
    (h : ReadsMembers cs ms rest) : ∃ v cs'', Reads cs' v cs'' ∧
      ((∃ cs₃ ms', takeByte 44 cs'' = some cs₃ ∧ ReadsMembers cs₃ ms' rest ∧ ms = (key,v) :: ms') ∨
        (takeByte 125 cs'' = some rest ∧ ms = [(key,v)])) := by
  cases h with
  | more hkey' hvalue hcomma hread =>
    obtain ⟨rfl,rfl⟩ := hkey.unique hkey'
    exact ⟨_,_,hvalue,.inl ⟨_,_,hcomma,hread,rfl⟩⟩
  | last hkey' hvalue hclose =>
    obtain ⟨rfl,rfl⟩ := hkey.unique hkey'
    exact ⟨_,_,hvalue,.inr ⟨hclose,rfl⟩⟩

theorem ReadsMembers.of_comma {cs₃ : List UInt8} {ms : List (List UInt8 × Json)} (hkey : ReadsKey cs key cs')
    (hv : OnlyReads cs' v cs'') (hcomma : takeByte 44 cs'' = some cs₃) (h : ReadsMembers cs ms rest) :
    ∃ ms', ReadsMembers cs₃ ms' rest ∧ ms = (key,v) :: ms' := by
  obtain ⟨v',left,hvalue,hnext⟩ := h.of_key hkey
  obtain ⟨rfl,rfl⟩ := hv _ _ hvalue
  rcases hnext with ⟨cs₄,ms',hcomma',hread,rfl⟩ | ⟨hclose,-⟩
  · cases hcomma.symm.trans hcomma'
    exact ⟨ms',hread,rfl⟩
  · cases takeByte_unique hcomma hclose

theorem ReadsMembers.of_close {ms : List (List UInt8 × Json)} (hkey : ReadsKey cs key cs')
    (hv : OnlyReads cs' v cs'') (hclose : takeByte 125 cs'' = some rest') (h : ReadsMembers cs ms rest) :
    [(key,v)] = ms ∧ rest' = rest := by
  obtain ⟨v',left,hvalue,hnext⟩ := h.of_key hkey
  obtain ⟨rfl,rfl⟩ := hv _ _ hvalue
  rcases hnext with ⟨cs₄,ms',hcomma,-,-⟩ | ⟨hclose',rfl⟩
  · cases takeByte_unique hclose hcomma
  · cases hclose.symm.trans hclose'
    exact ⟨rfl,rfl⟩

/-- A text has at most one reading: values, items and members together. -/
theorem Reads.only (h : Reads cs v rest) : OnlyReads cs v rest := by
  refine @Reads.rec (fun cs v rest _ => OnlyReads cs v rest)
    (fun cs vs rest _ => ∀ vs' rest', ReadsItems cs vs' rest' → vs = vs' ∧ rest = rest')
    (fun cs ms rest _ => ∀ ms' rest', ReadsMembers cs ms' rest' → ms = ms' ∧ rest = rest')
    ?_ ?_ ?_ ?_ ?_ ?_ ?_ ?_ ?_ ?_ cs v rest h
  · intro cs cs' bytes rest hopen hread v' rest' h'
    obtain ⟨bytes',rfl,hread'⟩ := h'.of_quote hopen
    cases hread.symm.trans hread'
    exact ⟨rfl,rfl⟩
  · intro cs cs' rest hopen hclose v' rest' h'
    rcases h'.of_bracket hopen with ⟨rfl,hclose'⟩ | ⟨vs,-,hitems⟩
    · cases hclose.symm.trans hclose'
      exact ⟨rfl,rfl⟩
    · cases hclose.symm.trans hitems.takeByte_close
  · intro cs cs' rest vs hopen hread ih v' rest' h'
    rcases h'.of_bracket hopen with ⟨-,hclose⟩ | ⟨vs',rfl,hitems⟩
    · cases hclose.symm.trans hread.takeByte_close
    · exact (ih vs' rest' hitems).imp_left (congrArg Json.array)
  · intro cs cs' rest hopen hclose v' rest' h'
    rcases h'.of_brace hopen with ⟨rfl,hclose'⟩ | ⟨ms,-,hmembers⟩
    · cases hclose.symm.trans hclose'
      exact ⟨rfl,rfl⟩
    · cases hclose.symm.trans hmembers.takeByte_close
  · intro cs cs' rest ms hopen hread ih v' rest' h'
    rcases h'.of_brace hopen with ⟨-,hclose⟩ | ⟨ms',rfl,hmembers⟩
    · cases hclose.symm.trans hread.takeByte_close
    · exact (ih ms' rest' hmembers).imp_left (congrArg Json.object)
  · exact fun hread v' rest' h' => h'.of_scalar hread
  · intro cs cs' cs'' rest v vs _ hcomma _ hv ih vs' rest' h'
    obtain ⟨vs'',hread,rfl⟩ := h'.of_comma hv hcomma
    exact (ih vs'' rest' hread).imp_left (congrArg (v :: ·))
  · exact fun _ hclose hv vs' rest' h' => h'.of_close hv hclose
  · intro cs cs' cs'' cs₃ rest key v ms hkey _ hcomma _ hv ih ms' rest' h'
    obtain ⟨ms'',hread,rfl⟩ := h'.of_comma hkey hv hcomma
    exact (ih ms'' rest' hread).imp_left (congrArg ((key,v) :: ·))
  · exact fun hkey _ hclose hv ms' rest' h' => h'.of_close hkey hv hclose

theorem Reads.unique {v' : Json} (h : Reads cs v rest) (h' : Reads cs v' rest') : v = v' ∧ rest = rest' :=
  h.only v' rest' h'

end Uniqueness
end JsonReader
