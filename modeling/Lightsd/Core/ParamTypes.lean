import Lightsd.Core.HandlerFailures
import Lightsd.Core.NumberTexts
import Lightsd.Core.RequestGrammar

/-! # The checks of parameters and the values they see

The checks get a token and the whole buffer, and numbers are read without regard to the end
of the token. Still their verdict depends on the value alone, wherever it stands in a
well-formed text: behind a value there are blanks and then a comma or a bracket, which end
every number.
-/
namespace Lightsd.Core.Jsonrpc

open Json OrderedTree Jsmn

/-- What a check says of a value that stands alone in an array. -/
def verdict (cmp : TypeCmp) (v : Value) : Bool := cmp (rootToken (v.node 0)) (v.text ++ [93])

/-- The check says the same of a value wherever it stands. -/
def Uniform (cmp : TypeCmp) : Prop :=
  ∀ json t v, Shown json t v → cmp (rootToken t) json = verdict cmp v

section Strtol
variable {json json' s rest rest' : List UInt8} {i i' : ℕ}

theorem delimiter_outside {c : UInt8} (h : c = 44 ∨ c = 93 ∨ c = 125) :
    ¬ (isCSpace c = true ∨ c = 43 ∨ c = 45 ∨ isDigit c = true) := by
  rcases h with rfl | rfl | rfl <;> decide

theorem space_not_digit : ∀ c : UInt8, isSpace c = true → isDigit c = false := by decide +kernel

theorem Numeral.chars {blanks sign ds tail : List UInt8} (h : Numeral s blanks sign ds tail) :
    ∀ c ∈ blanks ++ (sign ++ ds), isCSpace c = true ∨ c = 43 ∨ c = 45 ∨ isDigit c = true := by
  intro c hc
  rcases List.mem_append.mp hc with hc | hc
  · exact .inl (h.blanks c hc)
  · rcases List.mem_append.mp hc with hc | hc
    · rcases h.sign with rfl | rfl | rfl <;> simp_all
    · exact .inr (.inr (.inr (h.digits c hc)))

/-- What follows white space and a delimiter has no digit at the end of a numeral. -/
theorem not_digit_of_delimited {more tail : List UInt8} {d : UInt8} (hrest : Delimited (more ++ d :: tail))
    (hchars : ∀ c ∈ more ++ [d], isCSpace c = true ∨ c = 43 ∨ c = 45 ∨ isDigit c = true) : isDigit d = false := by
  obtain ⟨space,c,cs,heq,hspace,hc⟩ := hrest
  rcases List.append_eq_append_iff.mp heq with ⟨as,rfl,htail⟩ | ⟨bs,rfl,hbs⟩
  · cases as with
    | nil =>
      cases htail
      exact absurd (hchars d (by simp)) (delimiter_outside hc)
    | cons a as =>
      obtain ⟨rfl,-⟩ := List.cons.inj htail
      exact space_not_digit d (hspace d (by simp))
  · cases bs with
    | nil =>
      cases hbs
      exact absurd (hchars d (by simp)) (delimiter_outside hc)
    | cons b bs =>
      obtain ⟨rfl,-⟩ := List.cons.inj hbs
      exact absurd (hchars c (by simp)) (delimiter_outside hc)

/-- A numeral does not go on behind what is followed by white space and a delimiter. -/
theorem numeral_inside {blanks sign ds tail : List UInt8} (h : Numeral (s ++ rest) blanks sign ds tail)
    (hrest : Delimited rest) : ∃ more, s = blanks ++ (sign ++ (ds ++ more)) ∧ tail = more ++ rest := by
  have htext : (blanks ++ (sign ++ ds)) ++ tail = s ++ rest := by simp [h.text]
  rcases List.append_eq_append_iff.mp htext with ⟨more,hs,htail⟩ | ⟨more,hnum,hrest'⟩
  · exact ⟨more,by simpa using hs,htail⟩
  · rcases List.eq_nil_or_concat' more with rfl | ⟨init,d,rfl⟩
    · exact ⟨[],by simpa using hnum.symm,hrest'.symm⟩
    · obtain ⟨ds',e,rfl⟩ := (List.eq_nil_or_concat' ds).resolve_left h.nonempty
      have hlast : blanks ++ (sign ++ ds') ++ [e] = s ++ init ++ [d] := by simpa using hnum
      obtain ⟨-,hde⟩ := List.append_inj' hlast rfl
      obtain rfl : e = d := by simpa using hde
      have hbehind : Delimited (init ++ e :: tail) := by simpa [hrest'] using hrest
      have hnot : isDigit e = false := by
        refine not_digit_of_delimited hbehind (fun c hc => h.chars c ?_)
        rw [hnum]
        exact List.mem_append_right _ hc
      exact absurd (h.digits e (by simp)) (by simp [hnot])

theorem digitsEnd_of_delimited (h : Delimited rest) : DigitsEnd rest := by
  obtain ⟨space,c,cs,rfl,hspace,hc⟩ := h
  cases space with
  | nil =>
    rintro d ⟨⟩
    rcases hc with rfl | rfl | rfl <;> decide
  | cons b bs =>
    rintro d ⟨⟩
    exact space_not_digit b (hspace b List.mem_cons_self)

/-- The numeral at the begin of some characters does not depend on what is behind them. -/
theorem numeral_move {blanks sign ds tail : List UInt8} (h : Numeral (s ++ rest) blanks sign ds tail)
    (hrest : Delimited rest) (hrest' : Delimited rest') :
    blanks.length + sign.length + ds.length ≤ s.length ∧ ∃ tail', Numeral (s ++ rest') blanks sign ds tail' := by
  obtain ⟨more,rfl,rfl⟩ := numeral_inside h hrest
  refine ⟨?_,more ++ rest',by simp,h.blanks,h.sign,h.digits,h.nonempty,?_⟩
  · simp only [List.length_append]
    omega
  · cases more with
    | nil => exact digitsEnd_of_delimited hrest'
    | cons m ms =>
      rintro c ⟨⟩
      exact h.rest m rfl

theorem clipped_eq (v : ℤ) : ∃ w e, ∀ stop, Strtol.clipped v stop = ⟨w,stop,e⟩ := by
  simp only [Strtol.clipped]
  split_ifs
  · exact ⟨longMin,true,fun _ => rfl⟩
  · exact ⟨longMax,true,fun _ => rfl⟩
  · exact ⟨v,false,fun _ => rfl⟩

/-- The same characters before a delimiter give the same number, as far from their begin. -/
theorem strtol_shift (h : json.drop i = s ++ rest) (h' : json'.drop i' = s ++ rest') (hrest : Delimited rest)
    (hrest' : Delimited rest') :
    ∃ v n e, n ≤ s.length ∧ strtol json i = ⟨v,i + n,e⟩ ∧ strtol json' i' = ⟨v,i' + n,e⟩ := by
  rcases strtol_cases json i with hnone | ⟨blanks,sign,ds,tail,hnum⟩
  · rcases strtol_cases json' i' with hnone' | ⟨blanks,sign,ds,tail,hnum⟩
    · exact ⟨0,0,false,Nat.zero_le _,hnone,hnone'⟩
    · rw [h'] at hnum
      obtain ⟨-,tail',hnum'⟩ := numeral_move hnum hrest' hrest
      rw [← h] at hnum'
      have hstop := congrArg Strtol.stop (hnone.symm.trans (strtol_numeral hnum'))
      have hpos := List.length_pos_of_ne_nil hnum.nonempty
      rw [clipped_stop] at hstop
      dsimp only at hstop
      omega
  · rw [h] at hnum
    obtain ⟨hlen,tail',hnum'⟩ := numeral_move hnum hrest hrest'
    rw [← h] at hnum
    rw [← h'] at hnum'
    obtain ⟨v,e,hclip⟩ := clipped_eq (signed sign ds)
    refine ⟨v,blanks.length + sign.length + ds.length,e,hlen,?_,?_⟩
    · rw [strtol_numeral hnum,hclip,Nat.add_assoc,Nat.add_assoc,Nat.add_assoc]
    · rw [strtol_numeral hnum',hclip,Nat.add_assoc,Nat.add_assoc,Nat.add_assoc]

end Strtol

section Checks

/-- The token of a primitive with the given characters. -/
def primitiveToken (pos : ℕ) (chars : List UInt8) : Token := ⟨.primitive,pos,pos + chars.length,0⟩

/-- Characters at a position, and a delimiter behind them. -/
structure Spells (json : List UInt8) (pos : ℕ) (chars rest : List UInt8) : Prop where
  text : json.drop pos = chars ++ rest
  ends : Delimited rest

/-- A check that refuses everything but primitives has to say the same of two spellings. -/
theorem uniform_of_primitive {cmp : TypeCmp} (hother : ∀ {t json}, t.type ≠ .primitive → cmp t json = false)
    (hsame : ∀ {json json' pos pos' chars rest rest'}, primitiveChars chars = true → Spells json pos chars rest →
      Spells json' pos' chars rest' → cmp (primitiveToken pos chars) json = cmp (primitiveToken pos' chars) json') :
    Uniform cmp := by
  rintro json t v ⟨pos,rest,rfl,hv,hdrop,hrest⟩
  have hpar : Delimited [93] := ⟨[],93,[],rfl,nofun,by simp⟩
  rw [verdict]
  cases v with
  | primitive chars =>
    rw [Value.Valid] at hv
    rw [Value.text] at hdrop ⊢
    have heq := hsame hv ⟨hdrop,hrest⟩ (⟨rfl,hpar⟩ : Spells (chars ++ [93]) 0 chars [93])
    simpa [Value.node,rootToken,Label.token,primitiveToken] using heq
  | string chars => simp [Value.node,rootToken,Label.token,hother]
  | array space items => simp [Value.node,rootToken,Label.token,hother]
  | object space members => simp [Value.node,rootToken,Label.token,hother]

theorem typeInteger_uniform : Uniform typeInteger := by
  refine uniform_of_primitive (fun h => by simp [typeInteger,h]) ?_
  intro json json' pos pos' chars rest rest' _ h h'
  obtain ⟨v,n,e,-,heq,heq'⟩ := strtol_shift h.text h'.text h.ends h'.ends
  simp [typeInteger,primitiveToken,heq,heq']

theorem Spells.first {json rest : List UInt8} {pos : ℕ} {c : UInt8} {cs : List UInt8}
    (h : Spells json pos (c :: cs) rest) : byteAt json pos = c := byteAt_of_drop h.text

theorem exists_first {chars : List UInt8} (h : primitiveChars chars = true) : ∃ c cs, chars = c :: cs := by
  cases chars with
  | nil => cases h
  | cons c cs => exact ⟨c,cs,rfl⟩

theorem tokenText_spelled {json chars rest : List UInt8} {pos : ℕ} (h : Spells json pos chars rest) :
    tokenText json (primitiveToken pos chars) = chars :=
  tokenText_of_number ⟨h.text,rfl,digitsEnd_of_delimited h.ends⟩

theorem typeFloatBetween0And1_uniform : Uniform typeFloatBetween0And1 := by
  refine uniform_of_primitive (fun h => by simp [typeFloatBetween0And1,h]) ?_
  intro json json' pos pos' chars rest rest' _ h h'
  rw [typeFloatBetween0And1,typeFloatBetween0And1,tokenText_spelled h,tokenText_spelled h']
  rfl

theorem typeNumber_uniform : Uniform typeNumber := by
  refine uniform_of_primitive (fun h => by simp [typeNumber,h]) ?_
  intro json json' pos pos' chars rest rest' hchars h h'
  obtain ⟨c,cs,rfl⟩ := exists_first hchars
  simp [typeNumber,primitiveToken,h.first,h'.first]

theorem typeBool_uniform : Uniform typeBool := by
  refine uniform_of_primitive (fun h => by simp [typeBool,h]) ?_
  intro json json' pos pos' chars rest rest' hchars h h'
  obtain ⟨c,cs,rfl⟩ := exists_first hchars
  simp [typeBool,primitiveToken,h.first,h'.first]

/-- The characters behind some of the characters. -/
theorem Spells.drop {json chars rest : List UInt8} {pos n : ℕ} (h : Spells json pos chars rest)
    (hn : n ≤ chars.length) :
    Spells json (pos + n) (chars.drop n) rest := by
  refine ⟨?_,h.ends⟩
  rw [← List.drop_drop,h.text,List.drop_append_of_le_length hn]

/-- What is asked of a hue, in terms of the numbers in front of and behind its dot. -/
def HueNumbers (c d : UInt8) (len n : ℕ) (int frac : Strtol) (fracEnd : Prop) : Prop :=
  (c = 45 ∨ c ≤ 57 ∧ 48 ≤ c) ∧ (n = len ∨ d = 46) ∧ int.erange = false ∧ 0 ≤ int.value ∧ int.value ≤ 360 ∧
    (int.value ≠ 0 ∨ c ≠ 45) ∧
    (n = len ∨ fracEnd ∧ frac.erange = false ∧ 0 ≤ frac.value ∧ (int.value < 360 ∨ frac.value = 0))

theorem typeFloatBetween0And360_iff {json chars : List UInt8} {pos n : ℕ}
    (hstop : (strtol json pos).stop = pos + n) :
    typeFloatBetween0And360 (primitiveToken pos chars) json = true ↔
      HueNumbers (byteAt json pos) (byteAt json (pos + n)) chars.length n (strtol json pos) (strtol json (pos + n + 1))
        ((strtol json (pos + n + 1)).stop = pos + chars.length) := by
  have hfrac : ((strtol json (pos + n + 1)).stop : ℤ) = pos + chars.length ↔
      (strtol json (pos + n + 1)).stop = pos + chars.length := by omega
  unfold primitiveToken
  simp only [typeFloatBetween0And360,hstop,HueNumbers]
  simp [hfrac,and_assoc]

theorem typeFloatBetween0And360_uniform : Uniform typeFloatBetween0And360 := by
  refine uniform_of_primitive (fun h => by simp [typeFloatBetween0And360,h]) ?_
  intro json json' pos pos' chars rest rest' hchars h h'
  obtain ⟨v,n,e,hn,heq,heq'⟩ := strtol_shift h.text h'.text h.ends h'.ends
  have hfirst : byteAt json pos = byteAt json' pos' := by
    obtain ⟨c,cs,rfl⟩ := exists_first hchars
    rw [h.first,h'.first]
  rw [Bool.eq_iff_iff,typeFloatBetween0And360_iff (congrArg Strtol.stop heq),
    typeFloatBetween0And360_iff (congrArg Strtol.stop heq'),heq,heq',hfirst]
  rcases hn.lt_or_eq with hlt | rfl
  · -- the integer part ends inside the token, so that a fraction may follow it
    have hdrop : chars.drop n = chars[n] :: chars.drop (n + 1) := List.drop_eq_getElem_cons hlt
    have hbyte : byteAt json (pos + n) = byteAt json' (pos' + n) := by
      have hbehind := h.drop hn
      have hbehind' := h'.drop hn
      rw [hdrop] at hbehind hbehind'
      rw [hbehind.first,hbehind'.first]
    have hfrac := h.drop (n := n + 1) hlt
    have hfrac' := h'.drop (n := n + 1) hlt
    obtain ⟨w,k,e',-,hk,hk'⟩ := strtol_shift hfrac.text hfrac'.text h.ends h'.ends
    have hends : pos + (n + 1) + k = pos + chars.length ↔ pos' + (n + 1) + k = pos' + chars.length := by omega
    rw [hbyte,Nat.add_assoc pos,Nat.add_assoc pos',hk,hk']
    simp only [HueNumbers,hends]
  · simp [HueNumbers]

/-- A check of the kind of a token. -/
theorem uniform_of_type (p : TokenType → Bool) : Uniform (fun t _ => p t.type) := by
  rintro json t v ⟨pos,rest,rfl,-,-,-⟩
  cases v <;> rfl

theorem Uniform.or {cmp cmp' : TypeCmp} (h : Uniform cmp) (h' : Uniform cmp') :
    Uniform (fun t json => cmp t json || cmp' t json) := by
  intro json t v hv
  exact congrArg₂ _ (h json t v hv) (h' json t v hv)

theorem typeString_uniform : Uniform typeString := uniform_of_type (· = .string)

theorem typeStringNumberOrArray_uniform : Uniform typeStringNumberOrArray :=
  (typeString_uniform.or typeNumber_uniform).or (uniform_of_type (· = .array))

/-- The verdicts of all tables depend on the values alone. -/
theorem uniform_params : ∀ schema ∈ paramSchemas, ∀ x ∈ schema, Uniform x.typeCmp := by
  simp only [paramSchemas,setLightFromHsbkSchema,setWaveformSchema,targetSchema,targetLabelSchema,List.forall_mem_cons,
    List.not_mem_nil,false_implies,implies_true,and_true]
  have hstring := typeString_uniform
  have hunit := typeFloatBetween0And1_uniform
  have hhue := typeFloatBetween0And360_uniform
  have hint := typeInteger_uniform
  have htarget := typeStringNumberOrArray_uniform
  have hbool := typeBool_uniform
  exact ⟨⟨htarget,hhue,hunit,hunit,hint,hint⟩,
    ⟨htarget,hstring,hhue,hunit,hunit,hint,hint,hint,hunit,hbool⟩,htarget,htarget,hstring⟩

end Checks
end Lightsd.Core.Jsonrpc
