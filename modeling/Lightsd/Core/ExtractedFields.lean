import Lightsd.Core.DictExtraction
import Lightsd.Core.HandlerFailures
import Lightsd.Core.Primitives

/-! # What an extraction leaves behind

Whatever the tokens are, a field that has been filled in names a token that was read and
that passed the check of its row, and the number of tokens beside it is how far the walk
went on behind it. So the tokens of the parameters, and all those of the targets, can be
read again.
-/
namespace Lightsd.Core.Jsonrpc

open IndexLoop Jsmn

section Passing
variable {toks : List Token} {parsed limit i j : ℕ}

theorem getElem?_of_readToken {t : Token} (h : readToken toks i = .ok t) : toks[i]? = some t := by
  rw [readToken] at h
  split at h
  next hget =>
    cases h
    exact hget
  next => cases h

theorem mem_of_readToken {t : Token} (h : readToken toks i = .ok t) : t ∈ toks :=
  List.mem_of_getElem? (getElem?_of_readToken h)

theorem lt_of_readToken {t : Token} (h : readToken toks i = .ok t) : i < toks.length := by
  by_contra hge
  rw [readToken,List.getElem?_eq_none (Nat.le_of_not_lt hge)] at h
  cases h

theorem exists_readToken (h : i < toks.length) : ∃ t, readToken toks i = .ok t := by
  simp [readToken,List.getElem?_eq_getElem h]

theorem passValue_le_length {consume : ℕ → Except Crash ℕ} (hc : ∀ i j, consume i = .ok j → j ≤ toks.length)
    (h : passValue consume toks i = .ok j) : j ≤ toks.length := by
  obtain ⟨t,hread,hpass⟩ := exists_of_bind_ok h
  split at hpass
  · exact hc i j hpass
  · cases hpass
    exact lt_of_readToken hread

theorem consumeEntries_le_length {consume : ℕ → Except Crash ℕ} (hc : ∀ i j, consume i = .ok j → j ≤ toks.length)
    (type : TokenType) {n : ℕ} (hi : i ≤ toks.length) (h : consumeEntries consume toks type parsed n i = .ok j) :
    j ≤ toks.length := by
  induction n generalizing i with
  | zero =>
    cases h
    exact hi
  | succ n ih =>
    unfold consumeEntries at h
    split at h
    · obtain ⟨k,hpass,hrest⟩ := exists_of_bind_ok h
      exact ih (passValue_le_length hc hpass) hrest
    · cases h
      exact hi

theorem consumeFuel_le_length {fuel : ℕ} (h : consumeFuel toks parsed fuel i = .ok j) : j ≤ toks.length := by
  induction fuel generalizing i j with
  | zero => cases h
  | succ fuel ih =>
    obtain ⟨t,hread,hrest⟩ := exists_of_bind_ok h
    split at hrest
    · cases hrest
    · split at hrest
      · cases hrest
      · exact consumeEntries_le_length (fun _ _ => ih) _ (lt_of_readToken hread) hrest

/-- Passing a value reads no token but those it passes. -/
theorem skipValue_bounds (h : skipValue toks i limit = .ok j) : i < j ∧ j ≤ toks.length :=
  ⟨lt_of_skipValue h,passValue_le_length (fun _ _ => consumeFuel_le_length) h⟩

theorem skipValue_plain {t : Token} (hread : readToken toks i = .ok t) (ht : isContainer t = false)
    (h : skipValue toks i limit = .ok j) : j = i + 1 := by
  obtain ⟨t',hread',hpass⟩ := exists_of_bind_ok h
  obtain rfl : t = t' := Except.ok.inj (hread.symm.trans hread')
  rw [ht] at hpass
  exact (Except.ok.inj hpass).symm

end Passing

section Extraction
variable {φ : Type} {schema : List (Node φ)} {toks : List Token} {json : List UInt8} {out : Output φ}

/-- The fields name tokens that passed the checks of their rows, and beside them there is
the number of tokens that were passed. -/
structure Extracted (schema : List (Node φ)) (toks : List Token) (json : List UInt8) (out : Output φ) : Prop where
  row : ∀ f i, out.value f = some i → ∃ x ∈ schema, x.valueOffset = some f ∧
    ∃ t, readToken toks i = .ok t ∧ x.typeCmp t json = true
  passed : ∀ x ∈ schema, ∀ f g, x.valueOffset = some f → x.ntokensOffset = some g → ∀ i, out.value f = some i →
    ∃ limit, skipValue toks i limit = .ok (i + out.ntokens g)

theorem extracted_empty : Extracted schema toks json {} := ⟨nofun,fun _ _ _ _ _ _ _ h => by cases h⟩

variable [DecidableEq φ]

namespace Output

theorem setValue_value (out : Output φ) (offset : Option φ) (i : ℕ) (f : φ) :
    (out.setValue offset i).value f = if offset = some f then some i else out.value f := by
  cases offset with
  | none => simp [setValue]
  | some g =>
    by_cases hg : g = f
    · simp [setValue,hg]
    · simp [setValue,hg,Function.update_of_ne (Ne.symm hg)]

theorem setNtokens_ntokens (out : Output φ) (offset : Option φ) (n : ℕ) (f : φ) :
    (out.setNtokens offset n).ntokens f = if offset = some f then n else out.ntokens f := by
  cases offset with
  | none => simp [setNtokens]
  | some g =>
    by_cases hg : g = f
    · simp [setNtokens,hg]
    · simp [setNtokens,hg,Function.update_of_ne (Ne.symm hg)]

theorem setNtokens_value (out : Output φ) (offset : Option φ) (n : ℕ) :
    (out.setNtokens offset n).value = out.value := by
  cases offset <;> rfl

theorem setValue_ntokens (out : Output φ) (offset : Option φ) (i : ℕ) :
    (out.setValue offset i).ntokens = out.ntokens := by
  cases offset <;> rfl

end Output

/-- A value that passes the check of a row is filled in. -/
theorem Extracted.fill (htidy : Tidy schema) (h : Extracted schema toks json out) {x : Node φ} (hx : x ∈ schema)
    {t : Token} {i next limit : ℕ} (hread : readToken toks i = .ok t) (htype : x.typeCmp t json = true)
    (hskip : skipValue toks i limit = .ok next) :
    Extracted schema toks json ((out.setValue x.valueOffset i).setNtokens x.ntokensOffset (next - i)) := by
  refine ⟨?_,?_⟩
  · intro f k hk
    rw [Output.setNtokens_value,Output.setValue_value] at hk
    split at hk
    next hf =>
      cases hk
      exact ⟨x,hx,hf,t,hread,htype⟩
    next => exact h.row f k hk
  · intro y hy f g hf hg k hk
    rw [Output.setNtokens_value,Output.setValue_value] at hk
    rw [Output.setNtokens_ntokens,Output.setValue_ntokens]
    split at hk
    next hxf =>
      cases hk
      obtain rfl := htidy.row_unique hx hy (htidy.values x hx y hy f hxf hf)
      have hlt := lt_of_skipValue hskip
      refine ⟨limit,?_⟩
      rw [if_pos hg,hskip]
      congr 1
      omega
    next hxf =>
      have hne : x.ntokensOffset ≠ some g := by
        intro hxg
        obtain rfl := htidy.row_unique hx hy (htidy.counts x hx y hy g hxg hg)
        exact hxf hf
      rw [if_neg hne]
      exact h.passed y hy f g hf hg k hk

/-- What a round of the walk over an object can do. -/
theorem dictBody_cases {limit i : ℕ} {step : Step (Output φ) (Bool × Output φ)}
    (h : dictBody schema toks json limit i out = .ok step) :
    (∃ ok, step = .done (ok,out)) ∨ (∃ next, step = .next next out) ∨
      ∃ x ∈ schema, ∃ t next, readToken toks (i + 1) = .ok t ∧ x.typeCmp t json = true ∧
        skipValue toks (i + 1) limit = .ok next ∧
        step = .next next ((out.setValue x.valueOffset (i + 1)).setNtokens x.ntokensOffset (next - (i + 1))) := by
  obtain ⟨key,-,hkey⟩ := exists_of_bind_ok h
  split at hkey
  · cases hkey
    exact .inl ⟨true,rfl⟩
  · split at hkey
    next =>
      obtain ⟨next,-,hnext⟩ := exists_of_bind_ok hkey
      cases hnext
      exact .inr (.inl ⟨next,rfl⟩)
    next x hfind =>
      obtain ⟨t,hread,hvalue⟩ := exists_of_bind_ok hkey
      split at hvalue
      · cases hvalue
        exact .inl ⟨false,rfl⟩
      next htype =>
        split at hvalue
        · cases hvalue
          exact .inl ⟨false,rfl⟩
        · obtain ⟨next,hskip,hnext⟩ := exists_of_bind_ok hvalue
          cases hnext
          exact .inr (.inr ⟨x,List.mem_of_find?_eq_some hfind,t,next,hread,by simpa using htype,hskip,rfl⟩)

theorem dictWalk_extracted (htidy : Tidy schema) {limit i : ℕ} (hout : Extracted schema toks json out)
    {r : Bool × Output φ} (h : dictWalk schema json toks limit i out = .ok r) : Extracted schema toks json r.2 := by
  refine @loop_rule _ _ _ _ _ _ _ (dictBody_advances schema json toks limit) (fun _ s => Extracted schema toks json s)
    (fun x => ∀ r, x = .ok r → Extracted schema toks json r.2) ?_ ?_ ?_ ?_ _ _ hout r h
  · rintro i s - hs r ⟨⟩
    exact hs
  · rintro i s e - - - r ⟨⟩
  · rintro i s r - hs hbody r' ⟨⟩
    rcases dictBody_cases hbody with ⟨ok,hstep⟩ | ⟨next,hstep⟩ | ⟨x,-,t,next,-,-,-,hstep⟩
    · cases hstep
      exact hs
    · cases hstep
    · cases hstep
  · intro i s i' s' _ hs hbody
    rcases dictBody_cases hbody with ⟨ok,hstep⟩ | ⟨next,hstep⟩ | ⟨x,hx,t,next,hread,htype,hskip,hstep⟩
    · cases hstep
    · cases hstep
      exact hs
    · cases hstep
      exact hs.fill htidy hx hread htype hskip

theorem extractFromDict_extracted (htidy : Tidy schema) {base n : ℕ} (hout : Extracted schema toks json out)
    {r : Bool × Output φ} (h : extractFromDict schema toks json out base n = .ok r) :
    Extracted schema toks json r.2 := by
  unfold extractFromDict at h
  split at h
  · cases h
    exact hout
  · obtain ⟨tok,-,htok⟩ := exists_of_bind_ok h
    split at htok
    · cases htok
      exact hout
    · obtain ⟨r',hwalk,hr⟩ := exists_of_bind_ok htok
      cases hr
      exact dictWalk_extracted (r := r') htidy hout hwalk

theorem arrayLoop_extracted (htidy : Tidy schema) {limit i size : ℕ} {nodes : List (Node φ)}
    (hnodes : ∀ x ∈ nodes, x ∈ schema) (hout : Extracted schema toks json out) {r : Bool × Output φ}
    (h : arrayLoop toks json limit nodes i size out = .ok r) : Extracted schema toks json r.2 := by
  induction nodes generalizing i size out with
  | nil =>
    cases h
    exact hout
  | cons x nodes ih =>
    unfold arrayLoop at h
    split at h
    · cases size with
      | zero =>
        cases h
        exact hout
      | succ size =>
        obtain ⟨t,hread,hvalue⟩ := exists_of_bind_ok h
        split at hvalue
        · cases hvalue
          exact hout
        next htype =>
          obtain ⟨next,hskip,hrest⟩ := exists_of_bind_ok hvalue
          have hfill := hout.fill htidy (hnodes x List.mem_cons_self) hread (by simpa using htype) hskip
          exact ih (fun y hy => hnodes y (List.mem_cons_of_mem _ hy)) hfill hrest
    · cases h
      exact hout

theorem extractFromArray_extracted (htidy : Tidy schema) {base n : ℕ} (hout : Extracted schema toks json out)
    {r : Bool × Output φ} (h : extractFromArray schema toks json out base n = .ok r) :
    Extracted schema toks json r.2 := by
  unfold extractFromArray at h
  split at h
  · cases h
    exact hout
  · obtain ⟨tok,-,htok⟩ := exists_of_bind_ok h
    split at htok
    · cases htok
      exact hout
    · exact arrayLoop_extracted htidy (fun _ hx => hx) hout htok

/-- However the parameters are given, what is filled in has been read and has passed. -/
theorem extractAndValidateParams_extracted (htidy : Tidy schema) {base : Option ℕ} {n : ℕ} {r : Bool × Output φ}
    (h : extractAndValidateParams schema toks json base n = .ok r) : Extracted schema toks json r.2 := by
  unfold extractAndValidateParams at h
  split at h
  · cases h
    exact extracted_empty
  · split at h
    · cases h
    · obtain ⟨tok,-,htok⟩ := exists_of_bind_ok h
      split at htok
      · exact extractFromDict_extracted htidy extracted_empty htok
      · exact extractFromArray_extracted htidy extracted_empty htok
      · cases htok
        exact extracted_empty

end Extraction

section Targets
variable {schema : List (Node ParamField)} {toks : List Token} {json : List UInt8} {out : Output ParamField}

theorem paramSchemas_tidy (h : schema ∈ paramSchemas) : Tidy schema := by
  have hall : ∀ s ∈ paramSchemas, (s.map Node.key).Nodup ∧ (s.map Node.valueOffset).Nodup ∧
      ∀ x ∈ s, x.ntokensOffset = none ∨ x.ntokensOffset = x.valueOffset := by decide +kernel
  exact tidy_of_nodup (hall schema h)

theorem paramSchemas_filled (h : schema ∈ paramSchemas) : ∀ x ∈ schema, x.valueOffset.isSome = true := by
  have hall : ∀ s ∈ paramSchemas, ∀ x ∈ s, x.valueOffset.isSome = true := by decide +kernel
  exact hall schema h

/-- The tokens of the targets can be read: the targets are given, or the client is told
that they are none. -/
theorem targetLoop_cases {first n : ℕ} (hn : first + n ≤ toks.length) (targets : List TargetName) :
    (∃ targets', ∀ c, targetLoop toks json first c n targets = .ok (c,some targets')) ∨
      ∀ c : Caller, targetLoop toks json first c n targets =
        .ok (c.sendError toks json .invalidParams "Invalid parameters",none) := by
  induction n generalizing targets with
  | zero => exact .inl ⟨targets,fun _ => rfl⟩
  | succ n ih =>
    obtain ⟨t,hread⟩ : ∃ t, readToken toks (first + n) = .ok t := exists_readToken (by omega)
    simp only [targetLoop,hread,bind,Except.bind]
    by_cases ht : typeStringOrNumber t json = true
    · simp only [ht,if_true]
      exact ih (by omega) _
    · simp only [ht]
      exact .inr (fun _ => rfl)

theorem target_row (hschema : schema ∈ paramSchemas) {x : Node ParamField} (hx : x ∈ schema)
    (hf : x.valueOffset = some .target) : x.typeCmp = typeStringNumberOrArray ∧ x.ntokensOffset = some .target := by
  have htidy := paramSchemas_tidy hschema
  have hmem : targetNode ∈ schema := by
    simp only [paramSchemas,List.mem_cons,List.not_mem_nil,or_false] at hschema
    rcases hschema with rfl | rfl | rfl | rfl <;> exact List.mem_cons_self
  obtain rfl := htidy.row_unique hx hmem (htidy.values x hx targetNode hmem .target hf rfl)
  exact ⟨rfl,rfl⟩

theorem buildTargetList_cases (hschema : schema ∈ paramSchemas) (hout : Extracted schema toks json out) {target : ℕ}
    (htarget : out.value .target = some target) :
    (∃ targets, ∀ c, buildTargetList toks json c target (out.ntokens .target) = .ok (c,some targets)) ∨
      ∀ c : Caller, buildTargetList toks json c target (out.ntokens .target) =
        .ok (c.sendError toks json .invalidParams "Invalid parameters",none) := by
  obtain ⟨x,hx,hf,t,hread,htype⟩ := hout.row .target target htarget
  obtain ⟨hcmp,hcount⟩ := target_row hschema hx hf
  obtain ⟨limit,hskip⟩ := hout.passed x hx .target .target hf hcount target htarget
  obtain ⟨hlt,hle⟩ := skipValue_bounds hskip
  have hpos : ¬ out.ntokens .target < 1 := by omega
  simp only [buildTargetList,if_neg hpos,hread,bind,Except.bind]
  by_cases harray : t.type = .array
  · simp only [harray,if_true]
    exact targetLoop_cases (by omega) _
  · have hplain : isContainer t = false := by
      rw [hcmp,typeStringNumberOrArray,typeString,typeNumber,typeArray] at htype
      simp only [isContainer,harray,decide_false,Bool.or_false,decide_eq_false_iff_not]
      intro hobject
      simp [hobject] at htype
    have hone : out.ntokens .target = 1 := by
      have hnext := skipValue_plain hread hplain hskip
      omega
    simp only [harray,if_false,hone,ne_eq,not_true_eq_false]
    exact targetLoop_cases (by omega) _

end Targets
end Lightsd.Core.Jsonrpc
