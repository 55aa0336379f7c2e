import Lightsd.Core.JsmnText

/-! # Primitives and their texts

Every primitive among the tokens of a buffer that was accepted is a run of printable
characters, of which the first one is a sign, a digit or the first letter of a literal, and
a delimiter stands behind it in the buffer. The other characters of the run are not looked
at by the tokenizer.
-/
namespace Lightsd.Core.Jsmn

open Json

/-- The token is a primitive with the given characters, and the rest of the buffer starts
with a delimiter. -/
structure PrimitiveAt (json : List UInt8) (t : Token) (chars rest : List UInt8) : Prop where
  type : t.type = .primitive
  text : json.drop t.start = chars ++ rest
  stop : t.stop = t.start + chars.length
  chars : primitiveChars chars = true
  ends : Ends rest

theorem PrimitiveAt.resize {json chars rest : List UInt8} {t : Token} (h : PrimitiveAt json t chars rest)
    (size : ℕ) : PrimitiveAt json { t with size } chars rest :=
  ⟨h.type,h.text,h.stop,h.chars,h.ends⟩

theorem parsePrimitive_ok {cs : List UInt8} {n : ℕ} (h : parsePrimitive cs = .ok n) :
    ∃ chars rest, cs = chars ++ rest ∧ chars.length = n ∧ Ends rest ∧
      chars.all (fun c => c ≠ 0 && !endsPrimitive c && !(c < 32 || 127 ≤ c)) = true := by
  induction cs generalizing n with
  | nil => cases h
  | cons c cs ih =>
    rw [parsePrimitive] at h
    split_ifs at h with h0 hends hrange
    · cases h
      exact ⟨[],c :: cs,rfl,rfl,⟨c,cs,rfl,hends⟩,rfl⟩
    · cases hcs : parsePrimitive cs with
      | error e =>
        rw [hcs] at h
        cases h
      | ok m =>
        rw [hcs] at h
        cases h
        obtain ⟨chars,rest,rfl,hlen,hrest,hchars⟩ := ih hcs
        refine ⟨c :: chars,rest,rfl,by rw [List.length_cons,hlen],hrest,?_⟩
        rw [List.all_cons,hchars]
        simp [h0,hends] at hrange ⊢
        exact hrange

/-- All primitives of a token array are such runs. -/
def PrimitivesIn (json : List UInt8) (tokens : List Token) : Prop :=
  ∀ t ∈ tokens, t.type = .primitive → ∃ chars rest, PrimitiveAt json t chars rest

variable {json : List UInt8} {p p' : Parser}

theorem PrimitivesIn.modify {tokens : List Token} (h : PrimitivesIn json tokens) (i : ℕ) :
    PrimitivesIn json (tokens.modify i (fun t => { t with size := t.size + 1 })) := by
  intro t ht htype
  obtain ⟨k,hk⟩ := List.mem_iff_getElem?.mp ht
  rw [List.getElem?_modify] at hk
  cases hu : tokens[k]? with
  | none =>
    rw [hu] at hk
    cases hk
  | some u =>
    have hmem := List.mem_iff_getElem?.mpr ⟨k,hu⟩
    rw [hu,Option.map_eq_map,Option.map_some,Option.some.injEq] at hk
    split at hk
    · subst hk
      obtain ⟨chars,rest,hat⟩ := h u hmem htype
      exact ⟨chars,rest,hat.resize _⟩
    · subst hk
      exact h u hmem htype

theorem PrimitivesIn.add {numTokens : ℕ} {tok : Token} (h : PrimitivesIn json p.tokens)
    (htok : tok.type = .primitive → ∃ chars rest, PrimitiveAt json tok chars rest)
    (hadd : p.add numTokens tok = .ok p') : PrimitivesIn json p'.tokens := by
  rw [Parser.add] at hadd
  split at hadd
  · cases hadd
  · cases hadd
    intro t ht
    rcases List.mem_append.mp ht with ht | ht
    · cases hs : p.toksuper with
      | none =>
        rw [hs] at ht
        exact h t ht
      | some i =>
        rw [hs] at ht
        exact h.modify i t ht
    · rw [List.mem_singleton.mp ht]
      exact htok

theorem PrimitivesIn.addIf {numTokens : Option ℕ} {tok : Token} (h : PrimitivesIn json p.tokens)
    (htok : tok.type = .primitive → ∃ chars rest, PrimitiveAt json tok chars rest)
    (hadd : p.addIf numTokens tok = .ok p') : PrimitivesIn json p'.tokens := by
  cases numTokens with
  | none =>
    cases hadd
    exact h
  | some n => exact h.add htok hadd

theorem PrimitivesIn.closeFrom {type : TokenType} {pos fuel i : ℕ} (h : PrimitivesIn json p.tokens)
    (htype : type ≠ .primitive) (hclose : p.closeFrom type pos fuel i = .ok p') :
    PrimitivesIn json p'.tokens := by
  induction fuel generalizing i with
  | zero => cases hclose
  | succ fuel ih =>
    rw [Parser.closeFrom] at hclose
    split at hclose
    next tok parent _ _ =>
      split at hclose
      · split at hclose
        next => cases hclose
        next htok =>
          cases hclose
          intro t ht htprim
          rcases List.mem_or_eq_of_mem_set ht with ht | rfl
          · exact h t ht htprim
          · exact absurd ((not_not.mp htok).symm.trans htprim) htype
      · cases parent with
        | none =>
          dsimp only at hclose
          split at hclose <;> cases hclose
          exact h
        | some j => exact ih hclose
    next => cases hclose

theorem bracket_char : ∀ c : UInt8, charKind c ≠ .opening .primitive ∧ charKind c ≠ .closing .primitive := by
  decide +kernel

theorem exists_of_bind_ok {ε α β : Type} {x : Except ε α} {f : α → Except ε β} {b : β}
    (h : (x >>= f) = .ok b) : ∃ a, x = .ok a ∧ f a = .ok b := by
  cases x with
  | error e => cases h
  | ok a => exact ⟨a,rfl,h⟩

theorem exists_of_map_ok {ε α β : Type} {x : Except ε α} {f : α → β} {b : β}
    (h : f <$> x = .ok b) : ∃ a, x = .ok a ∧ f a = b := by
  cases x with
  | error e => cases h
  | ok a => exact ⟨a,rfl,Except.ok.inj h⟩

/-- A round of the main loop adds no other primitives. -/
theorem PrimitivesIn.parseChar {numTokens : Option ℕ} {pos skip : ℕ} {c : UInt8} {cs : List UInt8}
    (h : PrimitivesIn json p.tokens) (hjson : json.drop pos = c :: cs)
    (hchar : parseChar numTokens p pos c cs = .ok (p',skip)) : PrimitivesIn json p'.tokens := by
  rw [Jsmn.parseChar] at hchar
  split at hchar
  next type hk =>
    obtain ⟨q,hadd,hq⟩ := exists_of_bind_ok hchar
    have htype : type ≠ .primitive := fun hprim => (bracket_char c).1 (hprim ▸ hk)
    have hadded : PrimitivesIn json q.tokens :=
      PrimitivesIn.addIf (p := { p with count := p.count + 1 }) h (fun hprim => absurd hprim htype) hadd
    split at hq <;> cases hq <;> exact hadded
  next type hk =>
    split at hchar
    · cases hchar
      exact h
    · obtain ⟨q,hclose,hq⟩ := exists_of_map_ok hchar
      cases hq
      rw [Parser.close] at hclose
      split at hclose
      · cases hclose
      · exact h.closeFrom (fun hprim => (bracket_char c).2 (hprim ▸ hk)) hclose
  next =>
    obtain ⟨n,-,hrest⟩ := exists_of_bind_ok hchar
    obtain ⟨q,hadd,hq⟩ := exists_of_bind_ok hrest
    have hadded : PrimitivesIn json q.tokens := h.addIf (fun hprim => TokenType.noConfusion hprim) hadd
    cases hq
    exact hadded
  next =>
    cases hchar
    exact h
  next =>
    cases hchar
    exact h
  next => split at hchar <;> cases hchar <;> exact h
  next hk =>
    split at hchar
    · cases hchar
    · obtain ⟨n,hscan,hrest⟩ := exists_of_bind_ok hchar
      obtain ⟨q,hadd,hq⟩ := exists_of_bind_ok hrest
      have hadded : PrimitivesIn json q.tokens := by
        refine h.addIf (fun _ => ?_) hadd
        obtain ⟨chars,rest,htext,rfl,hends,hall⟩ := parsePrimitive_ok hscan
        refine ⟨chars,rest,rfl,hjson.trans htext,rfl,?_,hends⟩
        cases chars with
        | nil =>
          obtain ⟨d,ds,rfl,hd⟩ := hends
          cases htext
          exact absurd hd (by simp [(primitive_char c hk).2.1])
        | cons d ds =>
          cases htext
          rw [List.all_cons,Bool.and_eq_true] at hall
          rw [primitiveChars,hall.2,hk]
          rfl
      cases hq
      exact hadded
  next => cases hchar

theorem PrimitivesIn.parseLoop {numTokens : Option ℕ} {skip pos : ℕ} {cs : List UInt8}
    (h : PrimitivesIn json p.tokens) (hjson : json.drop pos = cs)
    (hloop : parseLoop numTokens skip pos cs p = .ok p') : PrimitivesIn json p'.tokens := by
  induction cs generalizing skip pos p with
  | nil =>
    cases skip <;> cases hloop <;> exact h
  | cons c cs ih =>
    have hnext : json.drop (pos + 1) = cs := by
      rw [← List.drop_drop,hjson]
      rfl
    cases skip with
    | succ skip => exact ih h hnext hloop
    | zero =>
      rw [Jsmn.parseLoop] at hloop
      split at hloop
      · cases hloop
        exact h
      · split at hloop
        next => cases hloop
        next q skip hchar => exact ih (h.parseChar hjson hchar) hnext hloop

/-- The primitives that the tokenizer produces. -/
theorem primitivesIn_parse {numTokens : Option ℕ} (h : parse json numTokens = .ok p) :
    PrimitivesIn json p.tokens := by
  obtain ⟨q,hloop,hfin⟩ := exists_of_bind_ok h
  rw [finish] at hfin
  split at hfin
  · cases hfin
  · cases hfin
    exact PrimitivesIn.parseLoop (p := { }) (fun t ht => absurd ht List.not_mem_nil) rfl hloop

end Lightsd.Core.Jsmn
