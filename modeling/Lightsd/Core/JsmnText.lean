import Lightsd.Core.JsmnScan
import Lightsd.Core.JsonText

/-! # The tokenizer on well-formed texts

Reading the text of a value adds the tree of its tokens below the superior token and
changes nothing else. So a sequence of values is tokenized to the preorder of the trees
of its values.
-/
namespace Lightsd.Core.Jsmn

open OrderedTree

/-- Add to the size of the superior token. -/
def bump (s : Option ℕ) (n : ℕ) (tokens : List Token) : List Token :=
  match s with
  | none => tokens
  | some i => tokens.modify i (fun t => { t with size := t.size + n })

@[simp] theorem bump_length (s : Option ℕ) (n : ℕ) (tokens : List Token) :
    (bump s n tokens).length = tokens.length := by
  cases s with
  | none => rfl
  | some i => exact List.length_modify _ _ _

theorem bump_append {s : Option ℕ} (n : ℕ) {as : List Token} (bs : List Token)
    (h : ∀ i, s = some i → i < as.length) : bump s n (as ++ bs) = bump s n as ++ bs := by
  cases s with
  | none => rfl
  | some i =>
    have hi := h i rfl
    refine List.ext_getElem? (fun j => ?_)
    simp only [bump,List.getElem?_modify]
    by_cases hj : j < as.length
    · rw [List.getElem?_append_left hj,List.getElem?_append_left (by rwa [List.length_modify]),
        List.getElem?_modify]
    · have hle := not_lt.mp hj
      have hne : i ≠ j := by omega
      rw [List.getElem?_append_right hle,List.getElem?_append_right (by rwa [List.length_modify]),
        List.length_modify]
      simp [hne]

theorem bump_bump (s : Option ℕ) (m n : ℕ) (tokens : List Token) :
    bump s n (bump s m tokens) = bump s (m + n) tokens := by
  cases s with
  | none => rfl
  | some i =>
    simp only [bump,List.modify_modify_eq]
    congr 1
    funext t
    simp only [Function.comp_apply,Nat.add_assoc]

theorem bump_zero (s : Option ℕ) (tokens : List Token) : bump s 0 tokens = tokens := by
  cases s with
  | none => rfl
  | some i => exact List.modify_id i tokens

/-- The superior token exists, and every token has a parent link. -/
structure Linked (p : Parser) : Prop where
  parents : p.parents.length = p.tokens.length
  toksuper : ∀ i, p.toksuper = some i → i < p.tokens.length

/-- The trees have been added below the superior token. The parents of their tokens are
the superior token and earlier tokens of the trees. -/
structure Grown (p : Parser) (ts : List (Rose Label)) (p' : Parser) : Prop where
  tokens : p'.tokens = bump p.toksuper ts.length p.tokens ++ tokensOf ts
  parents : ∃ qs, p'.parents = p.parents ++ qs ∧ qs.length = counts ts ∧
    ∀ j q, qs[j]? = some q → q = p.toksuper ∨
      ∃ k, q = some k ∧ p.tokens.length ≤ k ∧ k < p.tokens.length + j
  count : p'.count = p.count + counts ts

theorem tokensOf_length (ts : List (Rose Label)) : (tokensOf ts).length = counts ts := by
  rw [tokensOf,List.length_map,counts]

theorem tokensOf_append (ts us : List (Rose Label)) :
    tokensOf (ts ++ us) = tokensOf ts ++ tokensOf us := by
  rw [tokensOf,preorders_append,List.map_append,tokensOf,tokensOf]

theorem tokensOf_node (a : Label) (cs ts : List (Rose Label)) :
    tokensOf (.node a cs :: ts) = Label.token (a,cs.length) :: tokensOf (cs ++ ts) := by
  rw [tokensOf,preorders_node,List.map_cons,tokensOf]

namespace Grown

variable {p p' p'' : Parser} {ts us : List (Rose Label)}

theorem refl (p : Parser) : Grown p [] p where
  tokens := by rw [List.length_nil,bump_zero,tokensOf,preorders_nil,List.map_nil,List.append_nil]
  parents := ⟨[],(List.append_nil _).symm,by rw [counts_nil,List.length_nil],nofun⟩
  count := by rw [counts_nil,Nat.add_zero]

theorem withSuper (h : Grown p ts p') (s : Option ℕ) : Grown p ts { p' with toksuper := s } :=
  ⟨h.tokens,h.parents,h.count⟩

theorem length (h : Grown p ts p') : p'.tokens.length = p.tokens.length + counts ts := by
  rw [h.tokens,List.length_append,bump_length,tokensOf_length]

theorem linked (h : Grown p ts p') (hp : Linked p) (hs : p'.toksuper = p.toksuper) : Linked p' where
  parents := by
    obtain ⟨qs,hq,hlen,-⟩ := h.parents
    rw [hq,List.length_append,hlen,h.length,hp.parents]
  toksuper := by
    intro i hi
    rw [h.length]
    exact Nat.lt_add_right _ (hp.toksuper i (hs ▸ hi))

theorem trans (h : Grown p ts p') (hp : Linked p) (hs : p'.toksuper = p.toksuper)
    (h' : Grown p' us p'') : Grown p (ts ++ us) p'' where
  tokens := by
    have hlt : ∀ i, p.toksuper = some i → i < (bump p.toksuper ts.length p.tokens).length := by
      intro i hi
      rw [bump_length]
      exact hp.toksuper i hi
    rw [h'.tokens,hs,h.tokens,bump_append _ _ hlt,bump_bump,tokensOf_append,List.append_assoc,
      List.length_append]
  parents := by
    obtain ⟨qs,hq,hlen,hqs⟩ := h.parents
    obtain ⟨rs,hr,hlen',hrs⟩ := h'.parents
    refine ⟨qs ++ rs,?_,?_,?_⟩
    · rw [hr,hq,List.append_assoc]
    · rw [List.length_append,hlen,hlen',counts_append]
    · intro j q hj
      by_cases hjq : j < qs.length
      · rw [List.getElem?_append_left hjq] at hj
        exact hqs j q hj
      · have hle := not_lt.mp hjq
        rw [List.getElem?_append_right hle] at hj
        rcases hrs _ q hj with hsup | ⟨k,hk,hlo,hhi⟩
        · exact Or.inl (hsup.trans hs)
        · refine Or.inr ⟨k,hk,?_,?_⟩
          · rw [h.length] at hlo
            omega
          · rw [h.length] at hhi
            omega
  count := by rw [h'.count,h.count,counts_append,Nat.add_assoc]

end Grown

open Scan Json

variable {cap pos : ℕ} {p p' : Parser} {rest : List UInt8}

theorem space_char : ∀ c : UInt8, isSpace c = true →
    c ≠ 0 ∧ charKind c = .space ∧ endsPrimitive c = true := by
  decide +kernel

theorem run_space {bytes : List UInt8} (h : Space bytes) (numTokens : Option ℕ) (pos : ℕ) (p : Parser) :
    run numTokens (.reading .normal pos p) bytes = .reading .normal (pos + bytes.length) p := by
  induction bytes generalizing pos with
  | nil => rfl
  | cons c cs ih =>
    obtain ⟨h0,hk,-⟩ := space_char c (h c List.mem_cons_self)
    have hstep : step numTokens (.reading .normal pos p) c = .reading .normal (pos + 1) p := by
      simp only [step,if_neg h0,enter,hk,parseChar]
      rfl
    rw [run_cons,hstep,ih (fun x hx => h x (List.mem_cons_of_mem _ hx)),List.length_cons]
    congr 1
    omega

theorem parseString_chars {mode : StringMode} {chars : List UInt8} (h : stringChars mode chars = true)
    (rest : List UInt8) : parseString mode (chars ++ 34 :: rest) = .ok chars.length := by
  induction chars generalizing mode with
  | nil =>
    have hmode : mode = .plain := by simpa [stringChars] using h
    rw [hmode]
    rfl
  | cons c cs ih =>
    rw [List.cons_append]
    cases mode with
    | plain =>
      simp only [stringChars,Bool.and_eq_true,decide_eq_true_eq] at h
      obtain ⟨⟨h0,h34⟩,hcs⟩ := h
      rw [parseString,if_neg h0,if_neg h34,ih hcs]
      rfl
    | escape =>
      rw [stringChars] at h
      simp only [parseString]
      split at h
      · rename_i he
        rw [if_pos he,ih h]
        rfl
      · rename_i he
        simp only [Bool.and_eq_true,decide_eq_true_eq] at h
        rw [if_neg he,if_pos h.1,ih h.2]
        rfl
    | hex digits =>
      simp only [stringChars,Bool.and_eq_true,decide_eq_true_eq] at h
      obtain ⟨⟨h0,hh⟩,hcs⟩ := h
      rw [parseString,if_neg h0,if_pos hh,ih hcs]
      rfl

theorem quote_char : charKind 34 = .quote := by decide

theorem run_quoted {chars : List UInt8} (h : stringChars .plain chars = true) (numTokens : Option ℕ)
    (pos : ℕ) (p : Parser) (rest : List UInt8) :
    run numTokens (.reading .normal pos p) (quoted chars ++ rest) =
      run numTokens (ofParser .normal (pos + (quoted chars).length)
        (complete numTokens p ⟨.string,pos + 1,(pos + 1 + chars.length : ℕ),0⟩)) rest := by
  have hstep : step numTokens (.reading .normal pos p) 34 = .reading (.string pos .plain) (pos + 1) p := by
    simp only [step,enter,quote_char]
    rfl
  have htext : quoted chars ++ rest = 34 :: (chars ++ 34 :: rest) := by
    simp [quoted]
  have hlen : pos + (quoted chars).length = pos + 1 + chars.length + 1 := by
    simp [quoted]
    omega
  rw [htext,run_cons,hstep,run_string_ok _ _ _ (parseString_chars h rest),hlen]
  congr 1
  simp [List.drop_append]

/-- What follows ends a primitive. -/
def Ends (rest : List UInt8) : Prop := ∃ c cs, rest = c :: cs ∧ endsPrimitive c = true

theorem ends_append {bytes : List UInt8} (h : Space bytes) (hr : Ends rest) : Ends (bytes ++ rest) := by
  cases bytes with
  | nil => exact hr
  | cons c cs =>
    obtain ⟨-,-,hend⟩ := space_char c (h c List.mem_cons_self)
    exact ⟨c,cs ++ rest,rfl,hend⟩

theorem parsePrimitive_chars {cs : List UInt8}
    (h : cs.all (fun c => c ≠ 0 && !endsPrimitive c && !(c < 32 || 127 ≤ c)) = true) (hr : Ends rest) :
    parsePrimitive (cs ++ rest) = .ok cs.length := by
  induction cs with
  | nil =>
    obtain ⟨c,cs,rfl,hend⟩ := hr
    have h0 : c ≠ 0 := by
      rintro rfl
      exact absurd hend (by decide)
    rw [List.nil_append,parsePrimitive,if_neg h0,if_pos hend]
    rfl
  | cons c cs ih =>
    rw [List.all_cons,Bool.and_eq_true] at h
    obtain ⟨hc,hcs⟩ := h
    simp only [Bool.and_eq_true,decide_eq_true_eq,Bool.not_eq_true'] at hc
    obtain ⟨⟨h0,hend⟩,hrange⟩ := hc
    rw [List.cons_append,parsePrimitive,if_neg h0,hend,hrange,ih hcs]
    rfl

theorem run_primitive {chars : List UInt8} (h : primitiveChars chars = true) (numTokens : Option ℕ)
    (pos : ℕ) {p : Parser} (hrej : p.rejectsPrimitive = false) (hr : Ends rest) :
    run numTokens (.reading .normal pos p) (chars ++ rest) =
      run numTokens (ofParser .normal (pos + chars.length)
        (complete numTokens p ⟨.primitive,pos,(pos + chars.length : ℕ),0⟩)) rest := by
  cases chars with
  | nil => cases h
  | cons c cs =>
    rw [primitiveChars,Bool.and_eq_true,decide_eq_true_eq] at h
    obtain ⟨hk,hcs⟩ := h
    obtain ⟨h0,-,-⟩ := primitive_char c hk
    have hstep : step numTokens (.reading .normal pos p) c = .reading (.primitive pos) (pos + 1) p := by
      simp only [step,if_neg h0,enter,hk,hrej]
      rfl
    have hlen : pos + (c :: cs).length = pos + 1 + cs.length := by
      rw [List.length_cons]
      omega
    rw [List.cons_append,run_cons,hstep,run_primitive_ok _ _ _ (parsePrimitive_chars hcs hr),hlen,
      List.drop_left]

end Lightsd.Core.Jsmn
