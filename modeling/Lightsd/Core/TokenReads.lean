import Lightsd.Core.JsonDispatch
import Lightsd.Core.SchemaWalk

/-! # Where the walks can fail

Whatever the tokens are, a walk over them comes to an end, and if it fails it does so at a
token: one behind the last that was parsed, or one that is passed as a container without
being one. A request that has been accepted has a method.
-/
namespace Lightsd.Core.Jsonrpc

open IndexLoop

/-- A failure at a token that is not there, or is no container. -/
def Crash.atToken : Crash → Bool
  | .tokenIndex _ | .notContainer _ | .pastEnd _ => true
  | .nullToken | .nullAddr | .assertion | .endless => false

section Failing
variable {α β : Type} {p q : Crash → Bool}

/-- A computation that fails in certain ways only, if it fails. -/
def Fails (p : Crash → Bool) (x : Except Crash α) : Prop := ∀ c, x = .error c → p c = true

theorem fails_ok (a : α) : Fails p (.ok a : Except Crash α) := nofun

theorem fails_error {c : Crash} (h : p c = true) : Fails p (.error c : Except Crash α) := by
  rintro c' ⟨⟩
  exact h

namespace Fails

theorem bind {x : Except Crash α} {f : α → Except Crash β} (hx : Fails p x)
    (hf : ∀ a, x = .ok a → Fails p (f a)) : Fails p (x >>= f) := by
  intro c hc
  cases hxa : x with
  | error e =>
    rw [hxa] at hc
    cases hc
    exact hx c hxa
  | ok a =>
    rw [hxa] at hc
    exact hf a hxa c hc

theorem ite {b : Prop} [Decidable b] {x y : Except Crash α} (hx : b → Fails p x)
    (hy : ¬ b → Fails p y) : Fails p (if b then x else y) := by
  split
  · exact hx ‹_›
  · exact hy ‹_›

theorem mono {x : Except Crash α} (h : Fails p x) (hpq : ∀ c, p c = true → q c = true) : Fails q x :=
  fun c hc => hpq c (h c hc)

end Fails

/-- A computation that fails at a token, if it fails. -/
abbrev FailsAtToken (x : Except Crash α) : Prop := Fails Crash.atToken x

end Failing

section Walks
variable {toks : List Token} {parsed : ℕ}

theorem readToken_fails (toks : List Token) (i : ℕ) : FailsAtToken (readToken toks i) := by
  intro c hc
  unfold readToken at hc
  split at hc
  · cases hc
  · cases hc
    rfl

theorem passValue_fails {consume : ℕ → Except Crash ℕ} {i : ℕ} (hc : FailsAtToken (consume i)) :
    FailsAtToken (passValue consume toks i) :=
  (readToken_fails toks i).bind (fun _ _ => .ite (fun _ => hc) (fun _ => fails_ok _))

theorem consumeEntries_fails {consume : ℕ → Except Crash ℕ} {base : ℕ}
    (hadv : ∀ i j, consume i = .ok j → i < j) (hc : ∀ i, base ≤ i → FailsAtToken (consume i))
    (type : TokenType) {n i : ℕ} (hi : base ≤ i) : FailsAtToken (consumeEntries consume toks type parsed n i) := by
  induction n generalizing i with
  | zero => exact fails_ok i
  | succ n ih =>
    unfold consumeEntries
    refine .ite (fun _ => ?_) (fun _ => fails_ok i)
    have hstart : base ≤ if type = .object then i + 1 else i := by
      split <;> omega
    refine (passValue_fails (hc _ hstart)).bind (fun j hj => ih ?_)
    have hlt := lt_of_passValue hadv hj
    omega

/-- The fuel is enough: each call is for a token further on, and none is made behind the
last token. -/
theorem consumeFuel_fails {fuel i : ℕ} (hf : parsed - i < fuel) : FailsAtToken (consumeFuel toks parsed fuel i) := by
  induction fuel generalizing i with
  | zero => omega
  | succ fuel ih =>
    unfold consumeFuel
    refine (readToken_fails toks i).bind (fun tok _ => ?_)
    split
    · exact fails_error rfl
    · split
      · exact fails_error rfl
      · refine consumeEntries_fails (fun _ _ h => lt_of_consumeFuel h) (fun j hj => ih ?_) tok.type le_rfl
        omega

theorem consumeObjectOrArray_fails (toks : List Token) (i parsed : ℕ) :
    FailsAtToken (consumeObjectOrArray toks i parsed) := consumeFuel_fails (Nat.lt_succ_self _)

theorem skipValue_fails (toks : List Token) (i parsed : ℕ) : FailsAtToken (skipValue toks i parsed) :=
  passValue_fails (consumeObjectOrArray_fails toks i parsed)

end Walks

section Extraction
variable {φ : Type} [DecidableEq φ] (schema : List (Node φ)) (toks : List Token) (json : List UInt8)

theorem dictBody_fails (limit i : ℕ) (out : Output φ) : FailsAtToken (dictBody schema toks json limit i out) := by
  unfold dictBody
  refine (readToken_fails toks i).bind (fun key _ => .ite (fun _ => fails_ok _) (fun _ => ?_))
  split
  · exact (skipValue_fails toks _ limit).bind (fun _ _ => fails_ok _)
  · refine (readToken_fails toks _).bind (fun value _ => .ite (fun _ => fails_ok _) (fun _ => ?_))
    refine .ite (fun _ => fails_ok _) (fun _ => ?_)
    exact (skipValue_fails toks _ limit).bind (fun _ _ => fails_ok _)

theorem dictWalk_fails (limit i : ℕ) (out : Output φ) : FailsAtToken (dictWalk schema json toks limit i out) :=
  loop_rule (dictBody_advances schema json toks limit) (fun _ _ _ _ => fails_ok _)
    (fun i out _ _ _ hbody c hc => dictBody_fails schema toks json limit i out c (by rw [hbody]; cases hc; rfl))
    (fun _ _ _ _ _ _ => fails_ok _) (fun _ _ _ _ _ _ _ => trivial) trivial

theorem extractFromDict_fails (out : Output φ) (base ntokens : ℕ) :
    FailsAtToken (extractFromDict schema toks json out base ntokens) := by
  unfold extractFromDict
  refine .ite (fun _ => fails_ok _) (fun _ => ?_)
  refine (readToken_fails toks base).bind (fun tok _ => .ite (fun _ => fails_ok _) (fun _ => ?_))
  exact (dictWalk_fails schema toks json _ _ out).bind (fun _ _ => fails_ok _)

theorem arrayLoop_fails (limit ti objsize : ℕ) (out : Output φ) :
    FailsAtToken (arrayLoop toks json limit schema ti objsize out) := by
  induction schema generalizing ti objsize out with
  | nil => exact fails_ok _
  | cons node nodes ih =>
    unfold arrayLoop
    refine .ite (fun _ => ?_) (fun _ => fails_ok _)
    cases objsize with
    | zero => exact fails_ok _
    | succ objsize =>
      refine (readToken_fails toks ti).bind (fun value _ => .ite (fun _ => fails_ok _) (fun _ => ?_))
      exact (skipValue_fails toks ti limit).bind (fun next _ => ih _ _ _)

theorem extractFromArray_fails (out : Output φ) (base ntokens : ℕ) :
    FailsAtToken (extractFromArray schema toks json out base ntokens) := by
  unfold extractFromArray
  refine .ite (fun _ => fails_ok _) (fun _ => ?_)
  refine (readToken_fails toks base).bind (fun tok _ => .ite (fun _ => fails_ok _) (fun _ => ?_))
  exact arrayLoop_fails schema toks json _ _ _ _

end Extraction

section Requests
variable (toks : List Token) (json : List UInt8)

theorem checkAndExtractRequest_fails (base ntokens : ℕ) :
    FailsAtToken (checkAndExtractRequest toks json base ntokens) :=
  (extractFromDict_fails requestSchema toks json {} base ntokens).bind
    (fun _ _ => .ite (fun _ => fails_ok _) (fun _ => fails_ok _))

variable {toks json}

theorem method_of_complete {out : Output RequestField} (h : complete requestSchema out = true) :
    (out.value .method).isSome = true := by
  simpa [complete,requestSchema,Output.seen] using h

theorem complete_of_extract {φ : Type} [DecidableEq φ] {schema : List (Node φ)} {out out' : Output φ}
    {base ntokens : ℕ} (h : extractFromDict schema toks json out base ntokens = .ok (true,out')) :
    complete schema out' = true := by
  unfold extractFromDict at h
  split at h
  · cases h
  · cases hread : readToken toks base with
    | error e => simp [hread,bind,Except.bind] at h
    | ok tok =>
      simp only [hread,bind,Except.bind] at h
      split at h
      · cases h
      · split at h
        · cases h
        · simp only [Except.ok.injEq,Prod.mk.injEq,Bool.and_eq_true] at h
          obtain ⟨⟨-,hcomplete⟩,rfl⟩ := h
          exact hcomplete

/-- What an accepted request is made of: its method is there, and it is taken to have five
tokens at least. -/
theorem accepted_request {base ntokens : ℕ} {request : Request}
    (h : checkAndExtractRequest toks json base ntokens = .ok (true,request)) :
    request.method.isSome = true ∧ 5 ≤ request.requestNtokens := by
  unfold checkAndExtractRequest at h
  cases hextract : extractFromDict requestSchema toks json {} base ntokens with
  | error e => simp [hextract,bind,Except.bind] at h
  | ok r =>
    obtain ⟨ok,out⟩ := r
    cases ok with
    | false => simp [hextract,bind,Except.bind] at h
    | true =>
      simp only [hextract,bind,Except.bind,Bool.not_true,Bool.false_eq_true,if_false,Except.ok.injEq,
        Prod.mk.injEq,true_and] at h
      subst h
      refine ⟨method_of_complete (complete_of_extract hextract),?_⟩
      simp only [Request.ntokens]
      omega

theorem requestMethod_fails {request : Request} (h : request.method.isSome = true) :
    FailsAtToken (requestMethod toks json request) := by
  obtain ⟨i,hi⟩ := Option.isSome_iff_exists.mp h
  simp only [requestMethod,hi]
  exact (readToken_fails toks i).bind (fun _ _ => fails_ok _)

end Requests
end Lightsd.Core.Jsonrpc
