import Lightsd.Core.TokenReads

/-! # The parts of a batch

What the dispatcher makes of an element, and where it goes on, is read off the tokens and
does not depend on the handlers or on what was done before. The loop over a batch is the
service of the parts that it visits, one after the other. It moves forward in every round.
-/
namespace Lightsd.Core.Jsonrpc

open IndexLoop

/-- What an element of a batch is to the dispatcher. -/
inductive Part
  | notObject
  | invalid (request : Request)
  | unknown (request : Request)
  | call (m : Method) (request : Request)
  deriving DecidableEq

namespace Part

/-- The request of a part while it is served. -/
def request : Part → Option Request
  | notObject => none
  | invalid request | unknown request | call _ request => some request

/-- A call without an id. -/
def silent : Part → Bool
  | call _ request => request.id.isNone
  | notObject | invalid _ | unknown _ => false

end Part

section Reading
variable (toks : List Token) (json : List UInt8)

/-- What an object is, and the number of tokens it is taken to have. -/
def requestPart (base ntokens : ℕ) : Except Crash (Part × ℕ) := do
  let (ok,request) ← checkAndExtractRequest toks json base ntokens
  if !ok then
    let next ← consumeObjectOrArray toks base (base + ntokens)
    .ok (.invalid request,next - base)
  else
    match ← requestMethod toks json request with
    | none => .ok (.unknown request,request.requestNtokens)
    | some m => .ok (.call m request,request.requestNtokens)

/-- What there is at an index, and the index where the loop goes on. -/
def elementPart (ti : ℕ) : Except Crash (Part × ℕ) := do
  let tok ← readToken toks ti
  if tok.type = .object then
    let (part,n) ← requestPart toks json ti (toks.length - ti)
    .ok (part,ti + n)
  else if tok.type = .array then
    let next ← consumeObjectOrArray toks ti toks.length
    .ok (.notObject,next)
  else .ok (.notObject,ti + 1)

/-- The parts that the loop visits from an index on, with the indices they are found at. -/
inductive Visits : ℕ → List (ℕ × Part) → Prop
  | done {ti : ℕ} (h : toks.length ≤ ti) : Visits ti []
  | visit {ti next : ℕ} {part : Part} {rest : List (ℕ × Part)} (h : ti < toks.length)
      (hpart : elementPart toks json ti = .ok (part,next)) (hrest : Visits next rest) :
      Visits ti ((ti,part) :: rest)

variable {toks json}

theorem Visits.unique {ti : ℕ} {ps qs : List (ℕ × Part)} (hp : Visits toks json ti ps)
    (hq : Visits toks json ti qs) : ps = qs := by
  induction hp generalizing qs with
  | done h =>
    cases hq with
    | done => rfl
    | visit h' => omega
  | visit h hpart hrest ih =>
    cases hq with
    | done h' => omega
    | visit h' hpart' hrest' =>
      rw [hpart] at hpart'
      cases hpart'
      rw [ih hrest']

theorem requestPart_fails (toks : List Token) (json : List UInt8) (base ntokens : ℕ) :
    FailsAtToken (requestPart toks json base ntokens) := by
  refine (checkAndExtractRequest_fails toks json base ntokens).bind (fun r hr => ?_)
  obtain ⟨ok,request⟩ := r
  cases ok with
  | false => exact (consumeObjectOrArray_fails toks base _).bind (fun _ _ => fails_ok _)
  | true =>
    refine (requestMethod_fails (accepted_request hr).1).bind (fun m _ => ?_)
    cases m <;> exact fails_ok _

theorem elementPart_fails (toks : List Token) (json : List UInt8) (ti : ℕ) :
    FailsAtToken (elementPart toks json ti) := by
  refine (readToken_fails toks ti).bind (fun tok _ => .ite (fun _ => ?_) (fun _ => .ite (fun _ => ?_) (fun _ => ?_)))
  · exact (requestPart_fails toks json ti _).bind (fun _ _ => fails_ok _)
  · exact (consumeObjectOrArray_fails toks ti _).bind (fun _ _ => fails_ok _)
  · exact fails_ok _

/-- A part has a token at least. -/
theorem pos_of_requestPart {base ntokens n : ℕ} {part : Part}
    (h : requestPart toks json base ntokens = .ok (part,n)) : 0 < n := by
  unfold requestPart at h
  cases hcheck : checkAndExtractRequest toks json base ntokens with
  | error e => simp [hcheck,bind,Except.bind] at h
  | ok r =>
    obtain ⟨ok,request⟩ := r
    simp only [hcheck,bind,Except.bind] at h
    cases ok with
    | false =>
      simp only [Bool.not_false,if_true] at h
      cases hnext : consumeObjectOrArray toks base (base + ntokens) with
      | error e => simp [hnext] at h
      | ok next =>
        simp only [hnext] at h
        cases h
        have hlt := lt_of_consumeFuel hnext
        omega
    | true =>
      have hfive := (accepted_request hcheck).2
      simp only [Bool.not_true,Bool.false_eq_true,if_false] at h
      cases hmethod : requestMethod toks json request with
      | error e => simp [hmethod] at h
      | ok m =>
        simp only [hmethod] at h
        cases m <;> cases h <;> omega

theorem lt_of_elementPart {ti next : ℕ} {part : Part} (h : elementPart toks json ti = .ok (part,next)) :
    ti < next := by
  unfold elementPart at h
  cases hread : readToken toks ti with
  | error e => simp [hread,bind,Except.bind] at h
  | ok tok =>
    simp only [hread,bind,Except.bind] at h
    split at h
    · cases hpart : requestPart toks json ti (toks.length - ti) with
      | error e => simp [hpart] at h
      | ok r =>
        simp only [hpart] at h
        cases h
        have hpos := pos_of_requestPart hpart
        omega
    · split at h
      · cases hnext : consumeObjectOrArray toks ti toks.length with
        | error e => simp [hnext] at h
        | ok j =>
          simp only [hnext] at h
          cases h
          exact lt_of_consumeFuel hnext
      · cases h
        omega

end Reading

theorem batchPrepareNextPart_request (c : Caller) (batchSent : Option ℕ) :
    (c.batchPrepareNextPart batchSent).currentRequest = c.currentRequest := by
  unfold Caller.batchPrepareNextPart
  split <;> rfl

theorem batchPrepareNextPart_addr (c : Caller) (batchSent : Option ℕ) :
    (c.batchPrepareNextPart batchSent).addr = c.addr := by
  unfold Caller.batchPrepareNextPart
  split <;> rfl

section Serving
variable {W : Type} (handlers : Method → Handler W) (toks : List Token) (json : List UInt8)

/-- What is done for a part, by the number of answers that one for it would make. -/
def servePart (part : Part) (batchSent : Option ℕ) (s : Session W) : Except Crash (Session W × Option ℕ) :=
  let s := match part with
    | .notObject => s
    | .invalid request | .unknown request | .call _ request => s.setRequest (some request)
  match part with
  | .notObject => .ok (s.refuse toks json batchSent .invalidRequest "Invalid request",batchSent)
  | .invalid _ => .ok ((s.refuse toks json batchSent .invalidRequest "Invalid request").setRequest none,batchSent)
  | .unknown _ => .ok ((s.refuse toks json batchSent .methodNotFound "Method not found").setRequest none,batchSent)
  | .call m request => do
    let (s,batchSent) ← callMethod handlers m request batchSent s
    .ok (s.setRequest none,batchSent)

theorem dispatchOne_eq (base ntokens : ℕ) (batchSent : Option ℕ) (s : Session W) :
    dispatchOne handlers toks json base ntokens batchSent s = (do
      let (part,n) ← requestPart toks json base ntokens
      let (s,batchSent) ← servePart handlers toks json part (batchSent.map (· + 1)) s
      .ok (s,batchSent,n)) := by
  unfold dispatchOne requestPart
  cases checkAndExtractRequest toks json base ntokens with
  | error e => rfl
  | ok r =>
    obtain ⟨ok,request⟩ := r
    cases ok with
    | false =>
      simp only [bind,Except.bind,Bool.not_false,if_true]
      cases consumeObjectOrArray toks base (base + ntokens) <;> rfl
    | true =>
      simp only [bind,Except.bind,Bool.not_true,Bool.false_eq_true,if_false]
      cases requestMethod toks json request with
      | error e => rfl
      | ok m =>
        cases m with
        | none => rfl
        | some m =>
          simp only [servePart,bind,Except.bind]
          cases callMethod handlers m request (batchSent.map (· + 1)) (s.setRequest (some request)) <;> rfl

theorem batchBody_eq (ti : ℕ) (st : Session W × ℕ) :
    batchBody handlers toks json ti st = (do
      let (part,next) ← elementPart toks json ti
      let (s,batchSent) ← servePart handlers toks json part (some (st.2 + 1)) st.1
      .ok (.next next (s,batchSent.getD 0))) := by
  unfold batchBody elementPart
  cases readToken toks ti with
  | error e => rfl
  | ok tok =>
    simp only [bind,Except.bind]
    split
    · rw [dispatchOne_eq]
      simp only [bind,Except.bind]
      cases requestPart toks json ti (toks.length - ti) with
      | error e => rfl
      | ok r =>
        simp only [Option.map_some]
        cases servePart handlers toks json r.1 (some (st.2 + 1)) st.1 <;> rfl
    · split
      · cases consumeObjectOrArray toks ti toks.length <;> rfl
      · rfl

/-- The parts one after the other. -/
def serveParts : List Part → Session W × ℕ → Except Crash (Session W × ℕ)
  | [], st => .ok st
  | part :: parts, st => do
    let (s,batchSent) ← servePart handlers toks json part (some (st.2 + 1)) st.1
    serveParts parts (s,batchSent.getD 0)

theorem batchBody_advances : Advances (batchBody handlers toks json) toks.length := by
  intro ti st next st' hti h
  rw [batchBody_eq] at h
  cases hpart : elementPart toks json ti with
  | error e => simp [hpart,bind,Except.bind] at h
  | ok r =>
    obtain ⟨part,next'⟩ := r
    simp only [hpart,bind,Except.bind] at h
    cases hserve : servePart handlers toks json part (some (st.2 + 1)) st.1 with
    | error e => simp [hserve] at h
    | ok r =>
      simp only [hserve] at h
      cases h
      exact lt_of_elementPart hpart

/-- The loop over a batch, from an index on. -/
def batchFrom (ti : ℕ) (st : Session W × ℕ) : Except Crash (Session W × ℕ) :=
  loop (batchBody handlers toks json) (fun st => st) .endless toks.length ti st

theorem batchLoop_eq (s : Session W) : batchLoop handlers toks json s = batchFrom handlers toks json 1 (s,0) := rfl

variable {handlers toks json}

theorem batchFrom_end {ti : ℕ} (h : toks.length ≤ ti) (st : Session W × ℕ) :
    batchFrom handlers toks json ti st = .ok st := by
  rw [batchFrom,loop_eq (batchBody_advances handlers toks json),if_neg (by omega)]

/-- One round of the loop. -/
theorem batchFrom_visit {ti next : ℕ} {part : Part} (h : ti < toks.length)
    (hpart : elementPart toks json ti = .ok (part,next)) (st : Session W × ℕ) :
    batchFrom handlers toks json ti st = (do
      let (s,batchSent) ← servePart handlers toks json part (some (st.2 + 1)) st.1
      batchFrom handlers toks json next (s,batchSent.getD 0)) := by
  rw [batchFrom,loop_eq (batchBody_advances handlers toks json),if_pos h,batchBody_eq,hpart]
  simp only [bind,Except.bind]
  cases servePart handlers toks json part (some (st.2 + 1)) st.1 <;> rfl

theorem batchFrom_error {ti : ℕ} {c : Crash} (h : ti < toks.length) (hpart : elementPart toks json ti = .error c)
    (st : Session W × ℕ) : batchFrom handlers toks json ti st = .error c := by
  rw [batchFrom,loop_eq (batchBody_advances handlers toks json),if_pos h,batchBody_eq,hpart]
  rfl

theorem batchFrom_eq {ti : ℕ} {ps : List (ℕ × Part)} (h : Visits toks json ti ps) (st : Session W × ℕ) :
    batchFrom handlers toks json ti st = serveParts handlers toks json (ps.map Prod.snd) st := by
  induction h generalizing st with
  | done h => exact batchFrom_end h st
  | visit h hpart hrest ih =>
    rw [batchFrom_visit h hpart]
    simp only [List.map_cons,serveParts,ih]

/-- A part fails with its handler only. -/
theorem servePart_error {part : Part} {batchSent : Option ℕ} {s : Session W} {c : Crash}
    (h : servePart handlers toks json part batchSent s = .error c) : ∃ m s', handlers m s' = .error c := by
  cases part with
  | notObject | invalid _ | unknown _ => cases h
  | call m request =>
    simp only [servePart,callMethod] at h
    split at h
    · cases hm : handlers m ((s.setRequest (some request)).setIo none) with
      | error e =>
        simp only [hm,bind,Except.bind,Except.error.injEq] at h
        exact ⟨m,_,by rw [hm,h]⟩
      | ok s' => simp [hm,bind,Except.bind] at h
    · cases hm : handlers m ((s.setRequest (some request)).mapCaller (·.batchPrepareNextPart batchSent)) with
      | error e =>
        simp only [hm,bind,Except.bind,Except.error.injEq] at h
        exact ⟨m,_,by rw [hm,h]⟩
      | ok s' => simp [hm,bind,Except.bind] at h

/-- The loop visits all of its parts, unless it fails at a token or with a handler. It does
not go on for ever. -/
theorem batchFrom_visits (handlers : Method → Handler W) (toks : List Token) (json : List UInt8) (ti : ℕ)
    (st : Session W × ℕ) : (∃ ps, Visits toks json ti ps) ∨ ∃ c, batchFrom handlers toks json ti st = .error c ∧
      (c.atToken = true ∨ ∃ m s, handlers m s = .error c) := by
  generalize hn : toks.length - ti = n
  induction n using Nat.strong_induction_on generalizing ti st with
  | h n ih =>
    by_cases hti : ti < toks.length
    · cases hpart : elementPart toks json ti with
      | error c => exact .inr ⟨c,batchFrom_error hti hpart st,.inl (elementPart_fails toks json ti c hpart)⟩
      | ok r =>
        obtain ⟨part,next⟩ := r
        have hlt := lt_of_elementPart hpart
        have hround : batchFrom handlers toks json ti st = _ := batchFrom_visit hti hpart st
        cases hserve : servePart handlers toks json part (some (st.2 + 1)) st.1 with
        | error c =>
          refine .inr ⟨c,?_,.inr (servePart_error hserve)⟩
          rw [hround,hserve]
          rfl
        | ok r =>
          rw [hserve] at hround
          rcases ih (toks.length - next) (by omega) next (r.1,r.2.getD 0) rfl with ⟨ps,hps⟩ | ⟨c,hc,hcause⟩
          · exact .inl ⟨_,.visit hti hpart hps⟩
          · exact .inr ⟨c,hround.trans hc,hcause⟩
    · exact .inl ⟨[],.done (by omega)⟩

end Serving
end Lightsd.Core.Jsonrpc
