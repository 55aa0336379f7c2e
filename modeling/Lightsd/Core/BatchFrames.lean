import Lightsd.Core.BatchParts

/-! # The text of a batch

If every handler writes one answer to a connection, then the answers to a batch make up an
array, in the order in which the loop visits the parts, and there is no text at all if
there is no answer. The brackets and commas come from a counter of the answers, which is
incremented before a part is served and decremented for a notification.
-/
namespace Lightsd.Core.Jsonrpc

section Answers
variable (toks : List Token) (json : List UInt8)

/-- An answer to a request, with a result or an error. -/
inductive IsResponse (request : Option Request) : List UInt8 → Prop
  | result (text : List UInt8) : IsResponse request (responseText toks json request text)
  | error (code : ErrorCode) (message : String) : IsResponse request (errorText toks json request code message)

/-- A handler that writes one answer if there is a connection, and leaves it at that. -/
structure Handler.Answers {W : Type} (h : Handler W) : Prop where
  writable : ∀ s s' out, s.caller.io = some out → h s = .ok s' →
    ∃ r, IsResponse toks json s.caller.currentRequest r ∧ s'.caller.io = some (out ++ r)
  unwritable : ∀ s s', s.caller.io = none → h s = .ok s' → s'.caller.io = none

/-- What is written for a part. -/
inductive PartAnswer : Part → List UInt8 → Prop
  | notObject : PartAnswer .notObject (errorText toks json none .invalidRequest "Invalid request")
  | invalid (request : Request) :
      PartAnswer (.invalid request) (errorText toks json (some request) .invalidRequest "Invalid request")
  | unknown (request : Request) :
      PartAnswer (.unknown request) (errorText toks json (some request) .methodNotFound "Method not found")
  | call (m : Method) (request : Request) {r : List UInt8} (hr : IsResponse toks json (some request) r) :
      PartAnswer (.call m request) r

end Answers

/-- The bracket or the comma before an answer, by the number of answers before it. -/
def lead (n : ℕ) : List UInt8 := if n = 0 then ascii "[" else ascii ","

/-- Answers in the form they are written in, after a number of others. -/
def pieces : ℕ → List (List UInt8) → List UInt8
  | _, [] => []
  | n, r :: rs => lead n ++ r ++ pieces (n + 1) rs

/-- Nothing, or an array of answers. -/
def frame : List (List UInt8) → List UInt8
  | [] => []
  | r :: rs => ascii "[" ++ r ++ rs.flatMap (ascii "," ++ ·) ++ ascii "]"

theorem pieces_succ (n : ℕ) (rs : List (List UInt8)) : pieces (n + 1) rs = rs.flatMap (ascii "," ++ ·) := by
  induction rs generalizing n with
  | nil => rfl
  | cons r rs ih => simp [pieces,lead,ih]

theorem frame_eq (rs : List (List UInt8)) : frame rs = pieces 0 rs ++ (if rs.length = 0 then [] else ascii "]") := by
  cases rs with
  | nil => rfl
  | cons r rs => simp [frame,pieces,lead,pieces_succ]

section Serving
variable {W : Type} {handlers : Method → Handler W} {toks : List Token} {json : List UInt8}

variable (toks json) in
/-- The state after a part that has been served for a connection. -/
structure Served (part : Part) (n : ℕ) (out : List UInt8) (s' : Session W) (batchSent : Option ℕ) : Prop where
  request : s'.caller.currentRequest = none
  silent : part.silent = true → s'.caller.io = some out ∧ batchSent = some n
  answer : part.silent = false →
    ∃ r, PartAnswer toks json part r ∧ s'.caller.io = some (out ++ (lead n ++ r)) ∧ batchSent = some (n + 1)

theorem batchPrepareNextPart_io (c : Caller) (n : ℕ) :
    (c.batchPrepareNextPart (some (n + 1))).io = c.io.map (· ++ lead n) := by
  cases n <;> rfl

theorem refuse_io {s : Session W} {out : List UInt8} (h : s.caller.io = some out) (n : ℕ) (code : ErrorCode)
    (message : String) : (s.refuse toks json (some (n + 1)) code message).caller.io =
      some (out ++ (lead n ++ errorText toks json s.caller.currentRequest code message)) := by
  simp [Session.refuse,Session.mapCaller,Caller.sendError,Caller.write,batchPrepareNextPart_io,
    batchPrepareNextPart_request,h]

theorem refuse_request (s : Session W) (batchSent : Option ℕ) (code : ErrorCode) (message : String) :
    (s.refuse toks json batchSent code message).caller.currentRequest = s.caller.currentRequest :=
  batchPrepareNextPart_request s.caller batchSent

theorem servePart_served (hh : ∀ m, (handlers m).Answers toks json) {part : Part} {n : ℕ} {out : List UInt8}
    {s s' : Session W} {batchSent : Option ℕ} (hio : s.caller.io = some out)
    (hrequest : s.caller.currentRequest = none)
    (h : servePart handlers toks json part (some (n + 1)) s = .ok (s',batchSent)) :
    Served toks json part n out s' batchSent := by
  cases part with
  | notObject =>
    cases h
    refine ⟨(refuse_request s _ _ _).trans hrequest,nofun,fun _ => ⟨_,.notObject,?_,rfl⟩⟩
    simpa [hrequest] using refuse_io hio n .invalidRequest "Invalid request"
  | invalid request =>
    cases h
    have hs : (s.setRequest (some request)).caller.io = some out := hio
    exact ⟨rfl,nofun,fun _ => ⟨_,.invalid request,refuse_io hs n .invalidRequest "Invalid request",rfl⟩⟩
  | unknown request =>
    cases h
    have hs : (s.setRequest (some request)).caller.io = some out := hio
    exact ⟨rfl,nofun,fun _ => ⟨_,.unknown request,refuse_io hs n .methodNotFound "Method not found",rfl⟩⟩
  | call m request =>
    simp only [servePart,callMethod] at h
    cases hid : request.id.isNone with
    | true =>
      simp only [hid,if_true] at h
      cases hm : handlers m ((s.setRequest (some request)).setIo none) with
      | error e => simp [hm,bind,Except.bind] at h
      | ok t =>
        simp only [hm,bind,Except.bind,Except.ok.injEq,Prod.mk.injEq] at h
        obtain ⟨rfl,rfl⟩ := h
        refine ⟨rfl,fun _ => ⟨hio,rfl⟩,fun hsilent => ?_⟩
        simp [Part.silent,hid] at hsilent
    | false =>
      simp only [hid,Bool.false_eq_true,if_false] at h
      cases hm : handlers m ((s.setRequest (some request)).mapCaller (·.batchPrepareNextPart (some (n + 1)))) with
      | error e => simp [hm,bind,Except.bind] at h
      | ok t =>
        simp only [hm,bind,Except.bind,Except.ok.injEq,Prod.mk.injEq] at h
        obtain ⟨rfl,rfl⟩ := h
        have hlead : ((s.setRequest (some request)).mapCaller (·.batchPrepareNextPart (some (n + 1)))).caller.io =
            some (out ++ lead n) := by
          simp [Session.mapCaller,Session.setRequest,batchPrepareNextPart_io,hio]
        obtain ⟨r,hr,ht⟩ := (hh m).writable _ t _ hlead hm
        have hcurrent : ((s.setRequest (some request)).mapCaller
            (·.batchPrepareNextPart (some (n + 1)))).caller.currentRequest = some request :=
          batchPrepareNextPart_request _ _
        refine ⟨rfl,fun hsilent => ?_,fun _ => ⟨r,.call m request ?_,?_,rfl⟩⟩
        · simp [Part.silent,hid] at hsilent
        · rwa [hcurrent] at hr
        · rwa [List.append_assoc] at ht

/-- The parts that get an answer. -/
def answered (parts : List Part) : List Part := parts.filter (fun part => !part.silent)

theorem serveParts_framed (hh : ∀ m, (handlers m).Answers toks json) {parts : List Part} {n n' : ℕ}
    {out : List UInt8} {s s' : Session W} (hio : s.caller.io = some out)
    (hrequest : s.caller.currentRequest = none)
    (h : serveParts handlers toks json parts (s,n) = .ok (s',n')) :
    s'.caller.currentRequest = none ∧ ∃ rs, List.Forall₂ (PartAnswer toks json) (answered parts) rs ∧
      s'.caller.io = some (out ++ pieces n rs) ∧ n' = n + rs.length := by
  induction parts generalizing s n out with
  | nil =>
    cases h
    exact ⟨hrequest,[],.nil,by simpa [pieces] using hio,rfl⟩
  | cons part parts ih =>
    cases hserve : servePart handlers toks json part (some (n + 1)) s with
    | error e => simp [serveParts,hserve,bind,Except.bind] at h
    | ok r =>
      obtain ⟨t,batchSent⟩ := r
      have hserved := servePart_served hh hio hrequest hserve
      simp only [serveParts,hserve,bind,Except.bind] at h
      cases hsilent : part.silent with
      | true =>
        obtain ⟨ht,rfl⟩ := hserved.silent hsilent
        simpa [answered,hsilent] using ih ht hserved.request h
      | false =>
        obtain ⟨r,hr,ht,rfl⟩ := hserved.answer hsilent
        obtain ⟨hnone,rs,hrs,hs',hn'⟩ := ih ht hserved.request h
        refine ⟨hnone,r :: rs,?_,?_,?_⟩
        · simpa [answered,hsilent] using List.Forall₂.cons hr hrs
        · simpa [pieces] using hs'
        · simp only [Option.getD_some] at hn'
          simp only [List.length_cons]
          omega

theorem servePart_closed (hh : ∀ m, (handlers m).Answers toks json) {part : Part} {b b' : Option ℕ}
    {s s' : Session W} (hio : s.caller.io = none) (hrequest : s.caller.currentRequest = none)
    (h : servePart handlers toks json part b s = .ok (s',b')) :
    s'.caller.io = none ∧ s'.caller.currentRequest = none := by
  have hprepare : ∀ c : Caller, c.io = none → (c.batchPrepareNextPart b).io = none := by
    intro c hc
    unfold Caller.batchPrepareNextPart
    split <;> simp [Caller.write,hc]
  have hrefuse : ∀ (t : Session W) code message, t.caller.io = none →
      (t.refuse toks json b code message).caller.io = none := by
    intro t code message ht
    simp [Session.refuse,Session.mapCaller,Caller.sendError,Caller.write,hprepare t.caller ht]
  cases part with
  | notObject =>
    cases h
    exact ⟨hrefuse s _ _ hio,(refuse_request s _ _ _).trans hrequest⟩
  | invalid request | unknown request =>
    cases h
    exact ⟨hrefuse (s.setRequest (some request)) _ _ hio,rfl⟩
  | call m request =>
    simp only [servePart,callMethod] at h
    split at h
    · cases hm : handlers m ((s.setRequest (some request)).setIo none) with
      | error e => simp [hm,bind,Except.bind] at h
      | ok t =>
        simp only [hm,bind,Except.bind,Except.ok.injEq,Prod.mk.injEq] at h
        obtain ⟨rfl,-⟩ := h
        exact ⟨hio,rfl⟩
    · cases hm : handlers m ((s.setRequest (some request)).mapCaller (·.batchPrepareNextPart b)) with
      | error e => simp [hm,bind,Except.bind] at h
      | ok t =>
        simp only [hm,bind,Except.bind,Except.ok.injEq,Prod.mk.injEq] at h
        obtain ⟨rfl,-⟩ := h
        exact ⟨(hh m).unwritable _ t (hprepare (s.setRequest (some request)).caller hio) hm,rfl⟩

theorem serveParts_closed (hh : ∀ m, (handlers m).Answers toks json) {parts : List Part} {n n' : ℕ}
    {s s' : Session W} (hio : s.caller.io = none) (hrequest : s.caller.currentRequest = none)
    (h : serveParts handlers toks json parts (s,n) = .ok (s',n')) :
    s'.caller.io = none ∧ s'.caller.currentRequest = none := by
  induction parts generalizing s n with
  | nil =>
    cases h
    exact ⟨hio,hrequest⟩
  | cons part parts ih =>
    cases hserve : servePart handlers toks json part (some (n + 1)) s with
    | error e => simp [serveParts,hserve,bind,Except.bind] at h
    | ok r =>
      simp only [serveParts,hserve,bind,Except.bind] at h
      obtain ⟨ht,hnone⟩ := servePart_closed hh hio hrequest hserve
      exact ih ht hnone h

theorem serveParts_error {parts : List Part} {st : Session W × ℕ} {c : Crash}
    (h : serveParts handlers toks json parts st = .error c) : ∃ m s, handlers m s = .error c := by
  induction parts generalizing st with
  | nil => cases h
  | cons part parts ih =>
    cases hserve : servePart handlers toks json part (some (st.2 + 1)) st.1 with
    | error e =>
      simp only [serveParts,hserve,bind,Except.bind,Except.error.injEq] at h
      exact servePart_error (h ▸ hserve)
    | ok r =>
      simp only [serveParts,hserve,bind,Except.bind] at h
      exact ih h

end Serving

section Batch
variable {W : Type}

/-- What a batch leaves behind: the connection and the request as they were, and on the
connection the answers to the parts that the loop visits. -/
structure Framed (toks : List Token) (json : List UInt8) (s s' : Session W) : Prop where
  request : s'.caller.currentRequest = s.caller.currentRequest
  closed : s.caller.io = none → s'.caller.io = none
  text : ∀ out, s.caller.io = some out → ∃ ps rs, Visits toks json 1 ps ∧
    List.Forall₂ (PartAnswer toks json) (answered (ps.map Prod.snd)) rs ∧ s'.caller.io = some (out ++ frame rs)

variable {handlers : Method → Handler W} {toks : List Token} {json : List UInt8} {tok : Token}

/-- The end of a batch. -/
def closeBatch (st : Session W × ℕ) : Session W :=
  if st.2 = 0 then st.1 else st.1.mapCaller (·.write (ascii "]"))

theorem closeBatch_request (st : Session W × ℕ) :
    (closeBatch st).caller.currentRequest = st.1.caller.currentRequest := by
  unfold closeBatch
  split <;> rfl

theorem closeBatch_io (st : Session W × ℕ) :
    (closeBatch st).caller.io = st.1.caller.io.map (· ++ if st.2 = 0 then [] else ascii "]") := by
  unfold closeBatch
  split
  · simp
  · rfl

theorem dispatchRequest_batch (harray : tok.type = .array) (hsize : tok.size ≠ 0) (s : Session W) :
    dispatchRequest handlers (tok :: toks) json s =
      (batchFrom handlers (tok :: toks) json 1 (s,0)).map closeBatch := by
  simp only [dispatchRequest,if_neg hsize,harray,ne_eq,not_true_eq_false,if_false,batchLoop_eq,bind,Except.bind]
  cases batchFrom handlers (tok :: toks) json 1 (s,0) <;> rfl

theorem framed_of_serveParts (hh : ∀ m, (handlers m).Answers toks json) {s : Session W}
    {st : Session W × ℕ} {ps : List (ℕ × Part)} (hrequest : s.caller.currentRequest = none)
    (hps : Visits toks json 1 ps) (h : serveParts handlers toks json (ps.map Prod.snd) (s,0) = .ok st) :
    Framed toks json s (closeBatch st) := by
  refine ⟨?_,fun hio => ?_,fun out hio => ?_⟩
  · rw [closeBatch_request,hrequest]
    cases hio : s.caller.io with
    | none => exact (serveParts_closed hh hio hrequest h).2
    | some out => exact (serveParts_framed hh hio hrequest h).1
  · simp [closeBatch_io,(serveParts_closed hh hio hrequest h).1]
  · obtain ⟨-,rs,hrs,ht,hn⟩ := serveParts_framed hh hio hrequest h
    refine ⟨ps,rs,hps,hrs,?_⟩
    simp [closeBatch_io,frame_eq,ht,hn]

/-- A batch with an element is answered with an array, or not at all. The dispatcher stops
short only at a token that is not there or is no container, or when a handler fails. -/
theorem batch_framed (hh : ∀ m, (handlers m).Answers toks json) (hhead : toks.head? = some tok)
    (harray : tok.type = .array) (hsize : tok.size ≠ 0) (s : Session W) (hrequest : s.caller.currentRequest = none) :
    (∃ s', dispatchRequest handlers toks json s = .ok s' ∧ Framed toks json s s') ∨
    ∃ c, dispatchRequest handlers toks json s = .error c ∧
      (c.atToken = true ∨ ∃ m s₁, handlers m s₁ = .error c) := by
  obtain ⟨toks,rfl⟩ := List.head?_eq_some_iff.mp hhead
  rw [dispatchRequest_batch harray hsize]
  rcases batchFrom_visits handlers (tok :: toks) json 1 (s,0) with ⟨ps,hps⟩ | ⟨c,hc,hcause⟩
  · rw [batchFrom_eq hps]
    cases hserve : serveParts handlers (tok :: toks) json (ps.map Prod.snd) (s,0) with
    | error c => exact .inr ⟨c,rfl,.inr (serveParts_error hserve)⟩
    | ok st => exact .inl ⟨closeBatch st,rfl,framed_of_serveParts hh hrequest hps hserve⟩
  · rw [hc]
    exact .inr ⟨c,rfl,hcause⟩

end Batch

section Samples

/-- A handler that has the answer already. -/
def answerTrue (toks : List Token) (json : List UInt8) : Method → Handler Unit :=
  fun _ s => .ok (s.mapCaller (·.sendResponse toks json (ascii "true")))

theorem answerTrue_answers (toks : List Token) (json : List UInt8) (m : Method) :
    (answerTrue toks json m).Answers toks json where
  writable := by
    rintro s s' out hio ⟨⟩
    exact ⟨_,.result (ascii "true"),by simp [Session.mapCaller,Caller.sendResponse,Caller.write,hio]⟩
  unwritable := by
    rintro s s' hio ⟨⟩
    simp [Session.mapCaller,Caller.sendResponse,Caller.write,hio]

/-- A request, a notification, a request of a method that is not there, and a number. -/
def mixedJson : List UInt8 :=
  ascii "[\x7b\"jsonrpc\":\"2.0\",\"method\":\"tag\",\"id\":1\x7d," ++
  ascii "\x7b\"jsonrpc\":\"2.0\",\"method\":\"tag\"\x7d," ++
  ascii "\x7b\"jsonrpc\":\"2.0\",\"method\":\"x\",\"id\":2\x7d,3]"

def mixedToks : List Token := (parseTokens mixedJson).getD []

/-- A client that has just been opened. -/
def freshSession : Session Unit := ⟨(),⟨some [],none,none⟩⟩

theorem batch_framed_mixed :
    (dispatchRequest (answerTrue mixedToks mixedJson) mixedToks mixedJson freshSession).isOk = true ∧
    ((∃ s', dispatchRequest (answerTrue mixedToks mixedJson) mixedToks mixedJson freshSession = .ok s' ∧
        Framed mixedToks mixedJson freshSession s') ∨
      ∃ c, dispatchRequest (answerTrue mixedToks mixedJson) mixedToks mixedJson freshSession = .error c ∧
        (c.atToken = true ∨ ∃ m s₁, answerTrue mixedToks mixedJson m s₁ = .error c)) :=
  ⟨by decide +kernel,batch_framed (answerTrue_answers _ _)
    (by decide +kernel : mixedToks.head? = some ⟨.array,0,114,4⟩) rfl (by decide) freshSession rfl⟩

def emptyToks : List Token := (parseTokens (ascii "[]")).getD []

/-- An array without elements is answered with an error, and not with an array of one. -/
theorem empty_batch_bare :
    emptyToks.map Token.type = [.array] ∧ (∀ m, (answerTrue emptyToks (ascii "[]") m).Answers emptyToks (ascii "[]")) ∧
    ∃ s' text, dispatchRequest (answerTrue emptyToks (ascii "[]")) emptyToks (ascii "[]") freshSession = .ok s' ∧
      s'.caller.io = some text ∧ ∀ rs, text ≠ frame rs := by
  have htext : (errorText emptyToks (ascii "[]") none .invalidRequest "Invalid request").head? = some 123 := by
    decide +kernel
  refine ⟨by decide +kernel,answerTrue_answers _ _,_,_,rfl,rfl,fun rs hrs => ?_⟩
  replace hrs : errorText emptyToks (ascii "[]") none .invalidRequest "Invalid request" = frame rs := hrs
  rw [hrs] at htext
  cases rs with
  | nil => cases htext
  | cons r rs =>
    have hbracket : ascii "[" = [91] := by decide +kernel
    simp [frame,hbracket] at htext

end Samples

end Lightsd.Core.Jsonrpc
