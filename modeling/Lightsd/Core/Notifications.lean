import Lightsd.Core.JsonHandlers
import Lightsd.Core.ReadOn

/-! # Notifications

A request without an id is handled with the connection taken away, and leaves the counter
of the answers as it was. It is not answered then, whatever its handler does. This takes a
method that exists: the error for one that does not is written like any other. It also takes
that no id is found in the values behind the request, and in a batch that the request has
the number of tokens it is taken to have, or less if it is the last one.
-/
namespace Lightsd.Core.Jsonrpc

open OrderedTree IndexLoop

section Silence
variable {W : Type} (handlers : Method → Handler W)

/-- A handler runs for a request without a connection, and nothing else happens. -/
def serveSilently (m : Method) (request : Request) (s : Session W) : Except Crash (Session W) :=
  (handlers m ((s.setRequest (some request)).setIo none)).map (fun s' => (s'.setIo s.caller.io).setRequest none)

variable {handlers}

theorem serveSilently_io {m : Method} {request : Request} {s s' : Session W}
    (h : serveSilently handlers m request s = .ok s') : s'.caller.io = s.caller.io := by
  unfold serveSilently at h
  cases hm : handlers m ((s.setRequest (some request)).setIo none) with
  | error e => simp [hm,Except.map] at h
  | ok t =>
    simp only [hm,Except.map,Except.ok.injEq] at h
    subst h
    rfl

theorem servePart_call_silent {toks : List Token} {json : List UInt8} {m : Method} {request : Request}
    (hid : request.id = none) (batchSent : Option ℕ) (s : Session W) :
    servePart handlers toks json (.call m request) batchSent s =
      (serveSilently handlers m request s).map (fun s' => (s',batchSent.map (· - 1))) := by
  simp only [servePart,callMethod,hid,Option.isNone_none,if_true,serveSilently,bind,Except.bind]
  cases handlers m ((s.setRequest (some request)).setIo none) <;> rfl

end Silence

/-- The tokens are those of a request that is dispatched on its own without an answer. -/
def SilentAlone (toks : List Token) (json : List UInt8) : Prop :=
  ∃ m request, ∀ (W : Type) (handlers : Method → Handler W) (s : Session W),
    dispatchRequest handlers toks json s = serveSilently handlers m request s

/-- A round of the loop over a batch serves a request without an answer, and the counter stays
as it was. -/
def SilentRound (toks : List Token) (json : List UInt8) (ti next : ℕ) : Prop :=
  ∃ m request, ∀ (W : Type) (handlers : Method → Handler W) (s : Session W) (batchSent : ℕ),
    batchBody handlers toks json ti (s,batchSent) =
      (serveSilently handlers m request s).map (fun s' => .next next (s',batchSent))

/-- The element of a batch at an index is dispatched without an answer, and the loop goes on
behind it. Behind the last element it may go on anywhere. -/
def SilentElement (toks : List Token) (json : List UInt8) (ti count : ℕ) (es : List (Rose Label)) : Prop :=
  ∃ next, (if es = [] then ti + count ≤ next else next = ti + count) ∧ SilentRound toks json ti next

section Parts
variable {toks : List Token} {json : List UInt8}

/-- A handler that leaves a trace on any connection. -/
def tracer : Method → Handler Unit := fun _ s => .ok (s.mapCaller (·.write [0]))

/-- A session with a connection that nothing has been written to. -/
def unwritten : Session Unit := ⟨(),⟨some [],none,none⟩⟩

theorem errorText_ne_nil (request : Option Request) (code : ErrorCode) (message : String) :
    errorText toks json request code message ≠ [] := by
  have hbrace : ascii "\x7b\"jsonrpc\": \"2.0\", \"id\": " ≠ [] := by decide +kernel
  simp [errorText,hbrace]

theorem exists_batchPrepareNextPart (c : Caller) (batchSent : Option ℕ) :
    ∃ text, (c.batchPrepareNextPart batchSent).io = c.io.map (· ++ text) := by
  match batchSent with
  | none | some 0 => exact ⟨[],by simp [Caller.batchPrepareNextPart]⟩
  | some 1 => exact ⟨_,rfl⟩
  | some (_ + 2) => exact ⟨_,rfl⟩

/-- A part that writes nothing is a call without an id. -/
theorem call_of_unwritten {part : Part} {s' : Session Unit} {batchSent b : Option ℕ}
    (h : servePart tracer toks json part batchSent unwritten = .ok (s',b)) (hio : s'.caller.io = some []) :
    ∃ m request, part = .call m request ∧ request.id = none := by
  have hwritten : ∀ (c : Caller) text, c.io = some [] → text ≠ [] →
      ((c.batchPrepareNextPart batchSent).write text).io ≠ some [] := by
    intro c text hc htext
    obtain ⟨before,heq⟩ := exists_batchPrepareNextPart c batchSent
    simp [Caller.write,heq,hc,htext]
  cases part with
  | notObject | invalid request | unknown request =>
    cases h
    exact absurd hio (hwritten _ _ rfl (errorText_ne_nil _ _ _))
  | call m request =>
    cases hid : request.id with
    | none => exact ⟨m,request,rfl,hid⟩
    | some i =>
      simp only [servePart,callMethod,hid,Option.isNone_some,Bool.false_eq_true,if_false] at h
      cases h
      exact absurd hio (hwritten _ _ rfl (List.cons_ne_nil 0 []))

theorem silentAlone_iff {tok : Token} (hhead : toks.head? = some tok) (hsize : tok.size ≠ 0)
    (hobject : tok.type = .object) : SilentAlone toks json ↔
      ∃ m request n, requestPart toks json 0 toks.length = .ok (.call m request,n) ∧ request.id = none := by
  obtain ⟨rest,rfl⟩ := List.head?_eq_some_iff.mp hhead
  have hdispatch : ∀ (W : Type) (handlers : Method → Handler W) (s : Session W),
      dispatchRequest handlers (tok :: rest) json s =
        (requestPart (tok :: rest) json 0 (tok :: rest).length).bind (fun r =>
          (servePart handlers (tok :: rest) json r.1 none s).map Prod.fst) := by
    intro W handlers s
    simp only [dispatchRequest,if_neg hsize,hobject,ne_eq,reduceCtorEq,not_false_eq_true,if_true,dispatchOne_eq,
      bind,Except.bind,Option.map_none]
    cases requestPart (tok :: rest) json 0 (tok :: rest).length with
    | error e => rfl
    | ok r =>
      simp only
      cases servePart handlers (tok :: rest) json r.1 none s <;> rfl
  constructor
  · rintro ⟨m,request,h⟩
    have htrace := h Unit tracer unwritten
    rw [hdispatch] at htrace
    cases hpart : requestPart (tok :: rest) json 0 (tok :: rest).length with
    | error e =>
      rw [hpart] at htrace
      cases htrace
    | ok r =>
      obtain ⟨part,n⟩ := r
      rw [hpart] at htrace
      simp only [Except.bind] at htrace
      cases hserve : servePart tracer (tok :: rest) json part none unwritten with
      | error e =>
        rw [hserve] at htrace
        cases htrace
      | ok r =>
        obtain ⟨s',b⟩ := r
        rw [hserve] at htrace
        have hio : s'.caller.io = some [] := serveSilently_io htrace.symm
        obtain ⟨m',request',rfl,hid⟩ := call_of_unwritten hserve hio
        exact ⟨m',request',n,rfl,hid⟩
  · rintro ⟨m,request,n,hpart,hid⟩
    refine ⟨m,request,fun W handlers s => ?_⟩
    rw [hdispatch,hpart]
    simp only [Except.bind,servePart_call_silent hid]
    cases serveSilently handlers m request s <;> rfl

theorem silentRound_iff {ti n : ℕ} {tok : Token} (hread : readToken toks ti = .ok tok)
    (hobject : tok.type = .object) : SilentRound toks json ti (ti + n) ↔
      ∃ m request, requestPart toks json ti (toks.length - ti) = .ok (.call m request,n) ∧ request.id = none := by
  have helement : elementPart toks json ti = _ := elementPart_object hread hobject
  constructor
  · rintro ⟨m,request,h⟩
    have htrace := h Unit tracer unwritten 0
    rw [batchBody_eq,helement] at htrace
    cases hpart : requestPart toks json ti (toks.length - ti) with
    | error e =>
      rw [hpart] at htrace
      cases htrace
    | ok r =>
      obtain ⟨part,k⟩ := r
      rw [hpart] at htrace
      simp only [Except.map,bind,Except.bind] at htrace
      cases hserve : servePart tracer toks json part (some (0 + 1)) unwritten with
      | error e =>
        simp only [hserve] at htrace
        cases htrace
      | ok r =>
        obtain ⟨s',b⟩ := r
        simp only [hserve] at htrace
        have hnext := Except.ok.inj htrace
        obtain ⟨hn,hst⟩ := Step.next.inj hnext
        have hio : s'.caller.io = some [] := congrArg (·.caller.io) (Prod.ext_iff.mp hst).1
        obtain ⟨m',request',rfl,hid⟩ := call_of_unwritten hserve hio
        obtain rfl : k = n := by omega
        exact ⟨m',request',rfl,hid⟩
  · rintro ⟨m,request,hpart,hid⟩
    refine ⟨m,request,fun W handlers s batchSent => ?_⟩
    rw [batchBody_eq,helement,hpart]
    simp only [Except.map,bind,Except.bind,servePart_call_silent hid]
    cases serveSilently handlers m request s <;> rfl

end Parts

/-- What it takes for a request without an id to stay without an answer: its method exists,
and what is read on behind it is no id and does not spoil it. -/
structure Unanswered (json : List UInt8) (ms : List (Label × Rose Label)) (cs : List (Rose Label)) : Prop where
  method : ∃ m ∈ ms, keyText json m = ascii "method" ∧ (lookupMethod (tokenText json (rootToken m.2))).isSome = true
  members : Admissible requestSchema json (ms ++ (readOn cs).1)
  leftover : (readOn cs).2 = false
  id : ∀ m ∈ (readOn cs).1, keyText json m ≠ ascii "id"

section Members
variable {toks : List Token} {json : List UInt8} {base : ℕ} {a : Label} {ms : List (Label × Rose Label)}
  {cs : List (Rose Label)}

theorem fieldValue_append {φ : Type} [DecidableEq φ] {schema : List (Node φ)} {f : φ} (i : ℕ)
    (ms ps : List (Label × Rose Label)) : fieldValue schema json f i (ms ++ ps) =
      (fieldValue schema json f i ms).or (fieldValue schema json f (i + counts (ms.map keyNode)) ps) := by
  induction ms generalizing i with
  | nil => simp [fieldValue]
  | cons m ms ih =>
    simp only [List.cons_append,fieldValue,List.map_cons,counts_cons,← Nat.add_assoc]
    split
    · simp
    · exact ih _

/-- Only one member fills in a field. -/
theorem Admissible.unique {φ : Type} [DecidableEq φ] {schema : List (Node φ)} (h : Admissible schema json ms)
    {f : φ} {m m' : Label × Rose Label} (hm : m ∈ ms) (hm' : m' ∈ ms) (hf : fieldOf schema json m = some f)
    (hf' : fieldOf schema json m' = some f) : m = m' := by
  have hpairs := h.distinct
  induction hpairs with
  | nil => cases hm
  | cons hhead _ ih =>
    rcases List.mem_cons.mp hm with rfl | htail
    · rcases List.mem_cons.mp hm' with rfl | htail'
      · rfl
      · exact absurd hf' (hhead m' htail' f hf)
    · rcases List.mem_cons.mp hm' with rfl | htail'
      · exact absurd hf (hhead m htail f hf')
      · exact ih ⟨fun x hx => h.types x (List.mem_cons_of_mem _ hx),(List.pairwise_cons.mp h.distinct).2⟩ htail htail'

/-- The members of an object that is accepted by itself. -/
theorem ObjectAt.accepted_alone (h : ObjectAt toks base a ms cs) {own : Request}
    (haccepted : checkAndExtractRequest toks json base (1 + counts (ms.map keyNode)) = .ok (true,own)) :
    ms.any (fun m => keyText json m = ascii "method") = true := by
  rw [checkAndExtractRequest_eq,extractFromDict_object (LiesAt.of_eq h.tokens) h.type h.keys h.values le_rfl,
    dictWalk_end (by omega)] at haccepted
  split at haccepted
  · rename_i hok
    have hms := (walkPairs_empty requestSchema json (base + 1) ms).mp hok
    obtain ⟨-,-,hcomplete,-⟩ := request_of_walk base hms rfl
    simp only [Except.map,Except.ok.injEq,Request.ofResult,Prod.mk.injEq,Bool.true_and] at haccepted
    rw [← hcomplete]
    exact haccepted.1
  · cases haccepted

/-- The token of the method is that of a member of the object itself, if it has one. -/
theorem ObjectAt.method_member (h : ObjectAt toks base a ms cs)
    (hmethod : ms.any (fun m => keyText json m = ascii "method") = true) {i : ℕ}
    (hi : fieldValue requestSchema json .method (base + 1) (ms ++ (readOn cs).1) = some i) :
    ∃ m ∈ ms, fieldOf requestSchema json m = some .method ∧ readToken toks i = .ok (rootToken m.2) := by
  rw [← fieldValue_isSome_key (base + 1) (fieldOf_request · .method)] at hmethod
  obtain ⟨j,hj⟩ := Option.isSome_iff_exists.mp hmethod
  rw [fieldValue_append,hj,Option.some_or] at hi
  obtain ⟨m,hfind,hread⟩ := fieldValue_read (LiesAt.of_eq h.tokens).children (hj.trans hi)
  exact ⟨m,List.mem_of_find?_eq_some hfind,by simpa using List.find?_some hfind,hread⟩

/-- What the dispatcher takes for a call without an id. -/
theorem ObjectAt.call_iff (h : ObjectAt toks base a ms cs)
    (hmethod : ms.any (fun m => keyText json m = ascii "method") = true)
    (hid : ∀ m ∈ ms, keyText json m ≠ ascii "id") (n : ℕ) :
    (∃ m request, requestPart toks json base (toks.length - base) = .ok (.call m request,n) ∧
        request.id = none) ↔
      Unanswered json ms cs ∧ n = requestTokens json (ms ++ (readOn cs).1) := by
  have hall : (ms ++ (readOn cs).1).any (fun m => keyText json m = ascii "method") = true := by
    rw [List.any_append,hmethod,Bool.true_or]
  by_cases hyes : Admissible requestSchema json (ms ++ (readOn cs).1)
  · cases hlast : (readOn cs).2 with
    | true =>
      rw [h.requestPart_overrun hyes hlast]
      constructor
      · rintro ⟨m,request,heq,-⟩
        cases heq
      · rintro ⟨hun,-⟩
        rw [hun.leftover] at hlast
        cases hlast
    | false =>
      obtain ⟨request,i,tok,hi,hread,hrequest,hpart⟩ := h.requestPart_taken hyes hlast hall
      obtain ⟨m₀,hm₀,hfield,htok⟩ := h.method_member hmethod hi
      obtain rfl : tok = rootToken m₀.2 := Except.ok.inj (hread.symm.trans htok)
      have hkey := (fieldOf_request m₀ .method).mp hfield
      have hnone : request.id = none ↔ ∀ m ∈ (readOn cs).1, keyText json m ≠ ascii "id" := by
        rw [← Option.not_isSome_iff_eq_none,hrequest]
        simp only [List.any_append,Bool.or_eq_true,List.any_eq_true,decide_eq_true_eq,not_or,not_exists,not_and]
        exact and_iff_right hid
      rw [hpart]
      constructor
      · rintro ⟨m,request',heq,hid'⟩
        simp only [Except.ok.injEq,Prod.mk.injEq] at heq
        obtain ⟨hcall,rfl⟩ := heq
        cases hlookup : lookupMethod (tokenText json (rootToken m₀.2)) with
        | none => simp [hlookup] at hcall
        | some m' =>
          simp only [hlookup,Part.call.injEq] at hcall
          obtain ⟨-,rfl⟩ := hcall
          exact ⟨⟨⟨m₀,hm₀,hkey,by rw [hlookup]; rfl⟩,hyes,hlast,hnone.mp hid'⟩,rfl⟩
      · rintro ⟨hun,rfl⟩
        obtain ⟨m,hm,hmkey,hknown⟩ := hun.method
        have hsame : m = m₀ := hyes.unique (List.mem_append_left _ hm) (List.mem_append_left _ hm₀)
          ((fieldOf_request m .method).mpr hmkey) hfield
        rw [hsame] at hknown
        obtain ⟨m',hlookup⟩ := Option.isSome_iff_exists.mp hknown
        exact ⟨m',request,by rw [hlookup],hnone.mpr hun.id⟩
  · obtain ⟨request,hpart⟩ := h.requestPart_refused hyes
    rw [hpart]
    constructor
    · rintro ⟨m,request,heq,-⟩
      cases heq
    · exact fun hun => absurd hun.1.members hyes

/-- A request without an id that is accepted stays without an answer, alone or as an element
of a batch with other elements and other values behind it, exactly if its method exists, what is
read on behind it does not matter and, in a batch, it has as many tokens as it is taken to
have, or not more if it is the last element. -/
theorem notification_silent_iff {es vs : List (Rose Label)} (h : ObjectAt toks base a ms (es ++ vs)) {own : Request}
    (haccepted : checkAndExtractRequest toks json base (1 + counts (ms.map keyNode)) = .ok (true,own))
    (hid : ∀ m ∈ ms, keyText json m ≠ ascii "id") :
    (base = 0 → (SilentAlone toks json ↔ Unanswered json ms (es ++ vs))) ∧
      (SilentElement toks json base (1 + counts (ms.map keyNode)) es ↔
        Unanswered json ms (es ++ vs) ∧
          if es = [] then 1 + counts (ms.map keyNode) ≤ requestTokens json (ms ++ (readOn (es ++ vs)).1)
          else 1 + counts (ms.map keyNode) = requestTokens json (ms ++ (readOn (es ++ vs)).1)) := by
  have hmethod := h.accepted_alone haccepted
  have hread := (LiesAt.of_eq h.tokens).read
  have hcall := h.call_iff hmethod hid
  refine ⟨?_,?_⟩
  · rintro rfl
    have hhead : toks.head? = some (rootToken (.node a (ms.map keyNode))) := by
      have hdrop := h.tokens
      rw [List.drop_zero,Jsmn.tokensOf_node] at hdrop
      rw [hdrop]
      rfl
    have hsize : (rootToken (.node a (ms.map keyNode))).size ≠ 0 := by
      obtain ⟨m,hm,-⟩ := List.any_eq_true.mp hmethod
      have hpos := List.length_pos_of_mem hm
      simp only [rootToken,Label.token,List.length_map]
      omega
    rw [silentAlone_iff hhead hsize h.type]
    constructor
    · rintro ⟨m,request,n,hpart,hnone⟩
      exact ((hcall n).mp ⟨m,request,hpart,hnone⟩).1
    · intro hun
      obtain ⟨m,request,hpart,hnone⟩ := (hcall _).mpr ⟨hun,rfl⟩
      exact ⟨m,request,_,hpart,hnone⟩
  · have hround : ∀ n, SilentRound toks json base (base + n) ↔ _ :=
      fun n => (silentRound_iff hread h.type).trans (hcall n)
    rw [SilentElement]
    split
    · constructor
      · rintro ⟨next,hle,hsilent⟩
        obtain ⟨n,rfl⟩ : ∃ n, next = base + n := ⟨next - base,by omega⟩
        obtain ⟨hun,rfl⟩ := (hround n).mp hsilent
        exact ⟨hun,by omega⟩
      · rintro ⟨hun,hle⟩
        exact ⟨_,by omega,(hround _).mpr ⟨hun,rfl⟩⟩
    · simp only [exists_eq_left,hround]

end Members

section Samples

/-- A batch of one notification without a version. -/
def lonelyJson : List UInt8 := ascii "[\x7b\"method\":\"power_on\",\"params\":[\"*\"]\x7d]"

def lonelyToks : List Token := (parseTokens lonelyJson).getD []

def lonelyMembers : List (Label × Rose Label) :=
  [(⟨.string,3,9⟩,.node ⟨.string,12,20⟩ []),(⟨.string,23,29⟩,.node ⟨.array,31,36⟩ [.node ⟨.string,33,34⟩ []])]

theorem lonely_unanswered : Unanswered lonelyJson lonelyMembers [] where
  method := ⟨(⟨.string,3,9⟩,.node ⟨.string,12,20⟩ []),by simp [lonelyMembers],by decide +kernel,by decide +kernel⟩
  members := (walkPairs_empty requestSchema lonelyJson 2 _).mp (by decide +kernel)
  leftover := rfl
  id := fun m hm => (List.not_mem_nil hm).elim

theorem notification_silent_iff_lonely :
    SilentElement lonelyToks lonelyJson 1 (1 + counts (lonelyMembers.map keyNode)) [] := by
  have hat : ObjectAt lonelyToks 1 ⟨.object,1,37⟩ lonelyMembers ([] ++ []) :=
    { type := rfl
      keys := by simp [lonelyMembers]
      values := by
        intro m hm
        simp only [lonelyMembers,List.mem_cons,List.not_mem_nil,or_false] at hm
        rcases hm with rfl | rfl
        · exact .leaf _ (Or.inl rfl)
        · refine .array _ _ rfl (fun c hc => ?_)
          obtain rfl := List.mem_singleton.mp hc
          exact .leaf _ (Or.inl rfl)
      behind := fun c hc => (List.not_mem_nil hc).elim
      tokens := by decide +kernel }
  have haccepted : checkAndExtractRequest lonelyToks lonelyJson 1 (1 + counts (lonelyMembers.map keyNode)) =
      .ok (true,⟨some 3,some 5,2,none,8⟩) := by decide +kernel
  have hid : ∀ m ∈ lonelyMembers, keyText lonelyJson m ≠ ascii "id" := by decide +kernel
  exact (notification_silent_iff hat haccepted hid).2.mpr ⟨lonely_unanswered,by decide +kernel⟩

/-- A notification of a method that does not exist. -/
def strayJson : List UInt8 := ascii "\x7b\"jsonrpc\":\"2.0\",\"method\":\"blink\"\x7d"

def strayToks : List Token := (parseTokens strayJson).getD []

/-- It is accepted and has no id, and it is answered. -/
theorem stray_notification_answered :
    checkAndExtractRequest strayToks strayJson 0 5 = .ok (true,⟨some 4,none,0,none,5⟩) ∧
    (dispatchRequest (methodHandlers plainSetting strayToks strayJson) strayToks strayJson
        ⟨{},⟨some [],some [],none⟩⟩).toOption.map (fun s => s.caller.io) =
      some (some (ascii "\x7b\"jsonrpc\": \"2.0\", \"id\": null, " ++
        ascii "\"error\": \x7b\"code\": -32601, \"message\": \"Method not found\"\x7d\x7d")) ∧
    ¬ SilentAlone strayToks strayJson := by
  refine ⟨by decide +kernel,by decide +kernel,fun ⟨m,request,h⟩ => ?_⟩
  have hio : (dispatchRequest tracer strayToks strayJson unwritten).toOption.map (fun s => s.caller.io) ≠
      some (some []) := by decide +kernel
  rw [h Unit tracer unwritten] at hio
  exact hio rfl

end Samples
end Lightsd.Core.Jsonrpc
