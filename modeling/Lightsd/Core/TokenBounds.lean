import Lightsd.Core.ReadOn
import Lightsd.Core.TakenKeys

/-! # Tokens that are not there

When the dispatcher stays among the tokens that were parsed. Parameters are read where they
were passed, so all depends on the elements that are visited: the dispatcher leaves the tokens
if and only if it takes the last one for a key in one of them, or passes a first token that is
no container. An object among well-formed values takes the last token for a key if and only if
its walk goes on to a string that is left over at the end.
-/
namespace Lightsd.Core.Jsonrpc

open IndexLoop Jsmn OrderedTree Lifx

section Requests
variable {toks : List Token} {json : List UInt8}

theorem requestSchema_tidy : Tidy requestSchema := tidy_of_nodup (by decide +kernel)

/-- What is found in a request has been read, and its parameters have been passed. -/
theorem request_extracted {base n : ℕ} {ok : Bool} {request : Request}
    (h : checkAndExtractRequest toks json base n = .ok (ok,request)) :
    (∀ i, request.method = some i → i < toks.length) ∧
      ∀ i, request.params = some i → ∃ limit, skipValue toks i limit = .ok (i + request.paramsNtokens) := by
  rw [checkAndExtractRequest_eq] at h
  cases hextract : extractFromDict requestSchema toks json {} base n with
  | error e =>
    rw [hextract] at h
    cases h
  | ok r =>
    rw [hextract] at h
    obtain rfl : request = (Request.ofResult r).2 := (congrArg Prod.snd (Except.ok.inj h)).symm
    have hextracted := extractFromDict_extracted requestSchema_tidy extracted_empty hextract
    obtain ⟨hmethod,hparams,-⟩ := ofResult_value r
    rw [hmethod,hparams,ofResult_paramsNtokens]
    refine ⟨fun i hi => ?_,fun i hi => ?_⟩
    · obtain ⟨x,-,-,t,hread,-⟩ := hextracted.row .method i hi
      exact lt_of_readToken hread
    · exact hextracted.passed ⟨ascii "params",some .params,some .params,typeObjectOrArray,true⟩
        (by simp [requestSchema]) .params .params rfl rfl i hi

/-- The parameters of a request can be read, whatever the tokens are. -/
theorem readable_request {base n : ℕ} {ok : Bool} {request : Request}
    (h : checkAndExtractRequest toks json base n = .ok (ok,request)) : Readable notAtToken toks json request where
  params schema _ := by
    cases hparams : request.params with
    | none =>
      unfold extractAndValidateParams
      exact .ite (fun _ => fails_ok _) (fun _ => fails_error rfl)
    | some i =>
      obtain ⟨limit,hskip⟩ := (request_extracted h).2 i hparams
      exact extractAndValidateParams_passed hskip
  fields schema hschema out hout f i hi := by
    obtain ⟨x,-,-,t,hread,-⟩ := (extractAndValidateParams_extracted (paramSchemas_tidy hschema) hout).row f i hi
    exact fails_of_ok hread
  targets schema hschema out hout target htarget c := by
    have hextracted := extractAndValidateParams_extracted (paramSchemas_tidy hschema) hout
    rcases buildTargetList_cases hschema hextracted htarget with ⟨targets,hok⟩ | hnone
    · exact fails_of_ok (hok c)
    · exact fails_of_ok (hnone c)

end Requests

section Elements
variable (toks : List Token) (json : List UInt8)

/-- The tokens that are taken for keys when an element is looked at: in the walk over the members
of an object, and where a refused object or an array is passed. -/
inductive ElementKey (i k : ℕ) : Prop
  | member {t : Token} (hread : readToken toks i = .ok t) (ht : t.type = .object)
      (h : MemberKey requestSchema toks json (i + 1) {} k)
  | refused {t : Token} {request : Request} (hread : readToken toks i = .ok t) (ht : t.type = .object)
      (hrefused : checkAndExtractRequest toks json i (toks.length - i) = .ok (false,request))
      (h : ContainerKey toks i k)
  | array {t : Token} (hread : readToken toks i = .ok t) (ht : t.type = .array) (h : ContainerKey toks i k)

variable {toks json} {base : ℕ} {t : Token}

theorem isContainer_object (ht : t.type = .object) : isContainer t = true := by simp [isContainer,ht]

theorem isContainer_array (ht : t.type = .array) : isContainer t = true := by simp [isContainer,ht]

theorem check_fails_iff (hread : readToken toks base = .ok t) (ht : t.type = .object) :
    (∃ c, checkAndExtractRequest toks json base (toks.length - base) = .error c) ↔
      MemberKey requestSchema toks json (base + 1) {} (toks.length - 1) := by
  have hlt := lt_of_readToken hread
  have hextract : extractFromDict requestSchema toks json {} base (toks.length - base) =
      (dictWalk requestSchema json toks toks.length (base + 1) {}).map
        (fun r => (r.1 && complete requestSchema r.2,r.2)) := by
    unfold extractFromDict
    simp only [hread,ht,bind,Except.bind,ne_eq,not_true_eq_false,if_false]
    rw [if_neg (by omega),show base + (toks.length - base) = toks.length by omega,dictWalk]
    cases loop (dictBody requestSchema toks json toks.length) (true,·) .endless toks.length (base + 1) {} <;> rfl
  rw [← dictWalk_fails_iff,checkAndExtractRequest_eq,hextract]
  cases dictWalk requestSchema json toks toks.length (base + 1) {} <;> simp [Except.map]

/-- The method of a request that was accepted is there. -/
theorem requestMethod_ok {n : ℕ} {request : Request}
    (h : checkAndExtractRequest toks json base n = .ok (true,request)) :
    ∃ m, requestMethod toks json request = .ok m := by
  obtain ⟨i,hi⟩ := Option.isSome_iff_exists.mp (accepted_request h).1
  obtain ⟨tok,htok⟩ := exists_readToken ((request_extracted h).1 i hi)
  simp only [requestMethod,hi,htok]
  exact ⟨_,rfl⟩

/-- Looking at an object fails if and only if the last token is taken for a key there. -/
theorem requestPart_fails_iff (hread : readToken toks base = .ok t) (ht : t.type = .object) :
    (∃ c, requestPart toks json base (toks.length - base) = .error c) ↔
      ElementKey toks json base (toks.length - 1) := by
  have hlimit : base + (toks.length - base) = toks.length := by
    have := lt_of_readToken hread
    omega
  have hconsume := consume_fails_iff hread (isContainer_object ht)
  have hcheck := @check_fails_iff toks json base t hread ht
  have helement : ElementKey toks json base (toks.length - 1) ↔
      MemberKey requestSchema toks json (base + 1) {} (toks.length - 1) ∨
        (∃ request, checkAndExtractRequest toks json base (toks.length - base) = .ok (false,request)) ∧
          ContainerKey toks base (toks.length - 1) := by
    constructor
    · rintro (⟨-,-,h⟩ | ⟨-,-,hrefused,h⟩ | ⟨hread',ht',h⟩)
      · exact .inl h
      · exact .inr ⟨⟨_,hrefused⟩,h⟩
      · obtain rfl := Except.ok.inj (hread.symm.trans hread')
        rw [ht] at ht'
        cases ht'
    · rintro (h | ⟨⟨request,hrefused⟩,h⟩)
      · exact .member hread ht h
      · exact .refused hread ht hrefused h
  rw [helement,← hcheck,← hconsume]
  unfold requestPart
  rw [hlimit]
  cases hr : checkAndExtractRequest toks json base (toks.length - base) with
  | error c => simp [bind,Except.bind]
  | ok r =>
    obtain ⟨ok,request⟩ := r
    cases ok with
    | false => cases consumeObjectOrArray toks base toks.length <;> simp [bind,Except.bind]
    | true =>
      obtain ⟨m,hm⟩ := requestMethod_ok hr
      cases m <;> simp [bind,Except.bind,hm]

/-- Looking at what there is at an index fails if and only if the last token is taken for a key. -/
theorem elementPart_fails_iff (hi : base < toks.length) :
    (∃ c, elementPart toks json base = .error c) ↔ ElementKey toks json base (toks.length - 1) := by
  obtain ⟨t,hread⟩ := exists_readToken hi
  by_cases hobject : t.type = .object
  · rw [← requestPart_fails_iff hread hobject,elementPart_object hread hobject]
    cases requestPart toks json base (toks.length - base) <;> simp [Except.map]
  · unfold elementPart
    simp only [hread,bind,Except.bind,if_neg hobject]
    split
    next harray =>
      have hconsume := consume_fails_iff hread (isContainer_array harray)
      have helement : ElementKey toks json base (toks.length - 1) ↔ ContainerKey toks base (toks.length - 1) := by
        refine ⟨?_,.array hread harray⟩
        rintro (⟨hread',ht',-⟩ | ⟨-,-,-,h⟩ | ⟨-,-,h⟩)
        · obtain rfl := Except.ok.inj (hread.symm.trans hread')
          exact absurd ht' hobject
        · exact h
        · exact h
      rw [helement,← hconsume]
      cases consumeObjectOrArray toks base toks.length <;> simp
    next harray =>
      constructor
      · rintro ⟨c,hc⟩
        cases hc
      · rintro (⟨hread',ht',-⟩ | ⟨hread',ht',-,-⟩ | ⟨hread',ht',-⟩) <;>
          obtain rfl := Except.ok.inj (hread.symm.trans hread')
        · exact absurd ht' hobject
        · exact absurd ht' hobject
        · exact absurd ht' harray

/-- An object among well-formed values takes the last token for a key if and only if nothing
ends its walk before a string that is left over. -/
theorem elementKey_object {a : Label} {ms : List (Label × Rose Label)} {cs : List (Rose Label)}
    (h : ObjectAt toks base a ms cs) : ElementKey toks json base (toks.length - 1) ↔
      Admissible requestSchema json (ms ++ (readOn cs).1) ∧ (readOn cs).2 = true := by
  rw [← requestPart_fails_iff (LiesAt.of_eq h.tokens).read h.type]
  constructor
  · rintro ⟨c,hc⟩
    by_cases hyes : Admissible requestSchema json (ms ++ (readOn cs).1)
    · refine ⟨hyes,?_⟩
      by_contra hlast
      have hlast : (readOn cs).2 = false := by simpa using hlast
      cases hmethod : (ms ++ (readOn cs).1).any (fun m => keyText json m = ascii "method") with
      | false =>
        obtain ⟨request,hpart⟩ := h.requestPart_incomplete hyes hlast hmethod
        rw [hpart] at hc
        cases hc
      | true =>
        obtain ⟨request,i,tok,-,-,-,hpart⟩ := h.requestPart_taken hyes hlast hmethod
        rw [hpart] at hc
        cases hc
    · obtain ⟨request,hpart⟩ := h.requestPart_refused hyes
      rw [hpart] at hc
      cases hc
  · rintro ⟨hyes,hlast⟩
    exact ⟨_,h.requestPart_overrun hyes hlast⟩

/-- Nothing in another well-formed value is taken for a key without a value. -/
theorem not_elementKey_of_shaped {u : Rose Label} {cs : List (Rose Label)} (hu : Shaped u)
    (hdrop : toks.drop base = tokensOf (u :: cs)) (hother : (rootToken u).type ≠ .object) :
    ¬ ElementKey toks json base (toks.length - 1) := by
  rw [← elementPart_fails_iff (lt_of_readToken (LiesAt.of_eq hdrop).read),elementPart_other hu hdrop hother]
  rintro ⟨c,hc⟩
  cases hc

end Elements

section Dispatch
variable {toks : List Token} {json : List UInt8}

/-- A request that is called can be read. -/
theorem readable_of_requestPart {base n k : ℕ} {m : Method} {request : Request}
    (h : requestPart toks json base n = .ok (.call m request,k)) : Readable notAtToken toks json request := by
  obtain ⟨⟨ok,request'⟩,hcheck,hrest⟩ := exists_of_bind_ok h
  cases ok with
  | false =>
    obtain ⟨j,-,hj⟩ := exists_of_bind_ok hrest
    cases hj
  | true =>
    obtain ⟨m',-,hm⟩ := exists_of_bind_ok hrest
    cases m' with
    | none => cases hm
    | some m' =>
      cases hm
      exact readable_request hcheck

theorem readable_of_elementPart {i k : ℕ} {m : Method} {request : Request}
    (h : elementPart toks json i = .ok (.call m request,k)) : Readable notAtToken toks json request := by
  obtain ⟨t,-,hrest⟩ := exists_of_bind_ok h
  split at hrest
  · obtain ⟨⟨part,n⟩,hpart,hn⟩ := exists_of_bind_ok hrest
    cases hn
    exact readable_of_requestPart hpart
  · split at hrest
    · obtain ⟨j,-,hj⟩ := exists_of_bind_ok hrest
      cases hj
    · cases hrest

/-- The parts of a batch that are served before an index is visited. -/
inductive PartsBefore (toks : List Token) (json : List UInt8) : ℕ → List Part → Prop
  | start : PartsBefore toks json 1 []
  | next {i j : ℕ} {part : Part} {parts : List Part} (h : PartsBefore toks json i parts) (hi : i < toks.length)
      (hpart : elementPart toks json i = .ok (part,j)) : PartsBefore toks json j (parts ++ [part])

/-- The indices that are visited: the first one for a request, and for a batch all that the loop
gets to, as long as the handlers of the parts before them come back. -/
def Visited (set : Setting) (toks : List Token) (json : List UInt8) (s : Session Daemon) (i : ℕ) : Prop :=
  ∃ first ∈ toks.head?, first.size ≠ 0 ∧
    if first.type = .array then
      i < toks.length ∧ ∃ parts st, PartsBefore toks json i parts ∧
        serveParts (methodHandlers set toks json) toks json parts (s,0) = .ok st
    else i = 0

theorem serveParts_append {W : Type} (handlers : Method → Handler W) (parts parts' : List Part) (st : Session W × ℕ) :
    serveParts handlers toks json (parts ++ parts') st =
      serveParts handlers toks json parts st >>= serveParts handlers toks json parts' := by
  induction parts generalizing st with
  | nil => rfl
  | cons part parts ih =>
    simp only [List.cons_append,serveParts]
    cases servePart handlers toks json part (some (st.2 + 1)) st.1 with
    | error c => rfl
    | ok r => exact ih _

/-- The loop over a batch goes through the indices that it visits. -/
theorem PartsBefore.batchLoop {W : Type} {handlers : Method → Handler W} {s : Session W} {i : ℕ} {parts : List Part}
    (h : PartsBefore toks json i parts) {st : Session W × ℕ}
    (hserved : serveParts handlers toks json parts (s,0) = .ok st) :
    batchLoop handlers toks json s = batchFrom handlers toks json i st := by
  induction h generalizing st with
  | start =>
    cases hserved
    exact batchLoop_eq handlers toks json s
  | next h hi hpart ih =>
    rw [serveParts_append] at hserved
    obtain ⟨st',hbefore,hserve⟩ := exists_of_bind_ok hserved
    obtain ⟨r,hr,hst⟩ := exists_of_bind_ok hserve
    cases hst
    rw [ih hbefore,batchFrom_visit hi hpart,hr]
    rfl

variable {set : Setting} {s : Session Daemon}

theorem servePart_stays {i j : ℕ} {part : Part} (hpart : elementPart toks json i = .ok (part,j))
    (batchSent : Option ℕ) (s : Session Daemon) :
    Fails notAtToken (servePart (methodHandlers set toks json) toks json part batchSent s) := by
  refine servePart_fails ?_
  rintro m request rfl c hc -
  exact methodHandlers_fails rfl rfl (readable_of_elementPart hpart) hc (fun _ _ => rfl)

/-- A batch is dispatched among its tokens if the last one is taken for a key at no index that is
visited. -/
theorem batchLoop_stays (h : ∀ i parts st, i < toks.length → PartsBefore toks json i parts →
      serveParts (methodHandlers set toks json) toks json parts (s,0) = .ok st →
      ¬ ElementKey toks json i (toks.length - 1)) :
    Fails notAtToken (batchLoop (methodHandlers set toks json) toks json s) := by
  refine @loop_rule _ _ _ _ _ _ _ (batchBody_advances (methodHandlers set toks json) toks json)
    (fun i st => ∃ parts, PartsBefore toks json i parts ∧
      serveParts (methodHandlers set toks json) toks json parts (s,0) = .ok st)
    (fun x => Fails notAtToken x) ?_ ?_ ?_ ?_ _ _ ⟨[],.start,rfl⟩
  · exact fun _ _ _ _ => fails_ok _
  · rintro i st e hi ⟨parts,hparts,hserved⟩ hbody
    cases hpart : elementPart toks json i with
    | error c => exact absurd ((elementPart_fails_iff hi).mp ⟨c,hpart⟩) (h i parts st hi hparts hserved)
    | ok r =>
      have hround : Fails notAtToken (batchBody (methodHandlers set toks json) toks json i st) := by
        rw [batchBody_eq,hpart]
        exact (servePart_stays hpart _ _).bind (fun _ _ => fails_ok _)
      exact fails_error (hround e hbody)
  · exact fun _ _ _ _ _ _ => fails_ok _
  · rintro i st i' st' hi ⟨parts,hparts,hserved⟩ hbody
    rw [batchBody_eq] at hbody
    obtain ⟨⟨part,next⟩,hpart,hrest⟩ := exists_of_bind_ok hbody
    obtain ⟨r,hr,hnext⟩ := exists_of_bind_ok hrest
    cases hnext
    refine ⟨parts ++ [part],.next hparts hi hpart,?_⟩
    rw [serveParts_append,hserved]
    simp only [bind,Except.bind,serveParts,hr]

theorem stays_iff {α : Type} {x : Except Crash α} :
    Fails notAtToken x ↔ ∀ c, x = .error c → c.atToken = false := by
  simp [Fails,notAtToken]

/-- What fails at a token does not stay among the tokens. -/
theorem not_stays {α : Type} {x : Except Crash α} {c : Crash} (hx : x = .error c) (hc : c.atToken = true) :
    ¬ Fails notAtToken x := by
  intro h
  have hnot := stays_iff.mp h c hx
  rw [hc] at hnot
  cases hnot

theorem requestPart_plain {t : Token} {rest : List Token} (ht : isContainer t = false) :
    requestPart (t :: rest) json 0 (t :: rest).length = .error (.notContainer 0) := by
  have hread : readToken (t :: rest) 0 = .ok t := rfl
  have htype : t.type ≠ .object := fun hobject => by simp [isContainer,hobject] at ht
  simp [requestPart,checkAndExtractRequest_eq,extractFromDict,Request.ofResult,hread,htype,consumeObjectOrArray,
    consumeFuel,ht,Except.map,bind,Except.bind]

section First
variable {t : Token} {rest : List Token}

/-- A token that is not that of a batch is dispatched on its own. -/
theorem dispatchOne_stays_iff (harray : t.type ≠ .array) : Fails notAtToken
    (dispatchOne (methodHandlers set (t :: rest) json) (t :: rest) json 0 (t :: rest).length none s) ↔
      isContainer t = true ∧ ¬ ElementKey (t :: rest) json 0 ((t :: rest).length - 1) := by
  have hread : readToken (t :: rest) 0 = .ok t := rfl
  by_cases hobject : t.type = .object
  · have hpart : (∃ c, requestPart (t :: rest) json 0 (t :: rest).length = .error c) ↔ _ :=
      requestPart_fails_iff hread hobject
    constructor
    · refine fun h => ⟨isContainer_object hobject,fun hkey => ?_⟩
      obtain ⟨c,hc⟩ := hpart.mpr hkey
      refine not_stays ?_ (requestPart_fails _ _ _ _ c hc) h
      rw [dispatchOne_eq,hc]
      rfl
    · rintro ⟨-,hkey⟩
      refine dispatchOne_fails ?_ rfl rfl (fun m request n h => readable_of_requestPart h) (fun _ => rfl)
      exact fun c hc => absurd (hpart.mp ⟨c,hc⟩) hkey
  · have hplain : isContainer t = false := by simp [isContainer,hobject,harray]
    constructor
    · refine fun h => absurd h (@not_stays _ _ (.notContainer 0) ?_ rfl)
      rw [dispatchOne_eq,requestPart_plain hplain]
      rfl
    · rintro ⟨hcontainer,-⟩
      rw [hplain] at hcontainer
      cases hcontainer

/-- A batch is dispatched element by element. -/
theorem batchLoop_stays_iff : Fails notAtToken (batchLoop (methodHandlers set toks json) toks json s) ↔
    ∀ i parts st, i < toks.length → PartsBefore toks json i parts →
      serveParts (methodHandlers set toks json) toks json parts (s,0) = .ok st →
      ¬ ElementKey toks json i (toks.length - 1) := by
  refine ⟨fun h i parts st hi hparts hserved hkey => ?_,batchLoop_stays⟩
  obtain ⟨c,hc⟩ := (elementPart_fails_iff hi).mpr hkey
  refine not_stays ?_ (elementPart_fails _ _ _ c hc) h
  rw [hparts.batchLoop hserved,batchFrom_error hi hc]

theorem fails_bind_ok {α β : Type} {p : Crash → Bool} {x : Except Crash α} {f : α → β} :
    Fails p (x >>= fun a => .ok (f a)) ↔ Fails p x := by
  cases x with
  | error c => exact ⟨fun h => fails_error (h c rfl),fun h => fails_error (h c rfl)⟩
  | ok a => exact ⟨fun _ => fails_ok _,fun _ => fails_ok _⟩

end First

/-- The dispatcher stays among the tokens if and only if it takes the last one for a key at no
index that it visits, and the first one is a container or has nothing below it. -/
theorem dispatchRequest_stays_iff : Fails notAtToken (dispatchRequest (methodHandlers set toks json) toks json s) ↔
    (∀ first ∈ toks.head?, first.size ≠ 0 → isContainer first = true) ∧
      ∀ i, Visited set toks json s i → ¬ ElementKey toks json i (toks.length - 1) := by
  cases toks with
  | nil => simp [dispatchRequest,Visited,fails_ok]
  | cons t rest =>
    by_cases hsize : t.size = 0
    · simp [dispatchRequest,Visited,hsize,fails_ok]
    · by_cases harray : t.type = .array
      · have hdispatch : Fails notAtToken (dispatchRequest (methodHandlers set (t :: rest) json) (t :: rest) json s) ↔
            Fails notAtToken (batchLoop (methodHandlers set (t :: rest) json) (t :: rest) json s) := by
          simp only [dispatchRequest,if_neg hsize,harray,ne_eq,not_true_eq_false,if_false]
          exact fails_bind_ok
        rw [hdispatch,batchLoop_stays_iff]
        simp only [Visited,List.head?_cons,Option.mem_some,forall_eq',exists_eq_left',hsize,not_false_eq_true,ne_eq,
          true_and,harray,if_true,isContainer_array harray,forall_const]
        exact ⟨fun h i ⟨hi,parts,st,hparts,hserved⟩ => h i parts st hi hparts hserved,
          fun h i parts st hi hparts hserved => h i ⟨hi,parts,st,hparts,hserved⟩⟩
      · have hdispatch : Fails notAtToken (dispatchRequest (methodHandlers set (t :: rest) json) (t :: rest) json s) ↔
            Fails notAtToken
              (dispatchOne (methodHandlers set (t :: rest) json) (t :: rest) json 0 (t :: rest).length none s) := by
          simp only [dispatchRequest,if_neg hsize,ne_eq,harray,not_false_eq_true,if_true]
          exact fails_bind_ok
        rw [hdispatch,dispatchOne_stays_iff harray]
        simp only [Visited,List.head?_cons,Option.mem_some,forall_eq',exists_eq_left',hsize,not_false_eq_true,ne_eq,
          true_and,harray,if_false,forall_eq,forall_const]

end Dispatch

section Bounds

/-- The dispatcher reads no token that is not there, and passes no other token as a container, if
and only if it takes the last token for a key in none of the elements that it visits, and the
first token is a container or has nothing below it. Among well-formed values, an object takes the
last token for a key if and only if all its members and the pairs of values behind it are
admissible, and a string is left over behind these; another value never does. -/
theorem dispatch_in_bounds (toks : List Token) (json : List UInt8) (set : Setting) (s : Session Daemon) :
    ((∀ c, dispatchRequest (methodHandlers set toks json) toks json s = .error c → c.atToken = false) ↔
      (∀ first ∈ toks.head?, first.size ≠ 0 → isContainer first = true) ∧
        ∀ i, Visited set toks json s i → ¬ ElementKey toks json i (toks.length - 1)) ∧
    (∀ base a ms cs, ObjectAt toks base a ms cs → (ElementKey toks json base (toks.length - 1) ↔
      Admissible requestSchema json (ms ++ (readOn cs).1) ∧ (readOn cs).2 = true)) ∧
    ∀ base u cs, Shaped u → toks.drop base = tokensOf (u :: cs) → (rootToken u).type ≠ .object →
      ¬ ElementKey toks json base (toks.length - 1) := by
  refine ⟨?_,fun base a ms cs h => elementKey_object h,fun base u cs hu => not_elementKey_of_shaped hu⟩
  rw [← stays_iff]
  exact dispatchRequest_stays_iff

end Bounds

section Samples

/-- A request that ends with a string. -/
def stringIdJson : List UInt8 :=
  ascii "\x7b\"jsonrpc\":\"2.0\",\"method\":\"power_on\",\"params\":[\"*\"],\"id\":\"1\"\x7d"

def stringIdToks : List Token := (parseTokens stringIdJson).getD []

def stringIdMembers : List (Label × Rose Label) :=
  [(⟨.string,2,9⟩,.node ⟨.string,12,15⟩ []),(⟨.string,18,24⟩,.node ⟨.string,27,35⟩ []),
    (⟨.string,38,44⟩,.node ⟨.array,46,51⟩ [.node ⟨.string,48,49⟩ []]),
    (⟨.string,53,55⟩,.node ⟨.string,58,59⟩ [])]

def stringIdTree : Rose Label := .node ⟨.object,0,61⟩ (stringIdMembers.map keyNode)

theorem stringId_object : ObjectAt (tokensOf [stringIdTree]) 0 ⟨.object,0,61⟩ stringIdMembers [] := by
  refine ⟨rfl,by simp [stringIdMembers],fun m hm => ?_,by simp,rfl⟩
  simp only [stringIdMembers,List.mem_cons,List.not_mem_nil,or_false] at hm
  rcases hm with rfl | rfl | rfl | rfl
  · exact .leaf _ (.inl rfl)
  · exact .leaf _ (.inl rfl)
  · refine .array _ _ rfl (fun c hc => ?_)
    obtain rfl := List.mem_singleton.mp hc
    exact .leaf _ (.inl rfl)
  · exact .leaf _ (.inl rfl)

/-- A string behind an object in an array that is not a request. -/
def innerStringJson : List UInt8 := ascii "[[\x7b\x7d,\"a\"]]"

def innerStringToks : List Token := (parseTokens innerStringJson).getD []

def innerStringTree : Rose Label := .node ⟨.array,1,9⟩ [.node ⟨.object,2,4⟩ [],.node ⟨.string,6,7⟩ []]

theorem dispatch_in_bounds_stringId : parseTokens stringIdJson = some stringIdToks ∧
    (∀ c, dispatchRequest (methodHandlers plainSetting stringIdToks stringIdJson) stringIdToks stringIdJson
      ⟨{},⟨some [],some [],none⟩⟩ = .error c → c.atToken = false) ∧
    ObjectAt stringIdToks 0 ⟨.object,0,61⟩ stringIdMembers [] ∧
    ¬ ElementKey stringIdToks stringIdJson 0 (stringIdToks.length - 1) ∧
    parseTokens innerStringJson = some innerStringToks ∧
    innerStringToks.drop 1 = tokensOf [innerStringTree] ∧
    ¬ ElementKey innerStringToks innerStringJson 1 (innerStringToks.length - 1) := by
  have htoks : stringIdToks = tokensOf [stringIdTree] := by decide +kernel
  have hobject : ObjectAt stringIdToks 0 ⟨.object,0,61⟩ stringIdMembers [] := by
    rw [htoks]
    exact stringId_object
  have hinner : innerStringToks.drop 1 = tokensOf [innerStringTree] := by decide +kernel
  have hshaped : Shaped innerStringTree := by
    refine .array _ _ rfl (fun c hc => ?_)
    simp only [List.mem_cons,List.not_mem_nil,or_false] at hc
    rcases hc with rfl | rfl
    · exact .object _ [] rfl (by simp) (by simp)
    · exact .leaf _ (.inl rfl)
  obtain ⟨hbounds,hkey,-⟩ := dispatch_in_bounds stringIdToks stringIdJson plainSetting ⟨{},⟨some [],some [],none⟩⟩
  obtain ⟨-,-,hother⟩ := dispatch_in_bounds innerStringToks innerStringJson plainSetting ⟨{},⟨some [],some [],none⟩⟩
  have hlast : ¬ ElementKey stringIdToks stringIdJson 0 (stringIdToks.length - 1) := by
    rw [hkey 0 _ _ _ hobject]
    simp [readOn]
  have hhead : stringIdToks.head? = some (rootToken stringIdTree) := by rw [htoks]; rfl
  refine ⟨by decide +kernel,hbounds.mpr ⟨?_,?_⟩,hobject,hlast,by decide +kernel,hinner,?_⟩
  · intro first hfirst _
    obtain rfl := Option.some.inj (hhead.symm.trans hfirst)
    rfl
  · rintro i ⟨first,hfirst,-,hi⟩
    obtain rfl := Option.some.inj (hhead.symm.trans hfirst)
    obtain rfl : i = 0 := hi
    exact hlast
  · exact hother 1 _ [] hshaped hinner (by decide)

/-- A key without a value, a well-formed batch with a string behind an object, and a string with
a value outside of an object. -/
def bareKeyJson : List UInt8 := ascii "\x7b\"a\"\x7d"
def trailingStringJson : List UInt8 := ascii "[\x7b\x7d,\"a\"]"
def loosePairJson : List UInt8 := ascii "\"a\":\"b\""

/-- How a text is dispatched, if it is one for the tokenizer. -/
def dispatchText (json : List UInt8) : Option (Except Crash Unit) :=
  (parseTokens json).map (fun toks =>
    (dispatchRequest (methodHandlers plainSetting toks json) toks json ⟨{},⟨some [],some [],none⟩⟩).map (fun _ => ()))

theorem tokens_read_past_end : dispatchText bareKeyJson = some (.error (.tokenIndex 2)) ∧
    (parseTokens bareKeyJson).map List.length = some 2 ∧
    dispatchText trailingStringJson = some (.error (.tokenIndex 3)) ∧
    (parseTokens trailingStringJson).map List.length = some 3 ∧
    dispatchText loosePairJson = some (.error (.notContainer 0)) := by
  refine ⟨?_,?_,?_,?_,?_⟩ <;> decide +kernel

end Samples
end Lightsd.Core.Jsonrpc
