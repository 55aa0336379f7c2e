import Lightsd.Core.JsonHandlers
import Lightsd.Core.BatchParts

/-! # How handlers fail

A handler can fail where it reads the tokens of its parameters, at a null pointer, at an
assertion of the command it runs, and where it prints the address of the client. Reading
tokens is the only one of these that depends on what the tokens are.
-/
namespace Lightsd.Core.Jsonrpc

open Lifx

def paramSchemas : List (List (Node ParamField)) :=
  [setLightFromHsbkSchema,setWaveformSchema,targetSchema,targetLabelSchema]

section Failures
variable (p : Crash → Bool) (toks : List Token) (json : List UInt8)

/-- Reading the parameters of a request fails in certain ways only. -/
structure Readable (request : Request) : Prop where
  params : ∀ schema ∈ paramSchemas,
    Fails p (extractAndValidateParams schema toks json request.params request.paramsNtokens)
  fields : ∀ schema ∈ paramSchemas, ∀ out,
    extractAndValidateParams schema toks json request.params request.paramsNtokens = .ok (true,out) →
    ∀ f i, out.value f = some i → Fails p (readToken toks i)
  targets : ∀ schema ∈ paramSchemas, ∀ out,
    extractAndValidateParams schema toks json request.params request.paramsNtokens = .ok (true,out) →
    ∀ target, out.value .target = some target → ∀ c, Fails p (buildTargetList toks json c target (out.ntokens .target))

variable {p toks json} {set : Setting} {request : Request} {s : Session Daemon} {out : Output ParamField}

/-- What is left to read when the parameters have been found by a table. -/
structure Found (p : Crash → Bool) (toks : List Token) (json : List UInt8) (out : Output ParamField) : Prop where
  fields : ∀ f i, out.value f = some i → Fails p (readToken toks i)
  targets : ∀ target, out.value .target = some target →
    ∀ c, Fails p (buildTargetList toks json c target (out.ntokens .target))

theorem paramToken_fails (hnull : p .nullToken = true) (h : Found p toks json out) (f : ParamField) :
    Fails p (paramToken toks out f) := by
  unfold paramToken
  cases hf : out.value f with
  | none => exact fails_error hnull
  | some i => exact h.fields f i hf

theorem floatParam_fails (hnull : p .nullToken = true) (hassert : p .assertion = true) (h : Found p toks json out)
    (f : ParamField) (stop : ℤ) : Fails p (floatParam toks json out f stop) :=
  (paramToken_fails hnull h f).bind (fun _ _ => .ite (fun _ => fails_error hassert) (fun _ => fails_ok _))

theorem intParam_fails (hnull : p .nullToken = true) (h : Found p toks json out) (f : ParamField) :
    Fails p (intParam toks json out f) :=
  (paramToken_fails hnull h f).bind (fun _ _ => fails_ok _)

theorem withTargets_fails (hnull : p .nullToken = true) (h : Found p toks json out)
    {k : List TargetName → Handler Daemon} (hk : ∀ targets, Fails p (k targets s)) :
    Fails p (s.withTargets toks json out k) := by
  unfold Session.withTargets
  cases htarget : out.value .target with
  | none => exact fails_error hnull
  | some target =>
    refine (h.targets target htarget s.caller).bind (fun r _ => ?_)
    obtain ⟨caller,targets⟩ := r
    cases targets with
    | none => exact fails_ok _
    | some targets => exact hk targets

/-- A handler begins with the extraction of its parameters. -/
theorem extractParams_fails (h : Readable p toks json request) (hc : s.caller.currentRequest = some request)
    {schema : List (Node ParamField)} (hschema : schema ∈ paramSchemas)
    {f : Bool × Output ParamField → Except Crash (Session Daemon)} (hno : ∀ out, Fails p (f (false,out)))
    (hyes : ∀ out, Found p toks json out → Fails p (f (true,out))) :
    Fails p (s.extractParams toks json schema >>= f) := by
  simp only [Session.extractParams,hc]
  refine (h.params schema hschema).bind (fun r hr => ?_)
  obtain ⟨ok,out⟩ := r
  cases ok with
  | false => exact hno out
  | true => exact hyes out ⟨h.fields schema hschema out hr,h.targets schema hschema out hr⟩

theorem targetsOnly_fails (hnull : p .nullToken = true) (h : Readable p toks json request)
    (hc : s.caller.currentRequest = some request) {k : List TargetName → Handler Daemon}
    (hk : ∀ targets, Fails p (k targets s)) : Fails p (checkAndCallTargetsOnly toks json k s) :=
  extractParams_fails h hc (by simp [paramSchemas]) (fun _ => fails_ok _)
    (fun _ hfound => withTargets_fails hnull hfound hk)

theorem setLightFromHsbk_fails (hnull : p .nullToken = true) (hassert : p .assertion = true)
    (h : Readable p toks json request) (hc : s.caller.currentRequest = some request) :
    Fails p (checkAndCallSetLightFromHsbk set toks json s) := by
  refine extractParams_fails h hc (by simp [paramSchemas]) (fun _ => fails_ok _) (fun out hfound => ?_)
  have hfloat := floatParam_fails hnull hassert hfound
  have hint := intParam_fails hnull hfound
  have htransition : Fails p (transitionParam toks json out) := .ite (fun _ => hint _) (fun _ => fails_ok _)
  refine (hfloat _ _).bind (fun _ _ => (hfloat _ _).bind (fun _ _ => (hfloat _ _).bind (fun _ _ => ?_)))
  refine (hint _).bind (fun _ _ => .ite (fun _ => fails_ok _) (fun _ => htransition.bind (fun _ _ => ?_)))
  refine .ite (fun _ => fails_ok _) (fun _ => withTargets_fails hnull hfound (fun _ => ?_))
  exact .ite (fun _ => fails_error hassert) (fun _ => fails_ok _)

theorem setWaveform_fails (hnull : p .nullToken = true) (hassert : p .assertion = true)
    (h : Readable p toks json request) (hc : s.caller.currentRequest = some request) :
    Fails p (checkAndCallSetWaveform set toks json s) := by
  refine extractParams_fails h hc (by simp [paramSchemas]) (fun _ => fails_ok _) (fun out hfound => ?_)
  have hfloat := floatParam_fails hnull hassert hfound
  have hint := intParam_fails hnull hfound
  have htransient : Fails p (transientParam toks json out) :=
    .ite (fun _ => (paramToken_fails hnull hfound _).bind (fun _ _ => fails_ok _)) (fun _ => fails_ok _)
  refine (paramToken_fails hnull hfound _).bind (fun _ _ => .ite (fun _ => fails_ok _) (fun _ => ?_))
  refine (hfloat _ _).bind (fun _ _ => (hfloat _ _).bind (fun _ _ => (hfloat _ _).bind (fun _ _ => ?_)))
  refine (hint _).bind (fun _ _ => .ite (fun _ => fails_ok _) (fun _ => ?_))
  refine (hint _).bind (fun _ _ => .ite (fun _ => fails_ok _) (fun _ => ?_))
  refine (hint _).bind (fun _ _ => .ite (fun _ => fails_ok _) (fun _ => ?_))
  refine (hfloat _ _).bind (fun _ _ => htransient.bind (fun _ _ => withTargets_fails hnull hfound (fun _ => ?_)))
  exact .ite (fun _ => fails_error hassert) (fun _ => fails_ok _)

theorem labelled_fails (hnull : p .nullToken = true) (h : Readable p toks json request)
    (hc : s.caller.currentRequest = some request) (cmd : List TargetName → List UInt8 → Command) :
    Fails p (checkAndCallProtoTagOrUntagOrSetLabel set toks json cmd s) := by
  refine extractParams_fails h hc (by simp [paramSchemas]) (fun _ => fails_ok _) (fun out hfound => ?_)
  apply withTargets_fails hnull hfound
  intro targets
  exact (paramToken_fails hnull hfound _).bind (fun _ _ => fails_ok _)

/-- A handler fails where its parameters are read, at a null pointer or an assertion, or at
the address of the client. -/
theorem methodHandlers_fails (hnull : p .nullToken = true) (hassert : p .assertion = true)
    (h : Readable p toks json request) (hc : s.caller.currentRequest = some request) {m : Method}
    (haddr : m = .getLightState → s.caller.addr = none → p .nullAddr = true) :
    Fails p (methodHandlers set toks json m s) := by
  cases m with
  | powerOn | powerOff | powerToggle => exact targetsOnly_fails hnull h hc (fun _ => fails_ok _)
  | setLightFromHsbk => exact setLightFromHsbk_fails hnull hassert h hc
  | setWaveform => exact setWaveform_fails hnull hassert h hc
  | getLightState =>
    refine targetsOnly_fails hnull h hc (fun targets => ?_)
    unfold getLightState
    simp only
    split
    · exact fails_error (haddr rfl ‹_›)
    · exact fails_ok _
  | tag | untag | setLabel => exact labelled_fails hnull h hc _

/-- A part fails as the handler of its method does. -/
theorem servePart_fails {W : Type} {handlers : Method → Handler W} {part : Part} {batchSent : Option ℕ} {s : Session W}
    (h : ∀ m request, part = .call m request → ∀ c, c.currentRequest = some request → c.addr = s.caller.addr →
      Fails p (handlers m ⟨s.world,c⟩)) : Fails p (servePart handlers toks json part batchSent s) := by
  cases part with
  | notObject | invalid _ | unknown _ => exact fails_ok _
  | call m request =>
    have hcall := h m request rfl
    refine Fails.bind (.ite (fun _ => ?_) (fun _ => ?_)) (fun _ _ => fails_ok _)
    · exact (hcall ((s.setRequest (some request)).setIo none).caller rfl rfl).bind (fun _ _ => fails_ok _)
    · refine (hcall ((s.setRequest (some request)).mapCaller (·.batchPrepareNextPart batchSent)).caller ?_ ?_).bind
        (fun _ _ => fails_ok _)
      · exact batchPrepareNextPart_request _ _
      · exact batchPrepareNextPart_addr _ _

theorem dispatchOne_fails {base ntokens : ℕ} {batchSent : Option ℕ}
    (hpart : Fails p (requestPart toks json base ntokens)) (hnull : p .nullToken = true) (hassert : p .assertion = true)
    (hread : ∀ m request n, requestPart toks json base ntokens = .ok (.call m request,n) →
      Readable p toks json request)
    (haddr : s.caller.addr = none → p .nullAddr = true) :
    Fails p (dispatchOne (methodHandlers set toks json) toks json base ntokens batchSent s) := by
  rw [dispatchOne_eq]
  refine hpart.bind (fun r hr => (servePart_fails ?_).bind (fun _ _ => fails_ok _))
  obtain ⟨part,n⟩ := r
  rintro m request rfl c hc hca
  exact methodHandlers_fails hnull hassert (hread m request n hr) hc (fun _ hnone => haddr (hca ▸ hnone))

end Failures

section Anywhere
variable {p : Crash → Bool} {toks : List Token} {json : List UInt8}

theorem extractAndValidateParams_fails (htok : ∀ c, c.atToken = true → p c = true) (hnull : p .nullToken = true)
    (schema : List (Node ParamField)) (base : Option ℕ) (ntokens : ℕ) :
    Fails p (extractAndValidateParams schema toks json base ntokens) := by
  unfold extractAndValidateParams
  refine .ite (fun _ => fails_ok _) (fun _ => ?_)
  cases base with
  | none => exact fails_error hnull
  | some base =>
    refine ((readToken_fails toks base).mono htok).bind (fun tok _ => ?_)
    cases htype : tok.type with
    | object => exact (extractFromDict_fails schema toks json {} base ntokens).mono htok
    | array => exact (extractFromArray_fails schema toks json {} base ntokens).mono htok
    | primitive | string => exact fails_ok _

theorem targetLoop_fails (first : ℕ) (c : Caller) (n : ℕ) (targets : List TargetName) :
    FailsAtToken (targetLoop toks json first c n targets) := by
  induction n generalizing targets with
  | zero => exact fails_ok _
  | succ n ih => exact (readToken_fails toks _).bind (fun _ _ => .ite (fun _ => ih _) (fun _ => fails_ok _))

theorem buildTargetList_fails (c : Caller) (target ntokens : ℕ) :
    FailsAtToken (buildTargetList toks json c target ntokens) := by
  refine .ite (fun _ => fails_ok _) (fun _ => (readToken_fails toks target).bind (fun tok _ => ?_))
  refine .ite (fun _ => targetLoop_fails _ _ _ _) (fun _ => ?_)
  exact .ite (fun _ => fails_ok _) (fun _ => targetLoop_fails _ _ _ _)

/-- Whatever the tokens are, the parameters are read or reading them fails at a token. -/
theorem readable_of_atToken (htok : ∀ c, c.atToken = true → p c = true) (hnull : p .nullToken = true)
    (request : Request) : Readable p toks json request where
  params _ _ := extractAndValidateParams_fails htok hnull _ _ _
  fields _ _ _ _ _ i _ := (readToken_fails toks i).mono htok
  targets _ _ _ _ target _ c := (buildTargetList_fails c target _).mono htok

end Anywhere
end Lightsd.Core.Jsonrpc
