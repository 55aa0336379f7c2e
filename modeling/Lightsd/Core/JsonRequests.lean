import Lightsd.Core.JsonSchema

/-! # Requests

The members of a request object, and the number of tokens that the request is taken to
have. That number is not the one of the tokens that were walked over, it is made up of the
members that a request usually has.
-/
namespace Lightsd.Core.Jsonrpc

inductive RequestField
  | method | params | id
  deriving DecidableEq

def requestSchema : List (Node RequestField) :=
  [⟨ascii "jsonrpc",none,none,typeString,false⟩,
   ⟨ascii "method",some .method,none,typeString,false⟩,
   ⟨ascii "params",some .params,some .params,typeObjectOrArray,true⟩,
   ⟨ascii "id",some .id,none,typeStringNumberOrNull,true⟩]

/-- The tokens of a request, by their indices. -/
structure Request where
  method : Option ℕ := none
  params : Option ℕ := none
  paramsNtokens : ℕ := 0
  id : Option ℕ := none
  requestNtokens : ℕ := 0
  deriving DecidableEq

def Request.ofOutput (out : Output RequestField) : Request where
  method := out.value .method
  params := out.value .params
  paramsNtokens := out.ntokens .params
  id := out.value .id

/-- The object itself, its version and its method, and the parameters and the id if there
are any. -/
def Request.ntokens (req : Request) : ℕ :=
  1 + 2 + 2 + (if req.params.isSome then 1 + req.paramsNtokens else 0) + (if req.id.isSome then 2 else 0)

/-- The members found so far are there even if the request is rejected. -/
def checkAndExtractRequest (toks : List Token) (json : List UInt8) (base ntokens : ℕ) :
    Except Crash (Bool × Request) := do
  let (ok,out) ← extractFromDict requestSchema toks json {} base ntokens
  let req := Request.ofOutput out
  if !ok then .ok (false,req) else .ok (true,{ req with requestNtokens := req.ntokens })

/-- A request from the result of the walk over its members. -/
def Request.ofResult (r : Bool × Output RequestField) : Bool × Request :=
  (r.1,if r.1 then { Request.ofOutput r.2 with requestNtokens := (Request.ofOutput r.2).ntokens }
    else Request.ofOutput r.2)

theorem checkAndExtractRequest_eq (toks : List Token) (json : List UInt8) (base ntokens : ℕ) :
    checkAndExtractRequest toks json base ntokens =
      (extractFromDict requestSchema toks json {} base ntokens).map Request.ofResult := by
  unfold checkAndExtractRequest
  cases extractFromDict requestSchema toks json {} base ntokens with
  | error e => rfl
  | ok r =>
    obtain ⟨ok,out⟩ := r
    cases ok <;> rfl

theorem ofResult_value (r : Bool × Output RequestField) :
    (Request.ofResult r).2.method = r.2.value .method ∧ (Request.ofResult r).2.params = r.2.value .params ∧
      (Request.ofResult r).2.id = r.2.value .id := by
  unfold Request.ofResult
  split <;> exact ⟨rfl,rfl,rfl⟩

theorem ofResult_paramsNtokens (r : Bool × Output RequestField) :
    (Request.ofResult r).2.paramsNtokens = r.2.ntokens .params := by
  unfold Request.ofResult
  split <;> rfl

end Lightsd.Core.Jsonrpc
