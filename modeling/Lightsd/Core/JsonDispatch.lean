import Lightsd.Core.JsonRequests
import Lightsd.Lifx.State

/-! # Dispatching requests

A request is checked, its method is looked up and the handler of the method is called, for
one object or for each element of a batch. Answers go to the connection of the caller, if
there is one; a notification is handled with the connection taken away for a while. The
number of answers of a batch, counted before they are written, decides on brackets and
commas. The handlers are a parameter here, and so is the state they work on.
-/
namespace Lightsd.Core.Jsonrpc

open IndexLoop

/-- The fields of a client that the dispatcher and the handlers use. Of the connection, if
it is not null, there is what has been written to it. -/
structure Caller where
  io : Option (List UInt8) := none
  addr : Option Lifx.SockAddr := none
  currentRequest : Option Request := none
  deriving DecidableEq

inductive ErrorCode
  | invalidRequest | methodNotFound | invalidParams | internalError
  deriving DecidableEq

def ErrorCode.text : ErrorCode → List UInt8
  | .invalidRequest => ascii "-32600"
  | .methodNotFound => ascii "-32601"
  | .invalidParams => ascii "-32602"
  | .internalError => ascii "-32603"

section Answers
variable (toks : List Token) (json : List UInt8)

/-- The id of a request as it was written, with the quotes of a string. -/
def idText (request : Option Request) : List UInt8 :=
  match request.bind Request.id with
  | none => ascii "null"
  | some i =>
    match toks[i]? with
    | none => []
    | some t => if t.type = .string then (json.drop (t.start - 1)).take (tokenLen t + 2) else tokenText json t

def errorText (request : Option Request) (code : ErrorCode) (message : String) : List UInt8 :=
  ascii "\x7b\"jsonrpc\": \"2.0\", \"id\": " ++ idText toks json request ++ ascii ", \"error\": \x7b\"code\": " ++
    code.text ++ ascii ", \"message\": \"" ++ ascii message ++ ascii "\"\x7d\x7d"

/-- The beginning of an answer with a result. -/
def responseStart (request : Option Request) : List UInt8 :=
  ascii "\x7b\"jsonrpc\": \"2.0\", \"id\": " ++ idText toks json request ++ ascii ", \"result\": "

def responseText (request : Option Request) (result : List UInt8) : List UInt8 :=
  responseStart toks json request ++ result ++ ascii "\x7d"

namespace Caller

/-- Without a connection nothing is written. -/
def write (c : Caller) (text : List UInt8) : Caller := { c with io := c.io.map (· ++ text) }

def sendError (c : Caller) (code : ErrorCode) (message : String) : Caller :=
  c.write (errorText toks json c.currentRequest code message)

def sendResponse (c : Caller) (result : List UInt8) : Caller :=
  c.write (responseText toks json c.currentRequest result)

/-- What comes before an answer, by the number of answers that this one makes. -/
def batchPrepareNextPart (c : Caller) : Option ℕ → Caller
  | none | some 0 => c
  | some 1 => c.write (ascii "[")
  | some _ => c.write (ascii ",")

end Caller
end Answers

inductive Method
  | powerOn | powerOff | powerToggle | setLightFromHsbk | setWaveform | getLightState | tag | untag | setLabel
  deriving DecidableEq

def methods : List (List UInt8 × Method) :=
  [(ascii "power_on",.powerOn),(ascii "power_off",.powerOff),(ascii "power_toggle",.powerToggle),
   (ascii "set_light_from_hsbk",.setLightFromHsbk),(ascii "set_waveform",.setWaveform),
   (ascii "get_light_state",.getLightState),(ascii "tag",.tag),(ascii "untag",.untag),
   (ascii "set_label",.setLabel)]

def lookupMethod (name : List UInt8) : Option Method := (methods.find? (fun m => m.1 = name)).map Prod.snd

/-- What a handler works on: the state of the daemon and the client. -/
structure Session (W : Type) where
  world : W
  caller : Caller

abbrev Handler (W : Type) := Session W → Except Crash (Session W)

section Dispatch
variable {W : Type} (handlers : Method → Handler W) (toks : List Token) (json : List UInt8)

namespace Session

def mapCaller (s : Session W) (f : Caller → Caller) : Session W := { s with caller := f s.caller }

def setRequest (s : Session W) (request : Option Request) : Session W :=
  s.mapCaller (fun c => { c with currentRequest := request })

def setIo (s : Session W) (io : Option (List UInt8)) : Session W := s.mapCaller (fun c => { c with io := io })

/-- The error path of the dispatcher. -/
def refuse (s : Session W) (batchSent : Option ℕ) (code : ErrorCode) (message : String) : Session W :=
  s.mapCaller (fun c => (c.batchPrepareNextPart batchSent).sendError toks json code message)

end Session

/-- The method of a request that has been accepted, if there is one of that name. -/
def requestMethod (request : Request) : Except Crash (Option Method) :=
  match request.method with
  | none => .error .assertion
  | some i => do
    let tok ← readToken toks i
    .ok (lookupMethod (tokenText json tok))

/-- The call of a handler. A notification gets no connection to answer to, and is not
counted. -/
def callMethod (m : Method) (request : Request) (batchSent : Option ℕ) (s : Session W) :
    Except Crash (Session W × Option ℕ) :=
  if request.id.isNone then do
    let s' ← handlers m (s.setIo none)
    .ok (s'.setIo s.caller.io,batchSent.map (· - 1))
  else do
    let s' ← handlers m (s.mapCaller (·.batchPrepareNextPart batchSent))
    .ok (s',batchSent)

/-- The state after a request, the number of answers so far and the number of tokens that
the request is taken to have. -/
def dispatchOne (base ntokens : ℕ) (batchSent : Option ℕ) (s : Session W) :
    Except Crash (Session W × Option ℕ × ℕ) := do
  let batchSent := batchSent.map (· + 1)
  let (ok,request) ← checkAndExtractRequest toks json base ntokens
  let s := s.setRequest (some request)
  if !ok then
    let next ← consumeObjectOrArray toks base (base + ntokens)
    .ok ((s.refuse toks json batchSent .invalidRequest "Invalid request").setRequest none,batchSent,next - base)
  else
    match ← requestMethod toks json request with
    | none =>
      .ok ((s.refuse toks json batchSent .methodNotFound "Method not found").setRequest none,batchSent,
        request.requestNtokens)
    | some m =>
      let (s,batchSent) ← callMethod handlers m request batchSent s
      .ok (s.setRequest none,batchSent,request.requestNtokens)

/-- One round of the loop over a batch. An element that is no object is refused. -/
def batchBody (ti : ℕ) (st : Session W × ℕ) : Except Crash (Step (Session W × ℕ) (Session W × ℕ)) := do
  let tok ← readToken toks ti
  if tok.type = .object then
    let (s,batchSent,n) ← dispatchOne handlers toks json ti (toks.length - ti) (some st.2) st.1
    .ok (.next (ti + n) (s,batchSent.getD 0))
  else
    let s := st.1.refuse toks json (some (st.2 + 1)) .invalidRequest "Invalid request"
    if tok.type = .array then
      let next ← consumeObjectOrArray toks ti toks.length
      .ok (.next next (s,st.2 + 1))
    else .ok (.next (ti + 1) (s,st.2 + 1))

def batchLoop (s : Session W) : Except Crash (Session W × ℕ) :=
  loop (batchBody handlers toks json) (fun st => st) .endless toks.length 1 (s,0)

/-- All tokens that have been parsed are passed, not only those of the first value. -/
def dispatchRequest (s : Session W) : Except Crash (Session W) :=
  match toks with
  | [] => .ok (s.refuse toks json none .invalidRequest "Invalid request")
  | tok :: _ =>
    if tok.size = 0 then .ok (s.refuse toks json none .invalidRequest "Invalid request")
    else if tok.type ≠ .array then do
      let (s,_) ← dispatchOne handlers toks json 0 toks.length none s
      .ok s
    else do
      let (s,batchSent) ← batchLoop handlers toks json s
      .ok (if batchSent = 0 then s else s.mapCaller (·.write (ascii "]")))

end Dispatch

/-- The tokens of a buffer. They are counted first, and parsed into an array of that size. -/
def parseTokens (json : List UInt8) : Option (List Token) := do
  let counted ← (Jsmn.parse json none).toOption
  let parser ← (Jsmn.parse json (some counted.count)).toOption
  some parser.tokens

end Lightsd.Core.Jsonrpc
