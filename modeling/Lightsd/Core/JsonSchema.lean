import Lightsd.Core.JsonTypes
import Lightsd.Library.IndexLoop

/-! # Values by schema

The walk over the members of an object, and over the elements of an array, that fills in
a record by a table of keys and types. Tokens are named by their index in the array of
parsed tokens. Reading past the end of that array, failing an assertion and following a
null pointer are the ways in which a request can stop the daemon; nothing is said about
what happens then.
-/
namespace Lightsd.Core.Jsonrpc

open IndexLoop

/-- What stops the daemon. That a loop does not come to an end is among it, and will not
be found to happen. -/
inductive Crash
  | tokenIndex (i : ℕ)
  | notContainer (i : ℕ)
  | pastEnd (i : ℕ)
  | nullToken
  | nullAddr
  | assertion
  | endless
  deriving DecidableEq

def readToken (toks : List Token) (i : ℕ) : Except Crash Token :=
  match toks[i]? with
  | some t => .ok t
  | none => .error (.tokenIndex i)

def isContainer (t : Token) : Bool := t.type = .object || t.type = .array

/-- The index behind a value, where a container is passed with the given function. -/
def passValue (consume : ℕ → Except Crash ℕ) (toks : List Token) (ti : ℕ) : Except Crash ℕ := do
  let tok ← readToken toks ti
  if isContainer tok then consume ti else .ok (ti + 1)

/-- The loop over the entries of a container. The key of a member is passed without a look. -/
def consumeEntries (consume : ℕ → Except Crash ℕ) (toks : List Token) (type : TokenType) (parsed : ℕ) :
    ℕ → ℕ → Except Crash ℕ
  | 0, ti => .ok ti
  | objsize + 1, ti =>
    if ti < parsed then do
      let ti ← passValue consume toks (if type = .object then ti + 1 else ti)
      consumeEntries consume toks type parsed objsize ti
    else .ok ti

def consumeFuel (toks : List Token) (parsed : ℕ) : ℕ → ℕ → Except Crash ℕ
  | 0, _ => .error .endless
  | fuel + 1, ti => do
    let tok ← readToken toks ti
    if !isContainer tok then .error (.notContainer ti)
    else if parsed ≤ ti then .error (.pastEnd ti)
    else consumeEntries (consumeFuel toks parsed fuel) toks tok.type parsed tok.size (ti + 1)

/-- The index behind an object or an array. A container lies below the one it is in, so the
calls are nested no deeper than there are tokens left. -/
def consumeObjectOrArray (toks : List Token) (ti parsed : ℕ) : Except Crash ℕ :=
  consumeFuel toks parsed (parsed - ti + 1) ti

/-- A row of a table of parameters. The offsets are the fields of the record that is filled
in, or none where the source has -1. -/
structure Node (φ : Type) where
  key : List UInt8
  valueOffset : Option φ
  ntokensOffset : Option φ
  typeCmp : TypeCmp
  optional : Bool

/-- The record that is filled in: the indices of tokens, or null, and numbers of tokens. -/
structure Output (φ : Type) where
  value : φ → Option ℕ := fun _ => none
  ntokens : φ → ℕ := fun _ => 0

section Extraction
variable {φ : Type} [DecidableEq φ]

namespace Output

def setValue (out : Output φ) (offset : Option φ) (ti : ℕ) : Output φ :=
  match offset with
  | some f => { out with value := Function.update out.value f (some ti) }
  | none => out

def setNtokens (out : Output φ) (offset : Option φ) (n : ℕ) : Output φ :=
  match offset with
  | some f => { out with ntokens := Function.update out.ntokens f n }
  | none => out

/-- Whether the field of a row has been filled in. -/
def seen (out : Output φ) (offset : Option φ) : Bool :=
  match offset with
  | some f => (out.value f).isSome
  | none => false

end Output

variable (schema : List (Node φ)) (toks : List Token) (json : List UInt8)

def skipValue (ti limit : ℕ) : Except Crash ℕ := passValue (consumeObjectOrArray toks · limit) toks ti

/-- The row for a key. -/
def findNode (key : Token) : Option (Node φ) := schema.find? (fun node => node.key = tokenText json key)

/-- One round of the walk over the members of an object. It ends with a verdict, and with
what has been filled in so far. -/
def dictBody (limit ti : ℕ) (out : Output φ) :
    Except Crash (Step (Output φ) (Bool × Output φ)) := do
  let key ← readToken toks ti
  if key.type ≠ .string then .ok (.done (true,out))
  else match findNode schema json key with
    | none => do
      let next ← skipValue toks (ti + 1) limit
      .ok (.next next out)
    | some node => do
      let value ← readToken toks (ti + 1)
      if !node.typeCmp value json then .ok (.done (false,out))
      else if out.seen node.valueOffset then .ok (.done (false,out))
      else do
        let out := out.setValue node.valueOffset (ti + 1)
        let next ← skipValue toks (ti + 1) limit
        .ok (.next next (out.setNtokens node.ntokensOffset (next - (ti + 1))))

/-- Every required row with a field has been filled in. -/
def complete (out : Output φ) : Bool :=
  schema.all (fun node => node.optional || node.valueOffset.isNone || out.seen node.valueOffset)

/-- The walk ends at the first token that is no string, or at the end of the tokens it was
given. -/
def extractFromDict (out : Output φ) (base ntokens : ℕ) : Except Crash (Bool × Output φ) := do
  if ntokens = 0 then .ok (false,out)
  else
    let tok ← readToken toks base
    if tok.type ≠ .object then .ok (false,out)
    else
      let (ok,out) ← loop (dictBody schema toks json (base + ntokens)) (true,·) .endless
        (base + ntokens) (base + 1) out
      .ok (ok && complete schema out,out)

/-- The walk over the elements of an array, row by row. The number of elements left is
decremented once more when it is tested and found to be zero. -/
def arrayLoop (limit : ℕ) : List (Node φ) → ℕ → ℕ → Output φ → Except Crash (Bool × Output φ)
  | [], _, objsize, out => .ok (objsize = 0,out)
  | node :: nodes, ti, objsize, out =>
    if ti < limit then
      match objsize with
      | 0 => .ok (node.optional,out)
      | objsize + 1 => do
        let value ← readToken toks ti
        if !node.typeCmp value json then .ok (false,out)
        else do
          let out := out.setValue node.valueOffset ti
          let next ← skipValue toks ti limit
          arrayLoop limit nodes next objsize (out.setNtokens node.ntokensOffset (next - ti))
    else .ok (objsize = 0 || node.optional,out)

def extractFromArray (out : Output φ) (base ntokens : ℕ) : Except Crash (Bool × Output φ) := do
  if ntokens = 0 then .ok (false,out)
  else
    let tok ← readToken toks base
    if tok.type ≠ .array then .ok (false,out)
    else arrayLoop toks json (base + ntokens) schema (base + 1) tok.size out

/-- Without parameters, all of them have to be optional. -/
def extractAndValidateParams (base : Option ℕ) (ntokens : ℕ) : Except Crash (Bool × Output φ) := do
  if ntokens = 0 then .ok (schema.all Node.optional,{})
  else match base with
    | none => .error .nullToken
    | some base => do
      let tok ← readToken toks base
      match tok.type with
      | .object => extractFromDict schema toks json {} base ntokens
      | .array => extractFromArray schema toks json {} base ntokens
      | _ => .ok (false,{})

end Extraction
end Lightsd.Core.Jsonrpc
