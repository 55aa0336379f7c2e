import Lightsd.Core.Jsmn

/-! # Clients

The read callback of a client tokenizes what is in the first chain of its input buffer,
first to count the tokens and then to fill an array of that size, calls the dispatcher,
removes the value that came first and goes on with the rest of the chain. When a chain is
used up, or does not hold a whole value, the buffer is pulled up into a single chain. The
token array is kept across that.
-/
namespace Lightsd.Core

open Jsmn

def maxRequestBufSize : ℕ := 4096

/-- A call of the dispatcher: how many bytes of the connection come before the one that
`client->json` points at, the bytes there that have been tokenized, and their tokens. -/
structure DispatchCall where
  offset : ℕ
  json : List UInt8
  tokens : List Token
  deriving DecidableEq

structure Client where
  input : List UInt8 := []
  drained : ℕ := 0
  calls : List DispatchCall := []
  deriving DecidableEq

namespace Client

def drain (c : Client) (n : ℕ) : Client :=
  { c with input := c.input.drop n, drained := c.drained + min n c.input.length }

def dispatchRequest (c : Client) (nbytes : ℕ) (tokens : List Token) : Client :=
  { c with calls := c.calls ++ [⟨c.drained,c.input.take nbytes,tokens⟩] }

/-- Where the first value ends. -/
def requestSize (p : Parser) : ℕ := ((p.tokens.head?.map Token.stop).getD 0).toNat

/-- How a round of the loop of the read callback ends: the callback returns, or there is
another round with some number of bytes in sight and a token array of some size, if any. -/
inductive Round
  | done (c : Client)
  | again (c : Client) (nbytes : ℕ) (tokens : Option ℕ)

/-- Pull up the whole buffer and go on if there is anything in it. -/
def resume (c : Client) (tokens : Option ℕ) : Round :=
  if c.input = [] then .done c else .again c c.input.length tokens

/-- There is no whole value in sight. -/
def waitForMore (c : Client) (nbytes : ℕ) (tokens : Option ℕ) : Round :=
  if maxRequestBufSize < c.input.length then (c.drain c.input.length).resume tokens
  else if nbytes = c.input.length then .done c
  else c.resume tokens

def dispatchAndDrain (c : Client) (nbytes : ℕ) (p : Parser) : Round :=
  let c := (c.dispatchRequest nbytes p.tokens).drain (requestSize p)
  if requestSize p < nbytes then .again c (nbytes - requestSize p) none else c.resume none

def readRound (c : Client) (nbytes : ℕ) (tokens : Option ℕ) : Round :=
  match parse (c.input.take nbytes) tokens with
  | .error .nomem => (c.drain nbytes).resume tokens
  | .error .inval => (c.drain nbytes).resume tokens
  | .error .part => c.waitForMore nbytes tokens
  | .ok p =>
    if p.count = 0 then c.waitForMore nbytes tokens
    else match tokens with
      | none => .again c nbytes (some p.count)
      | some _ => c.dispatchAndDrain nbytes p

/-- The rounds of the read callback. Each leaves less work for the next one, so the fuel
that the callback starts with does not run out. -/
def readLoop : ℕ → Client → ℕ → Option ℕ → Option Client
  | 0, _, _, _ => none
  | fuel + 1, c, nbytes, tokens =>
    match c.readRound nbytes tokens with
    | .done c => some c
    | .again c nbytes tokens => readLoop fuel c nbytes tokens

def readFuel (c : Client) : ℕ := 4 * c.input.length + 4

/-- The read callback, with the length of the first chain of the input buffer. -/
def readCallback (c : Client) (nbytes : ℕ) : Client := (readLoop c.readFuel c nbytes none).getD c

end Client
end Lightsd.Core
