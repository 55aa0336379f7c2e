import Lightsd.Core.Client

/-! # Command pipes

The read callback of a command pipe reads until nothing is left. After each read it
tokenizes the whole buffer, dispatches the value that comes first and goes on with the
rest as long as the tokenizer accepts it. A buffer that it does not accept is thrown away
if the text is invalid, or if it is partial and too long. When all writers are gone the
pipe is closed and opened again, with an empty buffer.
-/
namespace Lightsd.Core

open Jsmn

/-- A pipe reads into a buffer of its own and dispatches for a client of its own. -/
abbrev Pipe := Client

/-- What `evbuffer_read` reports; a read of no bytes means that all writers are gone. -/
inductive ReadResult
  | bytes (bs : List UInt8)
  | eof
  | eintr
  | eagain
  | error
  deriving DecidableEq

namespace Pipe

def drainAll (p : Pipe) : Pipe := p.drain p.input.length

/-- The tokenizer found no value, or a partial one. -/
def keepOrDrain (p : Pipe) : Pipe := if maxRequestBufSize ≤ p.input.length then p.drainAll else p

/-- The requests in the buffer are parsed and dispatched. Each round removes a request, so
fuel for as many rounds as there are bytes is enough. -/
def serveRequests : ℕ → Pipe → Pipe
  | 0, p => p
  | fuel + 1, p =>
    match parse p.input none with
    | .error .part => p.keepOrDrain
    | .error _ => p.drainAll
    | .ok counted =>
      if counted.count = 0 then p.keepOrDrain
      else match parse p.input (some counted.count) with
        | .error .part => p.keepOrDrain
        | .error _ => p.drainAll
        | .ok filled =>
          if filled.count = 0 then p.keepOrDrain
          else
            let p' := (p.dispatchRequest p.input.length filled.tokens).drain (Client.requestSize filled)
            if p.input.length ≤ Client.requestSize filled then p' else serveRequests fuel p'

/-- A round of the loop of the read callback that has read something. -/
def readBytes (p : Pipe) (bs : List UInt8) : Pipe :=
  let p : Pipe := { p with input := p.input ++ bs }
  serveRequests p.input.length p

/-- The pipe is closed and opened again, and what was left in the buffer is lost. -/
def reset (p : Pipe) : Pipe := p.drainAll

/-- The read callback, with what the successive reads report. It returns when there is
nothing more to read for now. -/
def readCallback (p : Pipe) : List ReadResult → Pipe
  | [] => p
  | .bytes bs :: rs => readCallback (p.readBytes bs) rs
  | .eintr :: rs => readCallback p rs
  | .eagain :: _ => p
  | .eof :: _ => p.reset
  | .error :: _ => p.reset

end Pipe
end Lightsd.Core
