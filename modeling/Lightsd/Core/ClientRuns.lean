import Lightsd.Core.ClientArrivals
import Lightsd.Library.Runs

/-! # Dispatching over a whole connection

Bytes of a sequence of values arrive in pieces and are found in chains of any length. If
every callback finds the buffer in favourable places, each value is dispatched in the
callback that finds it whole, and only there. A chain that ends inside a value, after a
colon, is not favourable: the token array for the chain is too small for the value, and
the whole buffer is thrown away.
-/
namespace Lightsd.Core

open OrderedTree Jsmn Json Json.Stream Runs

/-- Bytes arrive, and then the read callback runs and finds a first chain of some length. -/
structure Arrival where
  bytes : List UInt8
  firstChain : ℕ

namespace Client

def receive (c : Client) (bytes : List UInt8) : Client := { c with input := c.input ++ bytes }

def reader (stream : List UInt8) : System Client Arrival where
  enabled c a := c.input ++ a.bytes <+: stream.drop c.drained ∧ 0 < a.firstChain ∧
    a.firstChain ≤ (c.input ++ a.bytes).length
  step c a := (c.receive a.bytes).readCallback a.firstChain

instance (stream : List UInt8) (c : Client) (a : Arrival) : Decidable ((reader stream).enabled c a) :=
  inferInstanceAs (Decidable (_ ∧ _ ∧ _))

/-- The dispatcher has been called once for each value that is whole among the bytes that
have arrived, in order, with `client->json` at the white space before the value. -/
def DispatchedOnce (segs : Stream) (c : Client) : Prop :=
  c.calls.map DispatchCall.offset = offsets 0 (completed (c.drained + c.input.length) segs)

instance (segs : Stream) (c : Client) : Decidable (DispatchedOnce segs c) :=
  inferInstanceAs (Decidable (_ = _))

/-- Some first values have been dispatched and removed, and none of those that follow has
arrived as a whole. -/
structure UpToDate (segs : Stream) (c : Client) (seen rest : Stream) : Prop where
  split : segs = seen ++ rest
  calls : c.calls.map DispatchCall.offset = offsets 0 seen
  drained : c.drained = seen.text.length
  waiting : completed c.input.length rest = []

namespace UpToDate

variable {segs seen rest : Stream} {c r : Client} {bytes : List UInt8}

theorem initial (hsegs : segs.Containers) : UpToDate segs {} [] segs where
  split := rfl
  calls := rfl
  drained := rfl
  waiting := by
    cases segs with
    | nil => rfl
    | cons seg segs =>
      obtain ⟨space,value⟩ := seg
      obtain ⟨-,-,hcontainer⟩ := hsegs _ List.mem_cons_self
      obtain ⟨-,b,bs,htext,-⟩ := hcontainer.text_node
      simp only at htext
      simp [completed,htext]

theorem dispatchedOnce (h : UpToDate segs c seen rest) : DispatchedOnce segs c := by
  rw [DispatchedOnce,h.calls,h.drained,h.split,completed_append,h.waiting,List.append_nil]

theorem rest_eq (h : UpToDate segs c seen rest) : segs.drop c.calls.length = rest := by
  have hlen : c.calls.length = seen.length := by
    simpa [offsets_length] using congrArg List.length h.calls
  rw [hlen,h.split,List.drop_left]

/-- The callback has dispatched what has become whole. -/
theorem advance (h : UpToDate segs c seen rest)
    (hadv : Advanced (c.receive bytes) (completed (c.input ++ bytes).length rest) r) :
    ∃ seen' rest', UpToDate segs r seen' rest' := by
  obtain ⟨rest',hrest⟩ := exists_completed_append (c.input ++ bytes).length rest
  have hin : c.input ++ bytes = (completed (c.input ++ bytes).length rest).text ++ r.input := hadv.input
  have hlen := (congrArg List.length hin).trans List.length_append
  refine ⟨seen ++ completed (c.input ++ bytes).length rest,rest',?_,?_,?_,?_⟩
  · rw [List.append_assoc,← hrest,h.split]
  · rw [hadv.calls,offsets_append,Nat.zero_add]
    simp only [receive,h.calls,h.drained]
  · rw [hadv.drained,text_append]
    simp only [receive,h.drained,List.length_append]
  · have hself := completed_append r.input.length (completed (c.input ++ bytes).length rest) rest'
    rw [← hlen,← hrest] at hself
    exact List.self_eq_append_right.mp hself

end UpToDate

/-- The bytes found by the callback end in favourable places among the values that have
not been dispatched yet. -/
def FavourableArrival (segs : Stream) (c : Client) (a : Arrival) : Prop :=
  Favourable (segs.drop c.calls.length) (c.input ++ a.bytes) a.firstChain

variable {segs : Stream} {trail : List UInt8}

theorem upToDate_step (hsegs : segs.Containers) (htrail : Space trail) {c : Client} {a : Arrival}
    (h : ∃ seen rest, UpToDate segs c seen rest) (henabled : (reader (segs.text ++ trail)).enabled c a)
    (hfav : FavourableArrival segs c a) :
    ∃ seen rest, UpToDate segs ((reader (segs.text ++ trail)).step c a) seen rest := by
  obtain ⟨seen,rest,h⟩ := h
  obtain ⟨hpre,hpos,hle⟩ := henabled
  have hrest : rest.Containers := (containers_of_append (h.split ▸ hsegs)).2
  have hpre' : (c.receive a.bytes).input <+: rest.text ++ trail := by
    rwa [h.split,text_append,List.append_assoc,h.drained,List.drop_left] at hpre
  unfold FavourableArrival at hfav
  rw [h.rest_eq] at hfav
  exact h.advance (advanced_readCallback hrest htrail hpre' hpos hle hfav)

/-- In every run whose callbacks all find the buffer in favourable places, each value is
dispatched once, in order, as soon as it is whole. -/
theorem values_dispatched_once (hsegs : segs.Containers) (htrail : Space trail) {arrivals : List Arrival}
    (h : ((reader (segs.text ++ trail)).restrict (FavourableArrival segs)).Legal {} arrivals) :
    (reader (segs.text ++ trail)).Always (DispatchedOnce segs) {} arrivals := by
  have hstep : ∀ c a, (∃ seen rest, UpToDate segs c seen rest) →
      ((reader (segs.text ++ trail)).restrict (FavourableArrival segs)).enabled c a →
      ∃ seen rest, UpToDate segs ((reader (segs.text ++ trail)).step c a) seen rest :=
    fun c a hc he => upToDate_step hsegs htrail hc he.1 he.2
  have hinv := h.always hstep ⟨[],segs,.initial hsegs⟩
  intro n
  obtain ⟨seen,rest,hc⟩ := hinv n
  exact hc.dispatchedOnce

/-- The texts `{"a":1}` and `["b"]` with a blank between them. -/
def twoRequests : Stream :=
  [([],.object [] (.cons [] [97] [] [] (.primitive [49]) [] .nil)),
    ([32],.array [] (.cons [] (.string [98]) [] .nil))]

/-- They arrive in two pieces; the second callback finds the first request in a chain of
its own. -/
def twoArrivals : List Arrival := [⟨twoRequests.text.take 5,5⟩,⟨twoRequests.text.drop 5,7⟩]

theorem twoRequests_containers : twoRequests.Containers := by
  intro s hs
  simp only [twoRequests,List.mem_cons,List.not_mem_nil,or_false] at hs
  rcases hs with rfl | rfl
  · simp [Value.Valid,Members.Valid,Value.IsContainer,Space,stringChars,primitiveChars]
    decide
  · simp [Value.Valid,Items.Valid,Value.IsContainer,Space,stringChars]
    decide

theorem values_dispatched_once_twoRequests :
    (reader (twoRequests.text ++ [])).Always (DispatchedOnce twoRequests) {} twoArrivals := by
  have hstate : (reader (twoRequests.text ++ [])).step {} ⟨twoRequests.text.take 5,5⟩ =
      { input := twoRequests.text.take 5 } := by
    decide +kernel
  have hfirst : FavourableArrival twoRequests {} ⟨twoRequests.text.take 5,5⟩ :=
    ⟨by decide +kernel,Or.inr rfl,Or.inl (by decide +kernel)⟩
  have hsecond : FavourableArrival twoRequests { input := twoRequests.text.take 5 } ⟨twoRequests.text.drop 5,7⟩ :=
    ⟨by decide +kernel,Or.inl (by decide +kernel),Or.inr (Or.inl (by decide +kernel))⟩
  have hnil : Space [] := nofun
  rw [← hstate] at hsecond
  refine values_dispatched_once twoRequests_containers hnil ⟨⟨?_,hfirst⟩,⟨?_,hsecond⟩,trivial⟩
  · decide +kernel
  · decide +kernel

/-- The text `{"a":"b"}`. -/
def oneRequest : Stream := [([],.object [] (.cons [] [97] [] [] (.string [98]) [] .nil))]

/-- It arrives at once, in two chains of which the first ends after the colon. The token
array for the first chain has two entries and the request three tokens, so the request is
thrown away and never dispatched. -/
theorem value_lost_oneRequest :
    oneRequest.Containers ∧ oneRequest.text.length ≤ maxRequestBufSize ∧
    (reader oneRequest.text).Legal {} [⟨oneRequest.text,5⟩] ∧
    ((reader oneRequest.text).exec {} [⟨oneRequest.text,5⟩]).calls = [] ∧
    ((reader oneRequest.text).exec {} [⟨oneRequest.text,5⟩]).input = [] ∧
    ¬ (reader oneRequest.text).Always (DispatchedOnce oneRequest) {} [⟨oneRequest.text,5⟩] := by
  refine ⟨?_,by decide +kernel,by decide +kernel,by decide +kernel,by decide +kernel,by decide +kernel⟩
  intro s hs
  simp only [oneRequest,List.mem_cons,List.not_mem_nil,or_false] at hs
  subst hs
  simp [Value.Valid,Members.Valid,Value.IsContainer,Space,stringChars]

end Client
end Lightsd.Core
