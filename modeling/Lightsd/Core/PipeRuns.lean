import Lightsd.Core.ClientRuns
import Lightsd.Core.PipeReads

/-! # Dispatching over the life of a command pipe

Bytes of a sequence of values are read in pieces. If every read that ends inside a value
leaves less in the buffer than a request may be long, every value is dispatched once and
none is lost. A burst of whole values that is longer than that and ends with a part of
another value is lost with all its values.
-/
namespace Lightsd.Core

open OrderedTree Jsmn Json Json.Stream Runs

namespace Json.Stream

variable {segs seen rest : Stream} {js tail dropped : List UInt8}

theorem endsBetween_append (seen rest : Stream) (js : List UInt8) :
    EndsBetween (seen ++ rest) (seen.text ++ js) ↔ EndsBetween rest js := by
  have hlen : (seen.text ++ js).length = seen.text.length + js.length := List.length_append
  unfold EndsBetween
  rw [hlen,completed_append,text_append,List.length_append,← List.drop_drop,List.drop_left]

theorem completed_tail (hsplit : segs = completed js.length segs ++ rest)
    (hjs : js = (completed js.length segs).text ++ tail) : completed tail.length rest = [] := by
  have hlen := (congrArg List.length hjs).trans List.length_append
  have hself := completed_append tail.length (completed js.length segs) rest
  rw [← hlen,← hsplit] at hself
  exact List.self_eq_append_right.mp hself

/-- White space that has been removed belongs to the white space before a value. -/
theorem exists_space_left {space buf more : List UInt8} {b : UInt8} (hdropped : Space dropped)
    (hb : isSpace b = false) (h : dropped ++ buf = space ++ b :: more) :
    ∃ space', space = dropped ++ space' ∧ buf = space' ++ b :: more := by
  rcases List.append_eq_append_iff.mp h with ⟨space',hspace,hbuf⟩ | ⟨extra,rfl,hextra⟩
  · exact ⟨space',hspace,hbuf⟩
  · cases extra with
    | nil => exact ⟨[],by simp,by simpa using hextra.symm⟩
    | cons b' extra =>
      have hspace := hdropped b' (by simp)
      rw [← (List.cons.inj hextra).1,hb] at hspace
      cases hspace

theorem not_space_of_opening : ∀ (b : UInt8) (type : TokenType), charKind b = .opening type → isSpace b = false := by
  intro b type hb
  cases hspace : isSpace b with
  | false => rfl
  | true =>
    obtain ⟨-,hkind,-⟩ := space_char b hspace
    rw [hb] at hkind
    cases hkind

theorem exists_trimmed {buf : List UInt8} (hsegs : segs.Containers) (hne : segs ≠ []) (hdropped : Space dropped)
    (h : dropped ++ buf = segs.text ++ tail) :
    ∃ segs' : Stream, segs'.Containers ∧ buf = segs'.text ++ tail ∧
      ∀ pos, starts (pos + dropped.length) segs' = starts pos segs := by
  obtain ⟨⟨space,v⟩,segs₁,rfl⟩ := List.exists_cons_of_ne_nil hne
  obtain ⟨hspace,hv,hcontainer⟩ := hsegs _ List.mem_cons_self
  simp only at hspace hv hcontainer
  obtain ⟨type,b,bs,htext,hkind,-⟩ := hcontainer.text_node
  rw [text_cons,List.append_assoc,List.append_assoc,htext,List.cons_append] at h
  obtain ⟨space',rfl,hbuf⟩ := exists_space_left hdropped (not_space_of_opening b type hkind) h
  refine ⟨(space',v) :: segs₁,?_,?_,?_⟩
  · intro s hs
    rcases List.mem_cons.mp hs with rfl | hs
    · exact ⟨fun b hb => hspace b (List.mem_append_right _ hb),hv,hcontainer⟩
    · exact hsegs s (List.mem_cons_of_mem _ hs)
  · simp [hbuf,text_cons,htext]
  · intro pos
    simp [starts,Nat.add_assoc]

end Json.Stream

namespace Pipe

variable {segs seen rest : Stream} {trail dropped bs : List UInt8} {p : Pipe}

def reader (stream : List UInt8) : System Pipe ReadResult where
  enabled p
    | .bytes bs => bs ≠ [] ∧ p.input ++ bs <+: stream.drop p.drained
    | _ => True
  step p
    | .bytes bs => p.readBytes bs
    | .eintr => p
    | .eagain => p
    | .eof => p.reset
    | .error => p.reset

/-- All that has arrived. -/
def arrived (stream : List UInt8) (p : Pipe) : List UInt8 := stream.take (p.drained + p.input.length)

/-- The values dispatched so far are the first ones of the sequence, each dispatched once
and in order; nothing but white space has been removed beside them; and if what has
arrived ends between values, all values that have arrived are dispatched. -/
def InOrder (segs : Stream) (trail : List UInt8) (p : Pipe) : Prop :=
  ∃ seen rest dropped, segs = seen ++ rest ∧ p.calls.map DispatchCall.start = starts 0 seen ∧ Space dropped ∧
    p.arrived (segs.text ++ trail) = seen.text ++ dropped ++ p.input ∧
    (segs.EndsBetween (p.arrived (segs.text ++ trail)) →
      completed (p.arrived (segs.text ++ trail)).length segs = seen)

instance (stream : List UInt8) (p : Pipe) (r : ReadResult) : Decidable ((reader stream).enabled p r) :=
  match r with
  | .bytes _ => inferInstanceAs (Decidable (_ ∧ _))
  | .eof => isTrue trivial
  | .eintr => isTrue trivial
  | .eagain => isTrue trivial
  | .error => isTrue trivial

/-- A read that ends inside a value leaves less in the buffer than a request may be long,
and the writers close the pipe between values only. -/
def FavourableRead (segs : Stream) (trail : List UInt8) (p : Pipe) : ReadResult → Prop
  | .bytes bs =>
    segs.EndsBetween ((segs.text ++ trail).take (p.drained + (p.input ++ bs).length)) ∨
      (p.input ++ bs).length < maxRequestBufSize
  | .eof => segs.EndsBetween (p.arrived (segs.text ++ trail))
  | .error => segs.EndsBetween (p.arrived (segs.text ++ trail))
  | _ => True

instance (segs : Stream) (trail : List UInt8) (p : Pipe) (r : ReadResult) :
    Decidable (FavourableRead segs trail p r) :=
  match r with
  | .bytes _ => inferInstanceAs (Decidable (_ ∨ _))
  | .eof => inferInstanceAs (Decidable (EndsBetween _ _))
  | .error => inferInstanceAs (Decidable (EndsBetween _ _))
  | .eintr => isTrue trivial
  | .eagain => isTrue trivial

structure Caught (segs : Stream) (trail : List UInt8) (p : Pipe) (seen rest : Stream) (dropped : List UInt8) :
    Prop where
  split : segs = seen ++ rest
  calls : p.calls.map DispatchCall.start = starts 0 seen
  space : Space dropped
  drained : p.drained = (seen.text ++ dropped).length
  pre : dropped ++ p.input <+: rest.text ++ trail
  waiting : rest.EndsBetween (dropped ++ p.input) → completed (dropped ++ p.input).length rest = []

namespace Caught

theorem take_eq (h : Caught segs trail p seen rest dropped) (hpre : dropped ++ bs <+: rest.text ++ trail) :
    (segs.text ++ trail).take (p.drained + bs.length) = seen.text ++ (dropped ++ bs) := by
  obtain ⟨more,hmore⟩ := hpre
  have hstream : segs.text ++ trail = (seen.text ++ (dropped ++ bs)) ++ more := by
    rw [h.split,text_append,List.append_assoc,← hmore]
    simp
  have hlen : p.drained + bs.length = (seen.text ++ (dropped ++ bs)).length := by
    rw [h.drained]
    simp [Nat.add_assoc]
  rw [hstream,hlen,List.take_left]

theorem arrived_eq (h : Caught segs trail p seen rest dropped) :
    p.arrived (segs.text ++ trail) = seen.text ++ (dropped ++ p.input) := h.take_eq h.pre

theorem inOrder (h : Caught segs trail p seen rest dropped) : InOrder segs trail p := by
  refine ⟨seen,rest,dropped,h.split,h.calls,h.space,?_,?_⟩
  · rw [h.arrived_eq,List.append_assoc]
  · rw [h.arrived_eq,h.split,endsBetween_append]
    intro hends
    have hlen : (seen.text ++ (dropped ++ p.input)).length = seen.text.length + (dropped ++ p.input).length :=
      List.length_append
    rw [hlen,completed_append,h.waiting hends,List.append_nil]

theorem receive (h : Caught segs trail p seen rest dropped)
    (hpre : p.input ++ bs <+: (segs.text ++ trail).drop p.drained) :
    dropped ++ (p.input ++ bs) <+: rest.text ++ trail := by
  obtain ⟨more,hmore⟩ := h.pre
  have hdrop : (segs.text ++ trail).drop p.drained = p.input ++ more := by
    rw [h.split,text_append,List.append_assoc,← hmore,h.drained,List.append_assoc,← List.append_assoc,
      List.drop_left]
  rw [hdrop] at hpre
  rw [← hmore,List.append_assoc]
  exact (List.prefix_append_right_inj dropped).mpr hpre

/-- A read after which the buffer ends between values. -/
theorem readBytes_between (h : Caught segs trail p seen rest dropped) (hsegs : segs.Containers)
    (htrail : Space trail) (hpre : dropped ++ (p.input ++ bs) <+: rest.text ++ trail)
    (hends : rest.EndsBetween (dropped ++ (p.input ++ bs))) :
    ∃ seen' rest' dropped', Caught segs trail (p.readBytes bs) seen' rest' dropped' := by
  have hrest : rest.Containers := (Client.containers_of_append (h.split ▸ hsegs)).2
  obtain ⟨rest',tail,hsplit,hjs,htail,-⟩ := exists_arrived hrest htrail hpre
  have htailSpace : Space tail := (endsBetween_iff hjs).mp hends
  have hwaiting := completed_tail hsplit hjs
  generalize completed (dropped ++ (p.input ++ bs)).length rest = Q at *
  by_cases hQ : Q = []
  · subst hQ
    have htail' : dropped ++ (p.input ++ bs) = tail := hjs
    have hbuf : Space (p.input ++ bs) := fun b hb => htailSpace b (htail' ▸ List.mem_append_right _ hb)
    obtain ⟨dropped₂,hdropped₂,-,hserved⟩ := served_between (p := { p with input := p.input ++ bs })
      Client.containers_nil hbuf rfl le_rfl
    have hinput : p.input ++ bs = dropped₂ ++ (p.readBytes bs).input := hserved.input
    have hall : dropped ++ dropped₂ ++ (p.readBytes bs).input = tail := by
      rw [List.append_assoc,← hinput,htail']
    refine ⟨seen,rest',dropped ++ dropped₂,h.split.trans (congrArg _ hsplit),?_,?_,?_,?_,?_⟩
    · have hcalls : (p.readBytes bs).calls.map DispatchCall.start = p.calls.map DispatchCall.start ++ [] :=
        hserved.calls
      rw [hcalls,List.append_nil,h.calls]
    · exact fun b hb => (List.mem_append.mp hb).elim (h.space b) (hdropped₂ b)
    · have hdrained : (p.readBytes bs).drained = p.drained + dropped₂.length := hserved.drained
      rw [hdrained,h.drained]
      simp [Nat.add_assoc]
    · rw [hall]
      exact htail
    · rw [hall]
      exact fun _ => hwaiting
  · have hQc : Q.Containers := (Client.containers_of_append (hsplit ▸ hrest)).1
    obtain ⟨Q',hQ',hbuf,hstarts⟩ := exists_trimmed hQc hQ h.space hjs
    obtain ⟨dropped₂,hdropped₂,-,hserved⟩ := served_between (p := { p with input := p.input ++ bs })
      hQ' htailSpace hbuf le_rfl
    have hinput : p.input ++ bs = Q'.text ++ dropped₂ ++ (p.readBytes bs).input := hserved.input
    have hall : dropped₂ ++ (p.readBytes bs).input = tail := by
      rw [hbuf,List.append_assoc] at hinput
      exact (List.append_cancel_left hinput).symm
    have hlen : dropped.length + Q'.text.length = Q.text.length := by
      have hlen := congrArg List.length hjs
      rw [hbuf] at hlen
      simp only [List.length_append] at hlen
      omega
    have hdrained : (p.readBytes bs).drained = p.drained + (Q'.text ++ dropped₂).length := hserved.drained
    refine ⟨seen ++ Q,rest',dropped₂,?_,?_,hdropped₂,?_,?_,?_⟩
    · rw [List.append_assoc,← hsplit,h.split]
    · have hcalls : (p.readBytes bs).calls.map DispatchCall.start =
          p.calls.map DispatchCall.start ++ Q'.starts p.drained := hserved.calls
      rw [hcalls,h.calls,h.drained,List.length_append,hstarts,starts_append,Nat.zero_add]
    · rw [hdrained,h.drained,text_append]
      simp only [List.length_append]
      omega
    · rw [hall]
      exact htail
    · rw [hall]
      exact fun _ => hwaiting

/-- A read after which the buffer ends inside a value. -/
theorem readBytes_inside (h : Caught segs trail p seen rest dropped) (hsegs : segs.Containers)
    (htrail : Space trail) (hbs : bs ≠ []) (hpre : dropped ++ (p.input ++ bs) <+: rest.text ++ trail)
    (hends : ¬ rest.EndsBetween (dropped ++ (p.input ++ bs))) :
    p.readBytes bs = keepOrDrain { p with input := p.input ++ bs } := by
  have hrest : rest.Containers := (Client.containers_of_append (h.split ▸ hsegs)).2
  obtain ⟨rest',tail,hsplit,hjs,-,htail⟩ := exists_arrived hrest htrail hpre
  obtain ⟨space,v,part,part',hspace,hv,hcontainer,hpart,hpart',htext,rfl⟩ :=
    htail.resolve_left ((endsBetween_iff hjs).not.mp hends)
  generalize completed (dropped ++ (p.input ++ bs)).length rest = Q at *
  have hQc : Q.Containers := (Client.containers_of_append (hsplit ▸ hrest)).1
  obtain ⟨Q',space',hQ',hspace',hbuf⟩ : ∃ Q' space', Stream.Containers Q' ∧ Space space' ∧
      p.input ++ bs = Stream.text Q' ++ space' ++ part := by
    by_cases hQ : Q = []
    · subst hQ
      obtain ⟨type,b,more,hb,hkind,-⟩ := hcontainer.text_node
      obtain ⟨b',part,rfl⟩ := List.exists_cons_of_ne_nil hpart
      rw [hb,List.cons_append] at htext
      obtain ⟨rfl,-⟩ := List.cons.inj htext
      obtain ⟨space',rfl,hbuf⟩ := exists_space_left h.space (not_space_of_opening b type hkind) hjs
      exact ⟨[],space',Client.containers_nil,fun b hb => hspace b (List.mem_append_right _ hb),hbuf⟩
    · obtain ⟨Q',hQ',hbuf,-⟩ := exists_trimmed hQc hQ h.space hjs
      exact ⟨Q',space,hQ',hspace,by rw [hbuf,List.append_assoc]⟩
  obtain ⟨fuel,hfuel⟩ : ∃ fuel, (p.input ++ bs).length = fuel + 1 :=
    Nat.exists_eq_succ_of_ne_zero (by simp [hbs])
  rw [readBytes]
  simp only [hfuel]
  exact serveRequests_inside hQ' hspace' hv hcontainer hpart hpart' htext hbuf

theorem initial (hsegs : segs.Containers) : Caught segs trail {} [] segs [] where
  split := rfl
  calls := rfl
  space := nofun
  drained := rfl
  pre := List.nil_prefix
  waiting := fun _ => (Client.UpToDate.initial hsegs).waiting

theorem readBytes (h : Caught segs trail p seen rest dropped) (hsegs : segs.Containers) (htrail : Space trail)
    (hen : (reader (segs.text ++ trail)).enabled p (.bytes bs)) (hfav : FavourableRead segs trail p (.bytes bs)) :
    ∃ seen' rest' dropped', Caught segs trail (p.readBytes bs) seen' rest' dropped' := by
  obtain ⟨hbs,hpre⟩ := hen
  have hpre' := h.receive hpre
  have htake := h.take_eq hpre'
  by_cases hends : rest.EndsBetween (dropped ++ (p.input ++ bs))
  · exact h.readBytes_between hsegs htrail hpre' hends
  · have hshort : (p.input ++ bs).length < maxRequestBufSize := by
      refine hfav.resolve_left ?_
      rw [htake,h.split,endsBetween_append]
      exact hends
    rw [h.readBytes_inside hsegs htrail hbs hpre' hends,keepOrDrain,if_neg (not_le.mpr hshort)]
    exact ⟨seen,rest,dropped,h.split,h.calls,h.space,h.drained,hpre',fun hends' => absurd hends' hends⟩

theorem reset (h : Caught segs trail p seen rest dropped)
    (hends : segs.EndsBetween (p.arrived (segs.text ++ trail))) :
    Caught segs trail p.reset seen rest (dropped ++ p.input) := by
  rw [h.arrived_eq,h.split,endsBetween_append] at hends
  have hnone := h.waiting hends
  have hspace : Space (dropped ++ p.input) := by
    unfold EndsBetween at hends
    rw [hnone] at hends
    exact hends
  have hinput : p.reset.input = [] := by simp [Pipe.reset,drainAll,Client.drain]
  refine ⟨h.split,h.calls,hspace,?_,?_,?_⟩
  · simp [Pipe.reset,drainAll,Client.drain,h.drained,Nat.add_assoc]
  · simpa [hinput] using h.pre
  · simpa [hinput] using h.waiting

theorem step (h : Caught segs trail p seen rest dropped) (hsegs : segs.Containers) (htrail : Space trail)
    {r : ReadResult} (hen : (reader (segs.text ++ trail)).enabled p r) (hfav : FavourableRead segs trail p r) :
    ∃ seen' rest' dropped', Caught segs trail ((reader (segs.text ++ trail)).step p r) seen' rest' dropped' := by
  cases r with
  | bytes bs => exact h.readBytes hsegs htrail hen hfav
  | eintr => exact ⟨seen,rest,dropped,h⟩
  | eagain => exact ⟨seen,rest,dropped,h⟩
  | eof => exact ⟨seen,rest,_,h.reset hfav⟩
  | error => exact ⟨seen,rest,_,h.reset hfav⟩

end Caught

/-- The results of the reads of one callback: it goes on after bytes and interruptions. -/
def Finished : List ReadResult → Prop
  | [] => False
  | .bytes _ :: rs => Finished rs
  | .eintr :: rs => Finished rs
  | _ :: rs => rs = []

theorem readCallback_eq_exec (stream : List UInt8) {rs : List ReadResult} (h : Finished rs) (p : Pipe) :
    p.readCallback rs = (reader stream).exec p rs := by
  induction rs generalizing p with
  | nil => cases h
  | cons r rs ih =>
    cases r with
    | bytes bs => exact ih h _
    | eintr => exact ih h _
    | eagain =>
      obtain rfl : rs = [] := h
      rfl
    | eof =>
      obtain rfl : rs = [] := h
      rfl
    | error =>
      obtain rfl : rs = [] := h
      rfl

theorem callbacks_eq_exec (stream : List UInt8) {callbacks : List (List ReadResult)}
    (h : ∀ rs ∈ callbacks, Finished rs) (p : Pipe) :
    callbacks.foldl readCallback p = (reader stream).exec p callbacks.flatten := by
  induction callbacks generalizing p with
  | nil => rfl
  | cons rs callbacks ih =>
    rw [List.foldl_cons,List.flatten_cons,readCallback_eq_exec stream (h rs List.mem_cons_self),
      ih (fun x hx => h x (List.mem_cons_of_mem _ hx))]
    simp only [System.exec,List.foldl_append]

/-- Over every run of read callbacks whose reads are all favourable, each value is
dispatched once and in order, and none is lost. -/
theorem requests_dispatched_once (hsegs : segs.Containers) (htrail : Space trail)
    {callbacks : List (List ReadResult)} (hfin : ∀ rs ∈ callbacks, Finished rs)
    (h : ((reader (segs.text ++ trail)).restrict (FavourableRead segs trail)).Legal {} callbacks.flatten) (n : ℕ) :
    InOrder segs trail ((callbacks.take n).foldl readCallback {}) := by
  have hstep : ∀ p r, (∃ seen rest dropped, Caught segs trail p seen rest dropped) →
      ((reader (segs.text ++ trail)).restrict (FavourableRead segs trail)).enabled p r →
      ∃ seen rest dropped, Caught segs trail ((reader (segs.text ++ trail)).step p r) seen rest dropped := by
    rintro p r ⟨seen,rest,dropped,hp⟩ ⟨hen,hfav⟩
    exact hp.step hsegs htrail hen hfav
  have hinv := h.always hstep ⟨[],segs,[],.initial hsegs⟩
  have hpre : (callbacks.take n).flatten <+: callbacks.flatten := by
    conv_rhs => rw [← List.take_append_drop n callbacks]
    rw [List.flatten_append]
    exact List.prefix_append _ _
  obtain ⟨seen,rest,dropped,hp⟩ := hinv (callbacks.take n).flatten.length
  rw [List.prefix_iff_eq_take.mp hpre |>.symm] at hp
  rw [callbacks_eq_exec (segs.text ++ trail) (fun rs hrs => hfin rs (List.mem_of_mem_take hrs))]
  exact hp.inOrder

/-- The text `{}` some number of times. -/
def emptyObjects (n : ℕ) : Stream := List.replicate n ([],.object [] .nil)

theorem emptyObjects_containers (n : ℕ) : (emptyObjects n).Containers := by
  intro s hs
  rw [List.eq_of_mem_replicate hs]
  exact ⟨nofun,by simp [Value.Valid,Members.Valid,Space],trivial⟩

/-- Two requests in three pieces, with an interruption and a pause. -/
def twoCallbacks : List (List ReadResult) :=
  [[.bytes [123],.eintr,.bytes [125,123],.eagain],[.bytes [125],.eof]]

theorem requests_dispatched_once_twoCallbacks :
    InOrder (emptyObjects 2) [] ((twoCallbacks.take 2).foldl readCallback {}) := by
  have hnil : Space [] := nofun
  refine requests_dispatched_once (emptyObjects_containers 2) hnil ?_ ?_ 2
  · simp [twoCallbacks,Finished]
  · refine ⟨⟨?_,?_⟩,⟨?_,?_⟩,⟨?_,?_⟩,⟨?_,?_⟩,⟨?_,?_⟩,⟨?_,?_⟩,trivial⟩ <;> decide +kernel

theorem text_emptyObjects_succ (n : ℕ) : (emptyObjects (n + 1)).text = 123 :: 125 :: (emptyObjects n).text := by
  rw [emptyObjects,List.replicate_succ,text_cons,← emptyObjects]
  simp [Value.text,Members.text]

theorem text_emptyObjects_length (n : ℕ) : (emptyObjects n).text.length = 2 * n := by
  induction n with
  | zero => rfl
  | succ n ih =>
    rw [text_emptyObjects_succ,List.length_cons,List.length_cons,ih]
    omega

/-- A burst of 2048 requests `{}` and the first byte of another one. -/
def burst : List UInt8 := (emptyObjects 2048).text ++ [123]

theorem burst_length : burst.length = 4097 := by
  rw [burst,List.length_append,text_emptyObjects_length]
  rfl

/-- The burst is too long to be kept, so all its requests are lost. -/
theorem readCallback_burst : readCallback {} [.bytes burst,.eagain] = { drained := 4097 } := by
  have hnil : Space [] := nofun
  have hcontainers : Containers (emptyObjects 2048 ++ emptyObjects 1) := fun s hs =>
    (List.mem_append.mp hs).elim (emptyObjects_containers 2048 s) (emptyObjects_containers 1 s)
  have hcaught : Caught (emptyObjects 2048 ++ emptyObjects 1) [] {} [] (emptyObjects 2048 ++ emptyObjects 1) [] :=
    .initial hcontainers
  have hends : ¬ EndsBetween (emptyObjects 2048 ++ emptyObjects 1) burst := by
    rw [burst,endsBetween_append]
    decide +kernel
  have hpre : burst <+: text (emptyObjects 2048 ++ emptyObjects 1) ++ [] := by
    rw [List.append_nil,text_append,burst]
    exact (List.prefix_append_right_inj _).mpr (by decide +kernel)
  have hne : burst ≠ [] := by simp [burst]
  have hread := hcaught.readBytes_inside hcontainers hnil hne hpre hends
  change readBytes {} burst = _
  rw [hread,keepOrDrain]
  simp [burst_length,maxRequestBufSize,drainAll,Client.drain]

theorem requests_lost_burst :
    (reader (emptyObjects 2049).text).Legal {} [.bytes burst,.eagain] ∧
    (emptyObjects 2048).text <+: burst ∧
    (readCallback {} [.bytes burst,.eagain]).calls = [] ∧
    (readCallback {} [.bytes burst,.eagain]).input = [] ∧
    ¬ InOrder (emptyObjects 2049) [] (readCallback {} [.bytes burst,.eagain]) := by
  have hall : text (emptyObjects 2049) = burst ++ [125] := by
    have hsplit : emptyObjects 2049 = emptyObjects 2048 ++ emptyObjects 1 := List.replicate_add 2048 1 _
    rw [hsplit,text_append,burst,List.append_assoc]
    rfl
  have hburst : ∃ more, burst = 123 :: more :=
    ⟨_,congrArg (· ++ [123]) (text_emptyObjects_succ 2047)⟩
  rw [readCallback_burst]
  refine ⟨⟨⟨by simp [burst],?_⟩,trivial,trivial⟩,List.prefix_append _ _,rfl,rfl,?_⟩
  · rw [hall]
    exact List.prefix_append _ _
  · rintro ⟨seen,rest,dropped,-,hcalls,hdropped,harrived,-⟩
    obtain ⟨more,hmore⟩ := hburst
    have hseen : seen = [] := by
      cases seen with
      | nil => rfl
      | cons seg seen => cases hcalls
    have htake : arrived (text (emptyObjects 2049) ++ []) { drained := 4097 } = burst := by
      rw [arrived,List.append_nil,hall]
      exact (congrArg (fun n => (burst ++ [125]).take n) burst_length.symm).trans List.take_left
    rw [htake,hseen,hmore] at harrived
    have hmem : (123 : UInt8) ∈ dropped := by
      have hmem : (123 : UInt8) ∈ text [] ++ dropped ++ ({ drained := 4097 } : Pipe).input :=
        harrived ▸ List.mem_cons_self
      simpa using hmem
    exact absurd (hdropped 123 hmem) (by decide)

end Pipe
end Lightsd.Core
