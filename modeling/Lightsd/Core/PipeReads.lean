import Lightsd.Core.ClientArrivals
import Lightsd.Core.Pipe

/-! # What a read makes of the buffer of a pipe

A buffer that ends between values is served: its values are dispatched one after the
other. White space that is left is kept, or removed when there is too much of it. A
buffer that ends inside a value is kept as it is, whole values before that one included,
or removed when it is too long.
-/
namespace Lightsd.Core

open OrderedTree Jsmn Json Json.Stream

/-- Where in the connection the first token of a call is. -/
def DispatchCall.start (call : DispatchCall) : ℕ := call.offset + (call.tokens.head?.map Token.start).getD 0

namespace Json.Stream

/-- Where the values of a sequence begin, without the white space before them. -/
def starts (pos : ℕ) : Stream → List ℕ
  | [] => []
  | (space,value) :: segs => (pos + space.length) :: starts (pos + (space ++ value.text).length) segs

theorem starts_append (pos : ℕ) (segs segs' : Stream) :
    starts pos (segs ++ segs') = starts pos segs ++ starts (pos + segs.text.length) segs' := by
  induction segs generalizing pos with
  | nil => rfl
  | cons seg segs ih =>
    obtain ⟨space,value⟩ := seg
    simp only [List.cons_append,starts,ih,text_cons,List.length_append,Nat.add_assoc]

end Json.Stream

namespace Pipe

variable {p r : Pipe} {segs : Stream} {space dropped : List UInt8} {fuel : ℕ}

/-- Some values have been dispatched, and they and some bytes after them removed. -/
structure Served (p : Pipe) (segs : Stream) (dropped : List UInt8) (r : Pipe) : Prop where
  calls : r.calls.map DispatchCall.start = p.calls.map DispatchCall.start ++ segs.starts p.drained
  drained : r.drained = p.drained + (segs.text ++ dropped).length
  input : p.input = (segs.text ++ dropped) ++ r.input

theorem served_refl (p : Pipe) : Served p [] [] p := ⟨by simp [starts],by simp,by simp⟩

theorem served_drainAll (p : Pipe) : Served p [] p.input p.drainAll :=
  ⟨by simp [starts,drainAll,Client.drain],by simp [drainAll,Client.drain],by simp [drainAll,Client.drain]⟩

theorem Served.trans {seg : List UInt8 × Value} {p' : Pipe} (h : Served p [seg] [] p')
    (h' : Served p' segs dropped r) : Served p (seg :: segs) dropped r := by
  have htext : text (seg :: segs) = text [seg] ++ text segs := text_append [seg] segs
  have hstarts : starts p.drained (seg :: segs) =
      starts p.drained [seg] ++ starts (p.drained + (text [seg]).length) segs :=
    starts_append p.drained [seg] segs
  have hdrained : p'.drained = p.drained + (text [seg]).length := by simpa using h.drained
  refine ⟨?_,?_,?_⟩
  · rw [h'.calls,h.calls,hdrained,hstarts,List.append_assoc]
  · rw [h'.drained,hdrained,htext]
    simp [Nat.add_assoc]
  · rw [h.input,h'.input,htext]
    simp

theorem served_keepOrDrain (p : Pipe) : ∃ dropped, dropped <+: p.input ∧ Served p [] dropped p.keepOrDrain := by
  unfold keepOrDrain
  split
  · exact ⟨p.input,List.prefix_rfl,served_drainAll p⟩
  · exact ⟨[],List.nil_prefix,served_refl p⟩

theorem served_dispatch {before rest : List UInt8} {v : Value} (hin : p.input = (before ++ v.text) ++ rest)
    (hv : v.IsContainer) {filled : Parser} (h : filled.tokens = tokensOf (nodes 0 ((before,v) :: segs))) :
    Served p [(before,v)] [] ((p.dispatchRequest p.input.length filled.tokens).drain (before ++ v.text).length) ∧
      ((p.dispatchRequest p.input.length filled.tokens).drain (before ++ v.text).length).input = rest := by
  obtain ⟨hadv,hrest⟩ := Client.advanced_dispatch hin p.input.length filled.tokens
  obtain ⟨type,-,-,-,-,hnode⟩ := hv.text_node
  obtain ⟨children,hnode⟩ := hnode (0 + before.length)
  have hhead : (filled.tokens.head?.map Token.start).getD 0 = before.length := by
    rw [h,nodes,hnode,tokensOf_node]
    simp [Label.token]
  refine ⟨⟨?_,?_,?_⟩,hrest⟩
  · simp [Client.drain,Client.dispatchRequest,DispatchCall.start,hhead,starts]
  · simpa using hadv.drained
  · simpa using hadv.input

/-- One round over a buffer that begins with a whole value and ends between values. -/
theorem serveRequests_cons (fuel : ℕ) {before : List UInt8} {v : Value}
    (hsegs : Containers ((before,v) :: segs)) (hspace : Space space)
    (hin : p.input = text ((before,v) :: segs) ++ space) :
    ∃ p' : Pipe, Served p [(before,v)] [] p' ∧ p'.input = segs.text ++ space ∧
      serveRequests (fuel + 1) p = if p'.input = [] then p' else serveRequests fuel p' := by
  obtain ⟨-,-,hcontainer⟩ := hsegs _ List.mem_cons_self
  obtain ⟨htc,hnone,filled,htokens,hcount,hsome⟩ := parse_between hsegs hspace
  have hpos : counts (nodes 0 ((before,v) :: segs)) ≠ 0 := by
    have hpos := count_pos (v.node (0 + before.length))
    rw [nodes,counts_cons]
    omega
  have hfill : parse p.input (some (tokenCount p.input)) = .ok filled := by
    rw [hin,hsome,if_pos le_rfl]
  have hsize := Client.requestSize_stream hcontainer htokens
  have hsplit : p.input = (before ++ v.text) ++ (segs.text ++ space) := by
    rw [hin,text_cons,List.append_assoc]
  obtain ⟨hserved,hrest⟩ := served_dispatch hsplit hcontainer htokens
  refine ⟨_,hserved,hrest,?_⟩
  have hlen : p.input.length = (before ++ v.text).length + (segs.text ++ space).length := by
    rw [hsplit]
    exact List.length_append
  rw [hin] at hfill
  have htc' : tokenCount (text ((before,v) :: segs) ++ space) ≠ 0 := htc ▸ hpos
  have hcount' : filled.count ≠ 0 := hcount ▸ hpos
  have hfull : p.input.length ≤ (before ++ v.text).length ↔ segs.text ++ space = [] := by
    rw [hlen,← List.length_eq_zero_iff]
    omega
  rw [serveRequests,hin,hnone]
  simp only [if_neg htc',hfill,if_neg hcount',hsize]
  rw [← hin,hrest]
  simp only [hfull]

theorem serveRequests_nil (h : p.input = []) : serveRequests fuel p = p := by
  have hkeep : p.keepOrDrain = p := by simp [keepOrDrain,h,maxRequestBufSize]
  cases fuel with
  | zero => rfl
  | succ fuel =>
    rw [serveRequests,h]
    exact hkeep

/-- Fuel for as many rounds as there are bytes is enough. -/
theorem serveRequests_succ (hfuel : p.input.length ≤ fuel) : serveRequests (fuel + 1) p = serveRequests fuel p := by
  induction fuel generalizing p with
  | zero =>
    have hnil : p.input = [] := List.eq_nil_of_length_eq_zero (Nat.le_zero.mp hfuel)
    rw [serveRequests_nil hnil,serveRequests_nil hnil]
  | succ fuel ih =>
    rw [serveRequests.eq_2 p (fuel + 1),serveRequests.eq_2 p fuel]
    cases parse p.input none with
    | error e => cases e <;> rfl
    | ok counted =>
      simp only
      split
      · rfl
      · cases hfill : parse p.input (some counted.count) with
        | error e => cases e <;> rfl
        | ok filled =>
          simp only
          split
          · rfl
          · rename_i hcount
            split
            · rfl
            · have htake : p.input.take p.input.length = p.input := List.take_length
              obtain ⟨hpos,-,hle⟩ := Client.requestSize_bounds (htake.symm ▸ hfill) hcount
              refine ih ?_
              rw [Client.drain_length]
              simp only [Client.dispatchRequest]
              omega

theorem served_space (hspace : Space space) (hin : p.input = space) :
    ∃ dropped, Space dropped ∧ Space (serveRequests (fuel + 1) p).input ∧
      Served p [] dropped (serveRequests (fuel + 1) p) := by
  obtain ⟨counted,hparse,hcount⟩ := Client.parse_space hspace none
  have hround : serveRequests (fuel + 1) p = p.keepOrDrain := by
    rw [serveRequests,hin,hparse]
    simp only [hcount,if_true]
  obtain ⟨dropped,hpre,hserved⟩ := served_keepOrDrain p
  rw [hround]
  have hall : p.input = dropped ++ p.keepOrDrain.input := by simpa using hserved.input
  refine ⟨dropped,fun b hb => hspace b ?_,fun b hb => hspace b ?_,hserved⟩
  · rw [← hin]
    exact hpre.subset hb
  · rw [← hin,hall]
    exact List.mem_append_right _ hb

/-- A buffer that ends between values: all its values are dispatched. -/
theorem served_between (hsegs : segs.Containers) (hspace : Space space) (hin : p.input = segs.text ++ space)
    (hfuel : p.input.length ≤ fuel) :
    ∃ dropped, Space dropped ∧ Space (serveRequests fuel p).input ∧ Served p segs dropped (serveRequests fuel p) := by
  induction segs generalizing p fuel with
  | nil =>
    cases fuel with
    | zero =>
      have hnil : p.input = [] := List.eq_nil_of_length_eq_zero (Nat.le_zero.mp hfuel)
      rw [serveRequests_nil hnil]
      exact ⟨[],nofun,by rw [hnil]; exact nofun,served_refl p⟩
    | succ fuel => exact served_space hspace hin
  | cons seg segs ih =>
    obtain ⟨before,v⟩ := seg
    obtain ⟨-,-,hcontainer⟩ := hsegs _ List.mem_cons_self
    obtain ⟨-,b,bs,htext,-⟩ := hcontainer.text_node
    simp only at htext
    cases fuel with
    | zero => simp [hin,text_cons,htext] at hfuel
    | succ fuel =>
      obtain ⟨p',hserved,hrest,hround⟩ := serveRequests_cons fuel hsegs hspace hin
      have hlen : p'.input.length ≤ fuel := by
        have hlen := congrArg List.length hin
        simp only [text_cons,htext,List.length_append,List.length_cons] at hlen
        rw [hrest,List.length_append]
        omega
      obtain ⟨dropped,hdropped,hinput,hrestServed⟩ :=
        ih (fun s hs => hsegs s (List.mem_cons_of_mem _ hs)) hrest hlen
      rw [hround]
      split
      · rename_i hnil
        rw [serveRequests_nil hnil] at hrestServed hinput
        exact ⟨dropped,hdropped,hinput,hserved.trans hrestServed⟩
      · exact ⟨dropped,hdropped,hinput,hserved.trans hrestServed⟩

/-- A buffer that ends inside a value is kept, or removed when it is too long. -/
theorem serveRequests_inside {v : Value} {part part' : List UInt8} (hsegs : segs.Containers)
    (hspace : Space space) (hv : v.Valid) (hcontainer : v.IsContainer) (hpart : part ≠ []) (hpart' : part' ≠ [])
    (htext : v.text = part ++ part') (hin : p.input = segs.text ++ space ++ part) :
    serveRequests (fuel + 1) p = p.keepOrDrain := by
  obtain ⟨hpos,hnone,hsome⟩ := parse_inside hsegs hspace hv hcontainer hpart hpart' htext
  rw [← hin] at hpos hnone hsome
  rcases hnone with hunfinished | hok
  · rw [serveRequests,hunfinished]
  · rw [serveRequests,hok]
    simp only [if_neg hpos.ne',hsome,if_pos le_rfl]

end Pipe
end Lightsd.Core
