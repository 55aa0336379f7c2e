import Lightsd.Core.BatchFrames
import Lightsd.Core.OwnParts

/-! # The elements of a batch

The loop over a batch is bounded by the number of tokens in the buffer, and its stride for a
request is a number put together from the members that a request usually has. It dispatches the
elements of the batch and nothing else only if no value behind an element is taken for a member
of it, all strides but the last are right, and the last one leads behind all the values in the
buffer.
-/
namespace Lightsd.Core.Jsonrpc

open OrderedTree

/-- Trees that lie one behind the other, with their indices. -/
def placed : ℕ → List (Rose Label) → List (ℕ × Rose Label)
  | _, [] => []
  | i, t :: ts => (i,t) :: placed (i + t.count) ts

/-- The parts that are dispatched for a batch. There are none if the array is empty. -/
def Dispatched (toks : List Token) (json : List UInt8) (ps : List (ℕ × Part)) : Prop :=
  ∃ tok, toks.head? = some tok ∧ tok.type = .array ∧ if tok.size = 0 then ps = [] else Visits toks json 1 ps

/-- A part is that of an element: it is found where the element lies, and it is what the
element is if its tokens are the last ones. -/
def OwnPart (toks : List Token) (json : List UInt8) (p : ℕ × Part) (e : ℕ × Rose Label) : Prop :=
  p.1 = e.1 ∧ ∃ next, elementPart (toks.take (e.1 + e.2.count)) json e.1 = .ok (p.2,next)

/-- The member that a tree stands for. -/
def memberOf : Rose Label → Label × Rose Label
  | .node a (t :: _) => (a,t)
  | .node a [] => (a,.node a [])

/-- The members of an object. -/
def ownMembers (e : Rose Label) : List (Label × Rose Label) := e.children.map memberOf

/-- An object that is taken for a request by its own members. -/
def Taken (json : List UInt8) (e : Rose Label) : Prop :=
  (rootToken e).type = .object ∧ Admissible requestSchema json (ownMembers e) ∧
    (ownMembers e).any (fun m => keyText json m = ascii "method") = true

/-- The values behind an element do not change what it is. -/
def Undisturbed (json : List UInt8) (e : Rose Label) (cs : List (Rose Label)) : Prop :=
  (rootToken e).type = .object → Unaffected json (ownMembers e) cs

/-- The elements are in step with the loop, with other values behind the batch. -/
def InStep (json : List UInt8) (vs : List (Rose Label)) : List (Rose Label) → Prop
  | [] => True
  | [e] => Undisturbed json e vs ∧ (¬ Taken json e → vs = []) ∧
      (Taken json e → e.count + counts vs ≤ requestTokens json (ownMembers e))
  | e :: e' :: es => Undisturbed json e (e' :: es ++ vs) ∧
      (Taken json e → e.count = requestTokens json (ownMembers e)) ∧ InStep json vs (e' :: es)

section Strides
variable {toks : List Token} {json : List UInt8} {ti : ℕ} {e : Rose Label} {cs : List (Rose Label)}

theorem ownMembers_keyNode (a : Label) (ms : List (Label × Rose Label)) :
    ownMembers (.node a (ms.map keyNode)) = ms := by
  rw [ownMembers,Rose.children,List.map_map]
  exact List.map_id' ms

theorem ObjectAt.taken_iff {a : Label} {ms : List (Label × Rose Label)} (h : ObjectAt toks ti a ms cs) :
    Taken json (.node a (ms.map keyNode)) ↔ (ownResult json ti ms).1 = true := by
  rw [ownResult_ok,Taken,ownMembers_keyNode]
  exact and_iff_right h.type

theorem ObjectAt.elementPart_own {a : Label} {ms : List (Label × Rose Label)} (h : ObjectAt toks ti a ms cs)
    (json : List UInt8) (n : ℕ) :
    (∃ part, elementPart toks json ti = .ok (part,ti + n) ∧
        OwnPart toks json (ti,part) (ti,.node a (ms.map keyNode))) ↔
      requestPart toks json ti (toks.length - ti) = .ok ((ownPart json ti ms).1,n) := by
  have hcount : (Rose.node a (ms.map keyNode)).count = 1 + counts (ms.map keyNode) := by
    rw [count_node,Nat.add_comm]
  have hown : elementPart (toks.take (ti + (1 + counts (ms.map keyNode)))) json ti =
      .ok ((ownPart json ti ms).1,ti + (ownPart json ti ms).2) := by
    rw [elementPart_object (LiesAt.of_eq h.cut.tokens).read h.type,h.cut.requestPart_alone json]
    rfl
  simp only [OwnPart,hcount,hown,elementPart_object (LiesAt.of_eq h.tokens).read h.type,true_and]
  cases requestPart toks json ti (toks.length - ti) with
  | error c => simp [Except.map]
  | ok r => simp [Except.map,Prod.ext_iff,eq_comm]

/-- The object among its tokens. -/
theorem Shaped.objectAt (he : Shaped e) (hcs : ∀ c ∈ cs, Shaped c) (hdrop : toks.drop ti = tokensOf (e :: cs))
    (hobject : (rootToken e).type = .object) :
    ∃ a ms, e = .node a (ms.map keyNode) ∧ ObjectAt toks ti a ms cs := by
  cases he with
  | leaf a htype =>
    rw [show (rootToken (.node a [])).type = a.type from rfl] at hobject
    rcases htype with htype | htype <;> rw [htype] at hobject <;> cases hobject
  | array a es htype hes =>
    rw [show (rootToken (.node a es)).type = a.type from rfl,htype] at hobject
    cases hobject
  | object a ms htype hkeys hvalues => exact ⟨a,ms,rfl,htype,hkeys,hvalues,hcs,hdrop⟩

/-- An element is dispatched as what it is by itself exactly if the values behind it do not
change it. -/
theorem elementPart_own_iff (he : Shaped e) (hcs : ∀ c ∈ cs, Shaped c) (hdrop : toks.drop ti = tokensOf (e :: cs))
    (n : ℕ) : (∃ part, elementPart toks json ti = .ok (part,ti + n) ∧ OwnPart toks json (ti,part) (ti,e)) ↔
      Undisturbed json e cs ∧ (¬ Taken json e → n = e.count) ∧
        (Taken json e → n = requestTokens json (ownMembers e)) := by
  by_cases hobject : (rootToken e).type = .object
  · obtain ⟨a,ms,rfl,hat⟩ := he.objectAt hcs hdrop hobject
    have hcount : (Rose.node a (ms.map keyNode)).count = 1 + counts (ms.map keyNode) := by
      rw [count_node,Nat.add_comm]
    rw [hat.elementPart_own,hat.requestPart_own_iff,ownPart_snd,Undisturbed,hat.taken_iff,ownMembers_keyNode,hcount]
    simp only [hobject,true_implies]
    refine and_congr_right (fun _ => ?_)
    cases (ownResult json ti ms).1 <;> simp
  · have hcut := drop_take_element hdrop
    have hother : elementPart toks json ti = _ := elementPart_other he hdrop hobject
    have hown : elementPart (toks.take (ti + e.count)) json ti = _ := elementPart_other he hcut hobject
    have htaken : ¬ Taken json e := fun h => hobject h.1
    have hsame : Undisturbed json e cs := fun h => absurd h hobject
    simp only [OwnPart,hother,hown,hsame,htaken,true_and,not_false_eq_true,true_implies,false_implies,and_true]
    constructor
    · rintro ⟨part,heq,-⟩
      have hnext := congrArg Prod.snd (Except.ok.inj heq)
      simp only at hnext
      omega
    · rintro rfl
      exact ⟨.notObject,rfl,_,rfl⟩

end Strides
theorem counts_eq_zero {ts : List (Rose Label)} (h : counts ts = 0) : ts = [] := by
  cases ts with
  | nil => rfl
  | cons t ts =>
    have hpos := count_pos t
    rw [counts_cons] at h
    omega

section Loop
variable {toks : List Token} {json : List UInt8}

theorem Visits.first {ti i : ℕ} {part : Part} {ps : List (ℕ × Part)} (h : Visits toks json ti ((i,part) :: ps)) :
    i = ti := by
  cases h with
  | visit => rfl

/-- The loop dispatches one element, and then the others. -/
theorem visits_cons_iff {ti : ℕ} {e : Rose Label} {es : List (Rose Label)} (hne : es ≠ []) (hti : ti < toks.length) :
    (∃ ps, Visits toks json ti ps ∧ List.Forall₂ (OwnPart toks json) ps (placed ti (e :: es))) ↔
      (∃ part, elementPart toks json ti = .ok (part,ti + e.count) ∧ OwnPart toks json (ti,part) (ti,e)) ∧
        ∃ ps, Visits toks json (ti + e.count) ps ∧
          List.Forall₂ (OwnPart toks json) ps (placed (ti + e.count) es) := by
  constructor
  · rintro ⟨ps,hps,hown⟩
    cases hps with
    | done h => omega
    | @visit _ next part rest _ hpart hrest =>
      rw [placed,List.forall₂_cons] at hown
      obtain ⟨e',es,rfl⟩ := List.exists_cons_of_ne_nil hne
      have hothers := hown.2
      cases hothers with
      | @cons p _ rest _ hp hothers =>
        obtain rfl : ti + e.count = next := hp.1.symm.trans hrest.first
        exact ⟨⟨part,hpart,hown.1⟩,_,hrest,hown.2⟩
  · rintro ⟨⟨part,hpart,hfirst⟩,ps,hps,hown⟩
    exact ⟨_,.visit hti hpart hps,.cons hfirst hown⟩

/-- The loop dispatches one element, and then there is nothing left. -/
theorem visits_last_iff {ti : ℕ} {e : Rose Label} (hti : ti < toks.length) :
    (∃ ps, Visits toks json ti ps ∧ List.Forall₂ (OwnPart toks json) ps (placed ti [e])) ↔
      ∃ part next, elementPart toks json ti = .ok (part,next) ∧ OwnPart toks json (ti,part) (ti,e) ∧
        toks.length ≤ next := by
  constructor
  · rintro ⟨ps,hps,hown⟩
    cases hps with
    | done h => omega
    | visit _ hpart hrest =>
      rw [placed,placed,List.forall₂_cons,List.forall₂_nil_right_iff] at hown
      obtain ⟨hfirst,rfl⟩ := hown
      cases hrest with
      | done hend => exact ⟨_,_,hpart,hfirst,hend⟩
  · rintro ⟨part,next,hpart,hfirst,hend⟩
    exact ⟨_,.visit hti hpart (.done hend),.cons hfirst .nil⟩

/-- The loop dispatches the elements exactly if they are in step with it. -/
theorem visits_iff {es vs : List (Rose Label)} (hes : ∀ e ∈ es, Shaped e) (hvs : ∀ v ∈ vs, Shaped v)
    (hne : es ≠ []) {ti : ℕ} (hdrop : toks.drop ti = tokensOf (es ++ vs)) :
    (∃ ps, Visits toks json ti ps ∧ List.Forall₂ (OwnPart toks json) ps (placed ti es)) ↔ InStep json vs es := by
  have hlength := congrArg List.length hdrop
  rw [List.length_drop,Jsmn.tokensOf_length,counts_append] at hlength
  induction es generalizing ti with
  | nil => exact absurd rfl hne
  | cons e es ih =>
    have he := hes e List.mem_cons_self
    have hpos := count_pos e
    have hbehind : ∀ c ∈ es ++ vs, Shaped c := by
      intro c hc
      rcases List.mem_append.mp hc with hc | hc
      · exact hes c (List.mem_cons_of_mem _ hc)
      · exact hvs c hc
    have hpart := @elementPart_own_iff _ json _ _ _ he hbehind hdrop
    rw [counts_cons] at hlength
    cases es with
    | nil =>
      simp only [counts_nil,List.nil_append] at hlength hpart
      rw [visits_last_iff (by omega),InStep]
      constructor
      · rintro ⟨part,next,heq,hown,hend⟩
        have hlt := lt_of_elementPart heq
        obtain ⟨n,rfl⟩ : ∃ n, next = ti + n := ⟨next - ti,by omega⟩
        obtain ⟨hsame,hother,htaken⟩ := (hpart n).mp ⟨part,heq,hown⟩
        refine ⟨hsame,fun hnot => ?_,fun hyes => ?_⟩
        · have hn := hother hnot
          exact counts_eq_zero (by omega)
        · have hn := htaken hyes
          omega
      · rintro ⟨hsame,hother,htaken⟩
        by_cases hyes : Taken json e
        · obtain ⟨part,heq,hown⟩ := (hpart _).mpr ⟨hsame,fun hnot => absurd hyes hnot,fun _ => rfl⟩
          have hle := htaken hyes
          exact ⟨part,_,heq,hown,by omega⟩
        · obtain ⟨part,heq,hown⟩ := (hpart _).mpr ⟨hsame,fun _ => rfl,fun h => absurd h hyes⟩
          rw [hother hyes,counts_nil] at hlength
          exact ⟨part,_,heq,hown,by omega⟩
    | cons e' es =>
      have hrest : _ ↔ InStep json vs (e' :: es) := ih (fun x hx => hes x (List.mem_cons_of_mem _ hx)) (by simp)
        (LiesAt.drop_tokensOf hdrop) (by omega)
      rw [visits_cons_iff (by simp) (by omega),InStep,hpart e.count,hrest]
      simp [and_assoc]

end Loop
section Batch
variable {json : List UInt8}

theorem Dispatched.unique {toks : List Token} {ps qs : List (ℕ × Part)} (hp : Dispatched toks json ps)
    (hq : Dispatched toks json qs) : ps = qs := by
  obtain ⟨tok,hhead,-,hps⟩ := hp
  obtain ⟨tok',hhead',-,hqs⟩ := hq
  obtain rfl : tok = tok' := Option.some.inj (hhead.symm.trans hhead')
  split at hps
  · rw [if_pos ‹_›] at hqs
    exact hps.trans hqs.symm
  · rw [if_neg ‹_›] at hqs
    exact hps.unique hqs

/-- The parts of a batch are served one after the other, and nothing else is. -/
theorem dispatchRequest_dispatched {W : Type} (handlers : Method → Handler W) {toks : List Token}
    {ps : List (ℕ × Part)} (h : Dispatched toks json ps) (hne : ps ≠ []) (s : Session W) :
    dispatchRequest handlers toks json s =
      (serveParts handlers toks json (ps.map Prod.snd) (s,0)).map closeBatch := by
  obtain ⟨tok,hhead,harray,hps⟩ := h
  obtain ⟨toks,rfl⟩ := List.head?_eq_some_iff.mp hhead
  split at hps
  · exact absurd hps hne
  · rw [dispatchRequest_batch harray ‹_›,batchFrom_eq hps]

/-- With any values behind a batch, its elements are dispatched, each as what it is by itself,
and nothing else is, exactly if they are in step with the loop. -/
theorem batch_elements_iff {a : Label} {es vs : List (Rose Label)} (ha : a.type = .array)
    (hes : ∀ e ∈ es, Shaped e) (hvs : ∀ v ∈ vs, Shaped v) :
    ((∃ ps, Dispatched (tokensOf (.node a es :: vs)) json ps ∧
        List.Forall₂ (OwnPart (tokensOf (.node a es :: vs)) json) ps (placed 1 es)) ↔ InStep json vs es) ∧
      ∀ ps, Dispatched (tokensOf (.node a es :: vs)) json ps → ps ≠ [] →
        ∀ (W : Type) (handlers : Method → Handler W) (s : Session W),
          dispatchRequest handlers (tokensOf (.node a es :: vs)) json s =
            (serveParts handlers (tokensOf (.node a es :: vs)) json (ps.map Prod.snd) (s,0)).map closeBatch := by
  refine ⟨?_,fun ps hps hne W handlers s => dispatchRequest_dispatched handlers hps hne s⟩
  have htoks : tokensOf (.node a es :: vs) = Label.token (a,es.length) :: tokensOf (es ++ vs) :=
    Jsmn.tokensOf_node a es vs
  have hdispatched : ∀ ps, Dispatched (tokensOf (.node a es :: vs)) json ps ↔
      if es = [] then ps = [] else Visits (tokensOf (.node a es :: vs)) json 1 ps := by
    intro ps
    have hsize : es.length = 0 ↔ es = [] := List.length_eq_zero_iff
    simp only [Dispatched,htoks,List.head?_cons,Option.some.injEq,exists_eq_left',Label.token,ha,true_and,hsize]
  simp only [hdispatched]
  by_cases hnil : es = []
  · subst hnil
    simp [placed,InStep]
  · simp only [if_neg hnil]
    refine visits_iff hes hvs hnil ?_
    rw [htoks]
    rfl

end Batch

section Samples

def plainMembers (pos : ℕ) : List (Label × Rose Label) :=
  [(⟨.string,pos + 2,pos + 9⟩,.node ⟨.string,pos + 12,pos + 15⟩ []),
   (⟨.string,pos + 18,pos + 24⟩,.node ⟨.string,pos + 27,pos + 30⟩ []),
   (⟨.string,pos + 33,pos + 35⟩,.node ⟨.primitive,pos + 37,pos + 38⟩ [])]

/-- A request of 39 bytes. -/
def plainRequest (pos : ℕ) : Rose Label := .node ⟨.object,pos,pos + 39⟩ ((plainMembers pos).map keyNode)

/-- Two requests. -/
def plainJson : List UInt8 :=
  ascii "[\x7b\"jsonrpc\":\"2.0\",\"method\":\"tag\",\"id\":1\x7d," ++
  ascii "\x7b\"jsonrpc\":\"2.0\",\"method\":\"tag\",\"id\":2\x7d]"

theorem plainRequest_shaped (pos : ℕ) : Shaped (plainRequest pos) := by
  refine .object _ (plainMembers pos) rfl ?_ ?_
  · simp [plainMembers]
  · intro m hm
    simp only [plainMembers,List.mem_cons,List.not_mem_nil,or_false] at hm
    rcases hm with rfl | rfl | rfl
    · exact .leaf _ (Or.inl rfl)
    · exact .leaf _ (Or.inl rfl)
    · exact .leaf _ (Or.inr rfl)

theorem batch_elements_iff_plain :
    parseTokens plainJson = some (tokensOf [.node ⟨.array,0,81⟩ [plainRequest 1,plainRequest 41]]) ∧
    ∃ ps, Dispatched (tokensOf [.node ⟨.array,0,81⟩ [plainRequest 1,plainRequest 41]]) plainJson ps ∧
      List.Forall₂ (OwnPart (tokensOf [.node ⟨.array,0,81⟩ [plainRequest 1,plainRequest 41]]) plainJson) ps
        (placed 1 [plainRequest 1,plainRequest 41]) := by
  have hnone : ∀ v ∈ ([] : List (Rose Label)), Shaped v := fun v hv => (List.not_mem_nil hv).elim
  have hsame : ∀ cs, readOn cs = ([],false) → ∀ e, Undisturbed plainJson e cs :=
    fun cs hcs e _ => Or.inr (Or.inl (by simp [hcs]))
  refine ⟨by decide +kernel,(batch_elements_iff rfl ?_ hnone).1.mpr ?_⟩
  · intro e he
    simp only [List.mem_cons,List.not_mem_nil,or_false] at he
    rcases he with rfl | rfl <;> exact plainRequest_shaped _
  · exact ⟨hsame _ rfl _,fun _ => by decide +kernel,hsame _ rfl _,fun _ => rfl,fun _ => by decide +kernel⟩

/-- A batch, and a notification right behind it. -/
def pipelinedJson : List UInt8 := ascii "[3]" ++ ascii "\x7b\"jsonrpc\":\"2.0\",\"method\":\"power_toggle\"\x7d"

def pipelinedToks : List Token := (parseTokens pipelinedJson).getD []

def toggleMembers : List (Label × Rose Label) :=
  [(⟨.string,5,12⟩,.node ⟨.string,15,18⟩ []),(⟨.string,21,27⟩,.node ⟨.string,30,42⟩ [])]

/-- A batch of one notification, and the name and the value of its parameters behind the batch. -/
def borrowedJson : List UInt8 :=
  ascii "[\x7b\"jsonrpc\":\"2.0\",\"method\":\"power_on\"\x7d]" ++ ascii "\"params\"[\"*\"]"

def borrowedToks : List Token := (parseTokens borrowedJson).getD []

/-- The notification behind a batch is dispatched as if it were a part of the batch, and one in
a batch takes its parameters from behind it. -/
theorem pipelined_request_dispatched :
    pipelinedToks = tokensOf [.node ⟨.array,0,3⟩ [.node ⟨.primitive,1,2⟩ []],
      .node ⟨.object,3,44⟩ (toggleMembers.map keyNode)] ∧
    Dispatched pipelinedToks pipelinedJson [(1,.notObject),(2,.call .powerToggle ⟨some 6,none,0,none,5⟩)] ∧
    (¬ ∃ ps, Dispatched pipelinedToks pipelinedJson ps ∧
      List.Forall₂ (OwnPart pipelinedToks pipelinedJson) ps (placed 1 [.node ⟨.primitive,1,2⟩ []])) ∧
    Dispatched borrowedToks borrowedJson [(1,.call .powerOn ⟨some 5,some 7,2,none,8⟩)] ∧
    elementPart (borrowedToks.take 6) borrowedJson 1 = .ok (.call .powerOn ⟨some 5,none,0,none,5⟩,6) := by
  have hfirst : elementPart pipelinedToks pipelinedJson 1 = .ok (.notObject,2) := by decide +kernel
  have hsecond : elementPart pipelinedToks pipelinedJson 2 =
      .ok (.call .powerToggle ⟨some 6,none,0,none,5⟩,7) := by decide +kernel
  have hvisits : Visits pipelinedToks pipelinedJson 1
      [(1,.notObject),(2,.call .powerToggle ⟨some 6,none,0,none,5⟩)] :=
    .visit (by decide +kernel) hfirst (.visit (by decide +kernel) hsecond (.done (by decide +kernel)))
  have hboth : Dispatched pipelinedToks pipelinedJson
      [(1,.notObject),(2,.call .powerToggle ⟨some 6,none,0,none,5⟩)] :=
    ⟨⟨.array,0,3,1⟩,by decide +kernel,rfl,hvisits⟩
  have hborrowed : elementPart borrowedToks borrowedJson 1 =
      .ok (.call .powerOn ⟨some 5,some 7,2,none,8⟩,9) := by decide +kernel
  refine ⟨by decide +kernel,hboth,?_,?_,by decide +kernel⟩
  · rintro ⟨ps,hps,hown⟩
    rw [hps.unique hboth] at hown
    cases hown.length_eq
  · exact ⟨⟨.array,0,39,1⟩,by decide +kernel,rfl,
      .visit (by decide +kernel) hborrowed (.done (by decide +kernel))⟩

end Samples
end Lightsd.Core.Jsonrpc
