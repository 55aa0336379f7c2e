import Lightsd.Core.ClientReads

/-! # What the read callback makes of a sequence of values

When the bytes in sight end between values, the values are dispatched one after the
other. When they end inside a value, nothing is dispatched; the buffer is pulled up if
that brings more bytes in sight, with the token array of the failed attempt if the
counting pass had not noticed that the text is partial.
-/
namespace Lightsd.Core

open OrderedTree Jsmn Json

namespace Json.Stream

/-- Where the values of a sequence begin, the white space before them included. -/
def offsets (pos : ℕ) : Stream → List ℕ
  | [] => []
  | (space,value) :: segs => pos :: offsets (pos + (space ++ value.text).length) segs

theorem offsets_append (pos : ℕ) (segs segs' : Stream) :
    offsets pos (segs ++ segs') = offsets pos segs ++ offsets (pos + segs.text.length) segs' := by
  induction segs generalizing pos with
  | nil => rfl
  | cons seg segs ih =>
    obtain ⟨space,value⟩ := seg
    rw [List.cons_append,offsets,offsets,ih,text_cons,List.cons_append]
    simp only [List.length_append,Nat.add_assoc]

theorem offsets_length (pos : ℕ) (segs : Stream) : (offsets pos segs).length = segs.length := by
  induction segs generalizing pos with
  | nil => rfl
  | cons seg segs ih =>
    obtain ⟨space,value⟩ := seg
    rw [offsets,List.length_cons,ih,List.length_cons]

end Json.Stream

namespace Client

variable {c c₁ r : Client} {segs : Stream} {space rest : List UInt8} {tokens : Option ℕ}

/-- Some values have been dispatched and removed from the buffer. -/
structure Advanced (c : Client) (segs : Stream) (r : Client) : Prop where
  calls : r.calls.map DispatchCall.offset = c.calls.map DispatchCall.offset ++ segs.offsets c.drained
  drained : r.drained = c.drained + segs.text.length
  input : c.input = segs.text ++ r.input

theorem Advanced.refl (c : Client) : Advanced c [] c := ⟨(List.append_nil _).symm,rfl,rfl⟩

theorem Advanced.trans {segs' : Stream} (h : Advanced c segs c₁) (h' : Advanced c₁ segs' r) :
    Advanced c (segs ++ segs') r where
  calls := by rw [h'.calls,h.calls,h.drained,Stream.offsets_append,List.append_assoc]
  drained := by rw [h'.drained,h.drained,Stream.text_append,List.length_append,Nat.add_assoc]
  input := by rw [h.input,h'.input,Stream.text_append,List.append_assoc]

/-- The token array, if there is one, is large enough for a text. -/
def Roomy (tokens : Option ℕ) (js : List UInt8) : Prop := ∀ cap, tokens = some cap → tokenCount js ≤ cap

theorem roomy_none (js : List UInt8) : Roomy none js := nofun

theorem take_input (h : c.input = space ++ rest) : c.input.take space.length = space := by
  rw [h,List.take_left]

theorem requestSize_stream {v : Value} (hv : v.IsContainer) {p : Parser}
    (h : p.tokens = tokensOf (Stream.nodes 0 ((space,v) :: segs))) :
    requestSize p = (space ++ v.text).length := by
  obtain ⟨type,-,-,-,-,hnode⟩ := hv.text_node
  obtain ⟨children,hnode⟩ := hnode (0 + space.length)
  rw [requestSize,h,Stream.nodes,hnode,tokensOf_node]
  simp only [Label.token,List.head?_cons,Option.map_some,Option.getD_some,Int.toNat_natCast,
    List.length_append,Nat.zero_add]

theorem advanced_dispatch {before : List UInt8} {v : Value} (hin : c.input = (before ++ v.text) ++ rest)
    (nbytes : ℕ) (ts : List Token) :
    Advanced c [(before,v)] ((c.dispatchRequest nbytes ts).drain (before ++ v.text).length) ∧
      ((c.dispatchRequest nbytes ts).drain (before ++ v.text).length).input = rest := by
  have hrest : ((c.dispatchRequest nbytes ts).drain (before ++ v.text).length).input = rest := by
    simp only [drain,dispatchRequest,hin,List.drop_left]
  have htext : Stream.text [(before,v)] = before ++ v.text := by
    rw [Stream.text_cons,Stream.text_nil,List.append_nil]
  refine ⟨⟨?_,?_,?_⟩,hrest⟩
  · simp only [drain,dispatchRequest,List.map_append,Stream.offsets]
    rfl
  · simp only [drain,dispatchRequest,hin,htext]
    rw [min_eq_left (List.prefix_append (before ++ v.text) rest).length_le]
  · rw [hrest,htext,hin]

/-- The first of the values in sight is dispatched. -/
theorem readRound_dispatch {v : Value} {before : List UInt8}
    (hsegs : Stream.Containers ((before,v) :: segs)) (hspace : Space space)
    (hin : c.input = (Stream.text ((before,v) :: segs) ++ space) ++ rest) {cap : ℕ}
    (hcap : tokenCount (Stream.text ((before,v) :: segs) ++ space) ≤ cap) :
    ∃ c₁, Advanced c [(before,v)] c₁ ∧ c₁.input = (segs.text ++ space) ++ rest ∧
      c.readRound (Stream.text ((before,v) :: segs) ++ space).length (some cap) =
        if segs.text ++ space = [] then c₁.resume none
        else .again c₁ (segs.text ++ space).length none := by
  obtain ⟨-,-,hcontainer⟩ := hsegs _ List.mem_cons_self
  obtain ⟨htc,-,p,htokens,hcount,hparse⟩ := parse_between hsegs hspace
  have hparse := hparse cap
  rw [if_pos hcap] at hparse
  have hcount' : p.count ≠ 0 := by
    rw [hcount,Stream.nodes,counts_cons]
    have hpos := count_pos (v.node (0 + before.length))
    omega
  have hsize := requestSize_stream hcontainer htokens
  have hsplit : Stream.text ((before,v) :: segs) ++ space = (before ++ v.text) ++ (segs.text ++ space) := by
    rw [Stream.text_cons,List.append_assoc]
  rw [← take_input hin] at hparse
  have hround : c.readRound (Stream.text ((before,v) :: segs) ++ space).length (some cap) =
      c.dispatchAndDrain (Stream.text ((before,v) :: segs) ++ space).length p := by
    unfold readRound
    rw [hparse]
    exact if_neg hcount'
  rw [hsplit,List.append_assoc] at hin
  have hlen : (Stream.text ((before,v) :: segs) ++ space).length =
      (before ++ v.text).length + (segs.text ++ space).length := by
    rw [hsplit]
    exact List.length_append
  obtain ⟨hadv,hrest⟩ := advanced_dispatch hin (Stream.text ((before,v) :: segs) ++ space).length p.tokens
  refine ⟨_,hadv,hrest,?_⟩
  rw [hround,dispatchAndDrain,hsize]
  simp only
  rw [hlen,Nat.add_sub_cancel_left]
  by_cases hnil : segs.text ++ space = []
  · rw [if_pos hnil,if_neg (by rw [hnil]; exact lt_irrefl _)]
  · have hpos := List.length_pos_of_ne_nil hnil
    rw [if_neg hnil,if_pos (by omega)]

theorem readRound_retry {js : List UInt8} {n : ℕ} (hin : c.input = js ++ rest) (hn : n ≠ 0)
    (hparse : parse js none = .ok { count := n }) :
    c.readRound js.length none = .again c js.length (some n) := by
  unfold readRound
  rw [take_input hin,hparse]
  exact if_neg hn

theorem readRound_wait {js : List UInt8} (hin : c.input = js ++ rest)
    (hparse : parse js tokens = .error .part ∨ ∃ p, parse js tokens = .ok p ∧ p.count = 0) :
    c.readRound js.length tokens = c.waitForMore js.length tokens := by
  unfold readRound
  rw [take_input hin]
  rcases hparse with hpart | ⟨p,hok,hcount⟩
  · rw [hpart]
  · rw [hok]
    exact if_pos hcount

/-- Nothing is dispatched, and the callback returns with everything still there. -/
theorem waitForMore_whole (hsmall : c.input.length ≤ maxRequestBufSize) :
    c.waitForMore c.input.length tokens = .done c :=
  (if_neg (not_lt.mpr hsmall)).trans (if_pos rfl)

theorem waitForMore_pullup (hsmall : c.input.length ≤ maxRequestBufSize) {n : ℕ} (hn : n < c.input.length) :
    c.waitForMore n tokens = .again c c.input.length tokens := by
  have hne : c.input ≠ [] := List.ne_nil_of_length_pos (Nat.zero_lt_of_lt hn)
  exact ((if_neg (not_lt.mpr hsmall)).trans (if_neg hn.ne)).trans (if_neg hne)

theorem Reads.resume {n : ℕ} {tokens' : Option ℕ} (hround : c.readRound n tokens = c₁.resume tokens')
    (h : Reads c₁ c₁.input.length tokens' r) : Reads c n tokens r := by
  by_cases hnil : c₁.input = []
  · have hdone : c₁.readRound c₁.input.length tokens' = .done c₁ := by
      have hin : c₁.input = c₁.input ++ [] := (List.append_nil _).symm
      rw [readRound_wait hin (Or.inr ⟨{},by rw [hnil]; cases tokens' <;> rfl,rfl⟩)]
      exact waitForMore_whole (by rw [hnil]; exact Nat.zero_le _)
    rw [Client.resume,if_pos hnil] at hround
    cases h with
    | done h =>
      rw [hdone] at h
      rw [← Round.done.inj h]
      exact .done hround
    | again h _ =>
      rw [hdone] at h
      cases h
  · rw [Client.resume,if_neg hnil] at hround
    exact .again hround h

/-- The first of the values in sight is dispatched, whether or not there is a token array
already. -/
theorem reads_first {v : Value} {before : List UInt8} (hsegs : Stream.Containers ((before,v) :: segs))
    (hspace : Space space) (hin : c.input = (Stream.text ((before,v) :: segs) ++ space) ++ rest)
    (hroom : Roomy tokens (Stream.text ((before,v) :: segs) ++ space)) :
    ∃ c₁, Advanced c [(before,v)] c₁ ∧ c₁.input = (segs.text ++ space) ++ rest ∧
      ∀ r, Reads c₁ (if segs.text ++ space = [] then c₁.input.length else (segs.text ++ space).length) none r →
        Reads c (Stream.text ((before,v) :: segs) ++ space).length tokens r := by
  have hsome : ∀ cap, tokenCount (Stream.text ((before,v) :: segs) ++ space) ≤ cap →
      ∃ c₁, Advanced c [(before,v)] c₁ ∧ c₁.input = (segs.text ++ space) ++ rest ∧
        ∀ r, Reads c₁ (if segs.text ++ space = [] then c₁.input.length else (segs.text ++ space).length) none r →
          Reads c (Stream.text ((before,v) :: segs) ++ space).length (some cap) r := by
    intro cap hcap
    obtain ⟨c₁,hadv,hrest,hround⟩ := readRound_dispatch hsegs hspace hin hcap
    refine ⟨c₁,hadv,hrest,fun r hr => ?_⟩
    by_cases hnil : segs.text ++ space = []
    · rw [if_pos hnil] at hround hr
      exact Reads.resume hround hr
    · rw [if_neg hnil] at hround hr
      exact .again hround hr
  cases tokens with
  | some cap => exact hsome cap (hroom cap rfl)
  | none =>
    obtain ⟨c₁,hadv,hrest,hr⟩ := hsome _ le_rfl
    obtain ⟨htc,hnone,-⟩ := parse_between hsegs hspace
    have hpos : tokenCount (Stream.text ((before,v) :: segs) ++ space) ≠ 0 := by
      rw [htc,Stream.nodes,counts_cons]
      have hpos := count_pos (v.node (0 + before.length))
      omega
    exact ⟨c₁,hadv,hrest,fun r h => .again (readRound_retry hin hpos hnone) (hr r h)⟩

theorem containers_nil : Stream.Containers [] := nofun

theorem parse_space (hspace : Space space) (tokens : Option ℕ) :
    ∃ p, parse space tokens = .ok p ∧ p.count = 0 := by
  obtain ⟨htc,hnone,p,-,hcount,hsome⟩ := parse_between containers_nil hspace
  rw [Stream.text_nil,List.nil_append] at htc hnone hsome
  rw [Stream.nodes,counts_nil] at htc hcount
  cases tokens with
  | none => exact ⟨_,hnone,htc⟩
  | some cap => exact ⟨p,by rw [hsome,htc,if_pos (Nat.zero_le _)],hcount⟩

/-- The whole buffer is in sight and ends between values: all values are dispatched. -/
theorem reads_whole_between (hsegs : segs.Containers) (hspace : Space space)
    (hsmall : space.length ≤ maxRequestBufSize) (hin : c.input = segs.text ++ space)
    (hroom : Roomy tokens c.input) : ∃ r, Reads c c.input.length tokens r ∧ Advanced c segs r := by
  induction segs generalizing c tokens with
  | nil =>
    rw [Stream.text_nil,List.nil_append] at hin
    have hround := readRound_wait (hin.trans (List.append_nil _).symm) (Or.inr (parse_space hspace tokens))
    rw [← hin,waitForMore_whole (hin ▸ hsmall)] at hround
    exact ⟨c,.done hround,.refl c⟩
  | cons seg segs ih =>
    obtain ⟨before,v⟩ := seg
    obtain ⟨c₁,hadv,hrest,hfirst⟩ := reads_first hsegs hspace (hin.trans (List.append_nil _).symm) (hin ▸ hroom)
    rw [List.append_nil] at hrest
    obtain ⟨r,hr,hadv'⟩ := ih (fun s hs => hsegs s (List.mem_cons_of_mem _ hs)) hrest (roomy_none _)
    refine ⟨r,?_,hadv.trans hadv'⟩
    rw [hin]
    refine hfirst r ?_
    rw [← hrest,ite_self]
    exact hr

/-- The first chain ends between values: its values are dispatched, and the callback goes
on with the white space at its end, or else with the rest of the buffer. -/
theorem reads_chain_between (hsegs : segs.Containers) (hspace : Space space)
    (hin : c.input = (segs.text ++ space) ++ rest) (hne : segs.text ++ space ≠ []) :
    ∃ c₁, Advanced c segs c₁ ∧ c₁.input = space ++ rest ∧
      ∀ r, Reads c₁ (if space = [] then c₁.input.length else space.length) none r →
        Reads c (segs.text ++ space).length none r := by
  induction segs generalizing c with
  | nil =>
    rw [Stream.text_nil,List.nil_append] at hin hne ⊢
    exact ⟨c,.refl c,hin,fun r hr => by rwa [if_neg hne] at hr⟩
  | cons seg segs ih =>
    obtain ⟨before,v⟩ := seg
    obtain ⟨c₁,hadv,hrest,hfirst⟩ := reads_first hsegs hspace hin (roomy_none _)
    by_cases hnil : Stream.text segs ++ space = []
    · obtain ⟨-,hspace'⟩ := List.append_eq_nil_iff.mp hnil
      obtain rfl : segs = [] := by
        cases segs with
        | nil => rfl
        | cons seg' segs =>
          obtain ⟨before',v'⟩ := seg'
          obtain ⟨-,-,hcontainer⟩ := hsegs _ (List.mem_cons_of_mem _ List.mem_cons_self)
          obtain ⟨-,c',rest',htext,-⟩ := hcontainer.text_node
          simp only at htext
          rw [Stream.text_cons,htext] at hnil
          simp at hnil
      refine ⟨c₁,hadv,hrest,fun r hr => hfirst r ?_⟩
      rw [if_pos hnil]
      rwa [if_pos hspace'] at hr
    · obtain ⟨c₂,hadv',hrest',hchain⟩ := ih (fun s hs => hsegs s (List.mem_cons_of_mem _ hs)) hrest hnil
      refine ⟨c₂,hadv.trans hadv',hrest',fun r hr => hfirst r ?_⟩
      rw [if_neg hnil]
      exact hchain r hr

section Inside

variable {v : Value} {part part' : List UInt8}

/-- The whole buffer is in sight and ends inside its first value: nothing is dispatched. -/
theorem reads_whole_inside (hspace : Space space) (hv : v.Valid) (hcontainer : v.IsContainer)
    (hpart : part ≠ []) (hpart' : part' ≠ []) (htext : v.text = part ++ part')
    (hsmall : c.input.length ≤ maxRequestBufSize) (hin : c.input = space ++ part)
    (hroom : Roomy tokens c.input) : Reads c c.input.length tokens c := by
  obtain ⟨hpos,hnone,hsome⟩ := parse_inside containers_nil hspace hv hcontainer hpart hpart' htext
  rw [Stream.text_nil,List.nil_append,← hin] at hpos hnone hsome
  have hself : c.input = c.input ++ [] := (List.append_nil _).symm
  have hfill : ∀ cap, tokenCount c.input ≤ cap → Reads c c.input.length (some cap) c := by
    intro cap hcap
    refine .done ?_
    rw [readRound_wait hself (Or.inl ((hsome cap).trans (if_pos hcap))),waitForMore_whole hsmall]
  cases tokens with
  | some cap => exact hfill cap (hroom cap rfl)
  | none =>
    rcases hnone with hunfinished | hok
    · refine .done ?_
      rw [readRound_wait hself (Or.inl hunfinished),waitForMore_whole hsmall]
    · exact .again (readRound_retry hself hpos.ne' hok) (hfill _ le_rfl)

/-- The first chain ends inside a value: the buffer is pulled up, with a token array for
the chain unless the counting pass had noticed that the chain is partial. -/
theorem reads_chain_inside (hsegs : segs.Containers) (hspace : Space space) (hv : v.Valid)
    (hcontainer : v.IsContainer) (hpart : part ≠ []) (hpart' : part' ≠ []) (htext : v.text = part ++ part')
    (hsmall : c.input.length ≤ maxRequestBufSize) (hin : c.input = (segs.text ++ space ++ part) ++ rest)
    (hrest : rest ≠ []) :
    ∃ tokens', (tokens' = none ∨ parse (segs.text ++ space ++ part) none ≠ .error .part ∧
        tokens' = some (tokenCount (segs.text ++ space ++ part))) ∧
      ∀ r, Reads c c.input.length tokens' r → Reads c (segs.text ++ space ++ part).length none r := by
  obtain ⟨hpos,hnone,hsome⟩ := parse_inside hsegs hspace hv hcontainer hpart hpart' htext
  have hlt : (segs.text ++ space ++ part).length < c.input.length := by
    have hlen := List.length_pos_of_ne_nil hrest
    simp only [hin,List.length_append]
    omega
  rcases hnone with hunfinished | hok
  · have hround := readRound_wait hin (Or.inl hunfinished)
    rw [waitForMore_pullup hsmall hlt] at hround
    exact ⟨none,Or.inl rfl,fun r hr => .again hround hr⟩
  · have hround := readRound_wait hin (Or.inl ((hsome _).trans (if_pos le_rfl)))
    rw [waitForMore_pullup hsmall hlt] at hround
    refine ⟨_,Or.inr ⟨?_,rfl⟩,fun r hr => .again (readRound_retry hin hpos.ne' hok) (.again hround hr)⟩
    rw [hok]
    exact nofun

end Inside

/-- White space at the end of the first chain makes the callback pull up the buffer. -/
theorem reads_space (hspace : Space space) (hsmall : c.input.length ≤ maxRequestBufSize)
    (hin : c.input = space ++ rest) (hrest : rest ≠ []) (h : Reads c c.input.length none r) :
    Reads c space.length none r := by
  have hlt : space.length < c.input.length := by
    rw [hin,List.length_append]
    have hlen := List.length_pos_of_ne_nil hrest
    omega
  have hround := readRound_wait hin (Or.inr (parse_space hspace none))
  rw [waitForMore_pullup hsmall hlt] at hround
  exact .again hround h

end Client
end Lightsd.Core
