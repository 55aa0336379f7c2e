import Lightsd.Core.JsmnPrefix

/-! # What the tokenizer says about the bytes that have arrived

The bytes that have arrived of a sequence of containers end between two values or inside
one. Between values, the tokenizer accepts them if the token array is large enough.
Inside a value, it reports a partial text instead, except that the counting pass only
notices an unfinished string or primitive. Too small an array is reported first.
-/
namespace Lightsd.Core.Jsmn

open OrderedTree Scan Json

variable {segs : Stream} {space : List UInt8}

/-- The number of tokens begun in a text; a string or a primitive counts when it is
complete. -/
def tokenCount (js : List UInt8) : ℕ :=
  match run none Scan.start js with
  | .reading _ _ p => p.count
  | _ => 0

/-- The machine reads a prefix of an acceptable text, whatever the size of its array. -/
theorem run_prefix {cap pos : ℕ} {js ks : List UInt8} {p : Parser}
    (h : run (some cap) Scan.start (js ++ ks) = .reading .normal pos p) :
    ∃ mode q, run (some cap) Scan.start js = .reading mode js.length q ∧ q.tokens.length = tokenCount js ∧
      Extends js.length {} q ∧ Extends pos q p ∧
      ∀ cap', Follows cap' mode js.length q (run (some cap') Scan.start js) (run none Scan.start js) := by
  rw [run_append] at h
  cases hjs : run (some cap) Scan.start js with
  | failed e =>
    rw [hjs,run_failed] at h
    cases h
  | halted q =>
    rw [hjs,run_halted] at h
    cases h
  | reading mode pos' q =>
    rw [hjs] at h
    have hspec : ∀ cap', pos' = 0 + js.length ∧ Extends pos' {} q ∧
        Follows cap' mode pos' q (run (some cap') Scan.start js) (run none Scan.start js) :=
      fun cap' => run_spec hjs rfl (Nat.zero_le cap') (fun hne => absurd rfl hne)
    obtain ⟨hpos,hext,hfollows⟩ := hspec 0
    rw [Nat.zero_add] at hpos
    subst hpos
    have hcount : q.tokens.length = tokenCount js := by
      rw [tokenCount,hfollows.counting,← hfollows.count]
    have hmode : mode ≠ .normal → 0 < js.length := by
      intro hne
      rcases List.eq_nil_or_concat js with rfl | ⟨cs,c,rfl⟩
      · exact absurd (Scan.reading.inj hjs).1.symm hne
      · simp
    obtain ⟨-,hext',-⟩ := run_spec h hfollows.count le_rfl hmode
    exact ⟨mode,q,rfl,hcount,hext,hext',fun cap' => (hspec cap').2.2⟩

theorem parse_eq_of_follows {cap pos : ℕ} {js : List UInt8} {mode : Mode} {q : Parser}
    (h : Follows cap mode pos q (run (some cap) Scan.start js) (run none Scan.start js)) :
    parse js (some cap) =
      if q.tokens.length ≤ cap then (Scan.reading mode pos q).result else .error .nomem := by
  rw [parse_eq]
  by_cases hfits : q.tokens.length ≤ cap
  · rw [h.fits hfits,if_pos hfits]
  · rw [h.full (not_le.mp hfits),if_neg hfits]
    rfl

/-- Between two values the tokenizer accepts. -/
theorem parse_between (hsegs : segs.Containers) (hspace : Space space) :
    tokenCount (segs.text ++ space) = counts (segs.nodes 0) ∧
    parse (segs.text ++ space) none = .ok { count := tokenCount (segs.text ++ space) } ∧
    ∃ p, p.tokens = tokensOf (segs.nodes 0) ∧ p.count = counts (segs.nodes 0) ∧
      ∀ cap, parse (segs.text ++ space) (some cap) =
        if tokenCount (segs.text ++ space) ≤ cap then .ok p else .error .nomem := by
  obtain ⟨p,hrun,htokens,hcount,-⟩ := parse_stream hsegs hspace le_rfl
  have hfollows : ∀ cap, Follows cap .normal _ p (run (some cap) Scan.start (segs.text ++ space))
      (run none Scan.start (segs.text ++ space)) :=
    fun cap => (run_spec hrun rfl (Nat.zero_le cap) (fun hne => absurd rfl hne)).2.2
  have hnone := (hfollows 0).counting
  have htc : tokenCount (segs.text ++ space) = p.count := by
    rw [tokenCount,hnone]
  refine ⟨htc.trans hcount,?_,p,htokens,hcount,fun cap => ?_⟩
  · rw [parse_eq,hnone,htc]
    rfl
  · rw [parse_eq_of_follows (hfollows cap),htc,(hfollows cap).count]
    congr 1
    exact finish_eq htokens

theorem finish_open {p : Parser} {k : ℕ} (hk : k < p.tokens.length) (h : p.stopAt k = -1) :
    finish p = .error .part := by
  refine if_pos (List.any_eq_true.mpr ⟨p.tokens[k],List.getElem_mem hk,decide_eq_true ?_⟩)
  rwa [Parser.stopAt,List.getElem?_eq_getElem hk] at h

/-- The token of the last of several containers. -/
theorem stopAt_last {v : Value} (hv : v.IsContainer) {p : Parser}
    (h : p.tokens = tokensOf (Stream.nodes 0 (segs ++ [(space,v)]))) :
    p.stopAt (counts (segs.nodes 0)) = (segs.text.length + space.length + v.text.length : ℕ) := by
  obtain ⟨type,-,-,-,-,hnode⟩ := hv.text_node
  obtain ⟨children,hnode⟩ := hnode (0 + segs.text.length + space.length)
  rw [Parser.stopAt,h,Stream.nodes_append,tokensOf_append,← tokensOf_length,
    List.getElem?_append_right le_rfl,Nat.sub_self,Stream.nodes,hnode,tokensOf_node]
  simp only [Label.token,List.getElem?_cons_zero,Option.map_some,Option.getD_some,Nat.zero_add]

theorem opened_inside (hsegs : segs.Containers) (hspace : Space space) {v : Value} (hv : v.IsContainer)
    {r r' : List UInt8} (hr : r ≠ []) (htext : v.text = r ++ r') {cap : ℕ} (hcap : counts (segs.nodes 0) < cap)
    {mode : Mode} {pos : ℕ} {q : Parser}
    (h : run (some cap) Scan.start (segs.text ++ space ++ r) = .reading mode pos q) :
    counts (segs.nodes 0) < q.tokens.length := by
  obtain ⟨type,c,rest,hc,hk,-⟩ := hv.text_node
  obtain ⟨r₀,rfl⟩ : ∃ r₀, r = c :: r₀ := by
    cases r with
    | nil => exact absurd rfl hr
    | cons c' r₀ =>
      rw [hc,List.cons_append] at htext
      exact ⟨r₀,by rw [(List.cons.inj htext).1]⟩
  obtain ⟨p₀,hrun₀,htokens₀,hcount₀,-⟩ := parse_stream hsegs hspace hcap.le
  have hlen₀ : p₀.tokens.length = counts (segs.nodes 0) := by
    rw [htokens₀,tokensOf_length]
  rw [run_append,hrun₀,run_opening hk (hlen₀.trans_lt hcap)] at h
  have hcount : (p₀.entered ⟨type,segs.text.length + space.length,-1,0⟩).count =
      (p₀.entered ⟨type,segs.text.length + space.length,-1,0⟩).tokens.length := by
    rw [entered_length,hlen₀,← hcount₀]
    rfl
  obtain ⟨-,hext,-⟩ := run_spec h hcount le_rfl (fun hne => absurd rfl hne)
  have hlen := hext.length
  rw [entered_length,hlen₀] at hlen
  exact hlen

/-- Inside a container the tokenizer finds the container open. -/
theorem open_inside (hsegs : segs.Containers) (hspace : Space space) {v : Value} (hv : v.Valid)
    (hcontainer : v.IsContainer) {r r' : List UInt8} (hr : r ≠ []) (hr' : r' ≠ []) (htext : v.text = r ++ r') :
    ∃ mode q, finish q = .error .part ∧ 0 < q.tokens.length ∧
      q.tokens.length = tokenCount (segs.text ++ space ++ r) ∧
      ∀ cap, Follows cap mode (segs.text ++ space ++ r).length q
        (run (some cap) Scan.start (segs.text ++ space ++ r))
        (run none Scan.start (segs.text ++ space ++ r)) := by
  have hall : Stream.Containers (segs ++ [(space,v)]) := by
    intro s hs
    rcases List.mem_append.mp hs with hs | hs
    · exact hsegs s hs
    · rw [List.mem_singleton.mp hs]
      exact ⟨hspace,hv,hcontainer⟩
  have hnil : Space [] := nofun
  obtain ⟨p,hrun,htokens,-,-⟩ := parse_stream hall hnil le_rfl
  have hsplit : Stream.text (segs ++ [(space,v)]) ++ [] = (segs.text ++ space ++ r) ++ r' := by
    rw [Stream.text_append,Stream.text_cons,Stream.text_nil,htext]
    simp only [List.append_nil,List.append_assoc]
  have hcap : counts (segs.nodes 0) < counts (Stream.nodes 0 (segs ++ [(space,v)])) := by
    rw [Stream.nodes_append,counts_append,Stream.nodes,counts_cons]
    have hpos := count_pos (v.node (0 + segs.text.length + space.length))
    omega
  rw [hsplit] at hrun
  obtain ⟨mode,q,hq,htc,hext,hext',hfollows⟩ := run_prefix hrun
  have hopened := opened_inside hsegs hspace hcontainer hr htext hcap hq
  refine ⟨mode,q,finish_open hopened ?_,by omega,htc,hfollows⟩
  have hlast := stopAt_last hcontainer htokens
  have hlen : v.text.length = r.length + r'.length := by
    rw [htext,List.length_append]
  have hlen' := List.length_pos_of_ne_nil hr'
  rcases hext'.stop (counts (segs.nodes 0)) with heq | ⟨hopen,-⟩
  · rcases hext.stop (counts (segs.nodes 0)) with heq' | ⟨-,-,hle⟩
    · exact heq'
    · rw [← heq,hlast] at hle
      simp only [List.length_append] at hle
      omega
  · exact hopen

theorem result_of_finish {mode : Mode} {pos : ℕ} {q : Parser} (h : finish q = .error .part) :
    (Scan.reading mode pos q).result = .error .part := by
  cases mode with
  | normal => exact h
  | string start m => rfl
  | primitive start => rfl

/-- Inside a value the tokenizer reports a partial text, or that there are more tokens
than it has room for. -/
theorem parse_inside (hsegs : segs.Containers) (hspace : Space space) {v : Value} (hv : v.Valid)
    (hcontainer : v.IsContainer) {r r' : List UInt8} (hr : r ≠ []) (hr' : r' ≠ []) (htext : v.text = r ++ r') :
    0 < tokenCount (segs.text ++ space ++ r) ∧
    (parse (segs.text ++ space ++ r) none = .error .part ∨
      parse (segs.text ++ space ++ r) none = .ok { count := tokenCount (segs.text ++ space ++ r) }) ∧
    ∀ cap, parse (segs.text ++ space ++ r) (some cap) =
      if tokenCount (segs.text ++ space ++ r) ≤ cap then .error .part else .error .nomem := by
  obtain ⟨mode,q,hfinish,hpos,htc,hfollows⟩ := open_inside hsegs hspace hv hcontainer hr hr' htext
  refine ⟨htc ▸ hpos,?_,fun cap => ?_⟩
  · rw [parse_eq,(hfollows 0).counting,(hfollows 0).count,htc]
    cases mode with
    | normal => exact Or.inr rfl
    | string start m => exact Or.inl rfl
    | primitive start => exact Or.inl rfl
  · rw [parse_eq_of_follows (hfollows cap),htc,result_of_finish hfinish]

section Accepted

variable {cap pos : ℕ} {p q : Parser} {mode : Mode} {c : UInt8}

theorem ofParser_ne_halted (mode : Mode) (pos : ℕ) (r : Except ParseError Parser) (q : Parser) :
    ofParser mode pos r ≠ .halted q := by
  cases r <;> exact nofun

theorem enter_ne_halted (numTokens : Option ℕ) (p : Parser) (pos : ℕ) (c : UInt8) (q : Parser) :
    enter numTokens p pos c ≠ .halted q := by
  unfold enter
  split
  · exact nofun
  · split <;> exact nofun
  · exact ofParser_ne_halted _ _ _ _

/-- Only a NUL byte between tokens halts the machine. -/
theorem step_halted {numTokens : Option ℕ} (h : step numTokens (.reading mode pos p) c = .halted q) :
    mode = .normal ∧ q = p := by
  cases mode with
  | normal =>
    simp only [step] at h
    split at h
    · exact ⟨rfl,(Scan.halted.inj h).symm⟩
    · exact absurd h (enter_ne_halted _ _ _ _ _)
  | string start m =>
    rcases string_cases m c [] with ⟨e,-,hstep⟩ | ⟨-,hstep⟩ | ⟨m',-,hstep⟩
    · rw [hstep] at h
      cases h
    · rw [hstep] at h
      exact absurd h (ofParser_ne_halted _ _ _ _)
    · rw [hstep] at h
      cases h
  | primitive start =>
    simp only [step,stepPrimitive] at h
    split at h
    · cases h
    · split at h
      · split at h
        · cases h
        · exact absurd h (enter_ne_halted _ _ _ _ _)
      · split at h <;> cases h

/-- The machine was reading between tokens where it accepted. -/
theorem exists_run_of_result {numTokens : Option ℕ} {js : List UInt8}
    (h : (run numTokens Scan.start js).result = .ok p) :
    finish p = .ok p ∧ ∃ js₀ pos, js₀ <+: js ∧ run numTokens Scan.start js₀ = .reading .normal pos p := by
  have hfinish : ∀ {q : Parser}, finish q = .ok p → finish p = .ok p ∧ q = p := by
    intro q hq
    have heq : q = p := by
      unfold finish at hq
      split at hq
      · cases hq
      · exact Except.ok.inj hq
    exact ⟨heq ▸ hq,heq⟩
  induction js using List.reverseRecOn with
  | nil =>
    obtain ⟨hp,heq⟩ := hfinish h
    exact ⟨hp,[],0,List.prefix_rfl,by rw [← heq]; rfl⟩
  | append_singleton js b ih =>
    have hrun : run numTokens Scan.start (js ++ [b]) = step numTokens (run numTokens Scan.start js) b := by
      rw [run_append]
      rfl
    cases hjs : run numTokens Scan.start (js ++ [b]) with
    | failed e =>
      rw [hjs] at h
      cases h
    | reading mode pos q =>
      rw [hjs] at h
      cases mode with
      | normal =>
        obtain ⟨hp,rfl⟩ := hfinish h
        exact ⟨hp,js ++ [b],pos,List.prefix_rfl,hjs⟩
      | string start m => cases h
      | primitive start => cases h
    | halted q =>
      have hprev : (run numTokens Scan.start js).result = .ok p := by
        rw [hjs] at h
        rw [hrun] at hjs
        cases hprev : run numTokens Scan.start js with
        | failed e =>
          rw [hprev] at hjs
          cases hjs
        | halted q' =>
          rw [hprev] at hjs
          rw [Scan.halted.inj hjs]
          exact h
        | reading mode pos q' =>
          rw [hprev] at hjs
          obtain ⟨rfl,rfl⟩ := step_halted hjs
          exact h
      obtain ⟨hp,js₀,pos,hpre,hrun₀⟩ := ih hprev
      exact ⟨hp,js₀,pos,hpre.trans (List.prefix_append _ _),hrun₀⟩

/-- A complete text ends its first token after some bytes, all of them in the text. -/
theorem stopAt_zero_of_parse {js : List UInt8} (h : parse js (some cap) = .ok p) (hcount : p.count ≠ 0) :
    0 < p.stopAt 0 ∧ p.stopAt 0 ≤ js.length := by
  rw [parse_eq] at h
  obtain ⟨hfinish,js₀,pos,hpre,hrun⟩ := exists_run_of_result h
  obtain ⟨hpos,hext,hfollows⟩ := run_spec hrun rfl (Nat.zero_le 0) (fun hne => absurd rfl hne)
  have hlen : p.tokens.length ≠ 0 := hfollows.count ▸ hcount
  have hle : js₀.length ≤ js.length := hpre.length_le
  have hopen : p.stopAt 0 ≠ -1 := by
    intro hstop
    rw [finish_open (Nat.pos_of_ne_zero hlen) hstop] at hfinish
    cases hfinish
  rcases hext.stop 0 with heq | ⟨-,hlo,hhi⟩
  · exact absurd heq hopen
  · exact ⟨hlo,by omega⟩

end Accepted
end Lightsd.Core.Jsmn
