import Lightsd.Core.JsmnStreams

/-! # The tokenizer on prefixes

What a read from a socket leaves in the buffer is a prefix of the text. The machine reads
a prefix of an acceptable text without failing; with a smaller token array it does the
same until the array is full, and the counting pass does the same without any array. A
token that has been closed stays as it is, so a container is open in every proper prefix
of its text.
-/
namespace Lightsd.Core.Jsmn

open OrderedTree Scan Json

variable {cap cap' pos pos' : ℕ} {p q : Parser} {mode mode' : Mode} {c : UInt8}

theorem complete_some (cap : ℕ) (p : Parser) (tok : Token) :
    complete (some cap) p tok = if cap ≤ p.tokens.length then .error .nomem else .ok (p.pushed tok) := by
  by_cases h : cap ≤ p.tokens.length
  · simp only [complete,Parser.addIf,Parser.add,if_pos h]
    rfl
  · rw [complete_eq (not_le.mp h),if_neg h]

theorem complete_ok {tok : Token} (h : complete (some cap) p tok = .ok q) :
    p.tokens.length < cap ∧ q = p.pushed tok := by
  rw [complete_some] at h
  split at h
  · cases h
  · rename_i hcap
    exact ⟨not_le.mp hcap,(Except.ok.inj h).symm⟩

theorem pushed_length (p : Parser) (tok : Token) : (p.pushed tok).tokens.length = p.tokens.length + 1 := by
  simp only [Parser.pushed,List.length_append,bump_length,List.length_singleton]

theorem closeFrom_ok {type : TokenType} {fuel i : ℕ} (h : p.closeFrom type pos fuel i = .ok q) :
    q = p ∨ ∃ i tok parent, p.tokens[i]? = some tok ∧ tok.stop = -1 ∧
      q = { p with tokens := p.tokens.set i { tok with stop := pos + 1 }, toksuper := parent } := by
  induction fuel generalizing i with
  | zero => cases h
  | succ fuel ih =>
    rw [Parser.closeFrom] at h
    split at h
    · rename_i tok parent htok hparent
      split at h
      · rename_i hopen
        split at h
        · cases h
        · exact Or.inr ⟨i,tok,parent,htok,hopen,(Except.ok.inj h).symm⟩
      · split at h
        · split at h
          · cases h
          · exact Or.inl (Except.ok.inj h).symm
        · exact ih h
    · cases h

/-- What a character between tokens can do to the tokens: nothing, open a container, or
close one. -/
inductive Entry (pos : ℕ) (p q : Parser) : Prop
  | same (tokens : q.tokens = p.tokens) (count : q.count = p.count)
  | opened (type : TokenType) (eq : q = p.entered ⟨type,pos,-1,0⟩)
  | closed (i : ℕ) (tok : Token) (get : p.tokens[i]? = some tok) (isOpen : tok.stop = -1)
      (tokens : q.tokens = p.tokens.set i { tok with stop := pos + 1 }) (count : q.count = p.count)

theorem entry_close {type : TokenType} (h : p.close type pos = .ok q) :
    Entry pos p q ∧ q.tokens.length = p.tokens.length ∧ q.count = p.count := by
  rw [Parser.close] at h
  split at h
  · cases h
  · rcases closeFrom_ok h with rfl | ⟨i,tok,parent,htok,hopen,rfl⟩
    · exact ⟨.same rfl rfl,rfl,rfl⟩
    · exact ⟨.closed i tok htok hopen rfl rfl,List.length_set,rfl⟩

/-- How reading with a token array of one size compares with reading with another one, and
with counting. -/
structure Follows (cap : ℕ) (mode : Mode) (pos : ℕ) (q : Parser) (small counting : Scan) : Prop where
  count : q.count = q.tokens.length
  fits : q.tokens.length ≤ cap → small = .reading mode pos q
  full : cap < q.tokens.length → small = .failed .nomem
  counting : counting = .reading mode pos { count := q.count }

theorem enter_spec_of_forall (h : enter (some cap) p pos c = .reading mode pos' q)
    (hc : p.count = p.tokens.length) (hcap : p.tokens.length ≤ cap') (mode' : Mode) (r : Parser)
    (hbig : ∀ n : ℕ, enter (some n) p pos c = .reading mode' (pos + 1) r)
    (hnone : enter none { count := p.count } pos c = .reading mode' (pos + 1) { count := p.count })
    (hr : Entry pos p r ∧ r.tokens.length = p.tokens.length ∧ r.count = p.count) :
    pos' = pos + 1 ∧ Entry pos p q ∧
      Follows cap' mode pos' q (enter (some cap') p pos c) (enter none { count := p.count } pos c) := by
  obtain ⟨rfl,rfl,rfl⟩ := Scan.reading.inj ((hbig cap).symm.trans h)
  obtain ⟨hentry,hlen,hcount⟩ := hr
  refine ⟨rfl,hentry,?_,fun _ => hbig cap',fun hfull => ?_,?_⟩
  · rw [hlen,hcount,hc]
  · rw [hlen] at hfull
    exact absurd hfull (not_lt.mpr hcap)
  · rw [hnone,hcount]

theorem enter_spec (h : enter (some cap) p pos c = .reading mode pos' q) (hc : p.count = p.tokens.length)
    (hcap : p.tokens.length ≤ cap') :
    pos' = pos + 1 ∧ Entry pos p q ∧
      Follows cap' mode pos' q (enter (some cap') p pos c) (enter none { count := p.count } pos c) := by
  have hsame := enter_spec_of_forall h hc hcap
  cases hk : charKind c with
  | opening type =>
    rw [enter_opening hk] at h ⊢
    split at h
    · cases h
    · obtain ⟨rfl,rfl,rfl⟩ := Scan.reading.inj h
      refine ⟨rfl,.opened type rfl,?_,fun hfits => ?_,fun hfull => ?_,?_⟩
      · rw [entered_length,← hc]
        rfl
      · rw [entered_length] at hfits
        exact if_neg (not_le.mpr hfits)
      · rw [entered_length] at hfull
        exact if_pos (Nat.lt_succ_iff.mp hfull)
      · simp only [enter,hk,parseChar]
        rfl
  | closing type =>
    have hbig : ∀ n : ℕ, enter (some n) p pos c = ofParser .normal (pos + 1) (p.close type pos) := by
      intro n
      simp only [enter,hk,parseChar,Option.isNone_some,Bool.false_eq_true,if_false]
      cases p.close type pos <;> rfl
    cases hclose : p.close type pos with
    | error e =>
      rw [hbig,hclose] at h
      cases h
    | ok r =>
      refine hsame .normal r (fun n => (hbig n).trans ?_) ?_ (entry_close hclose)
      · rw [hclose,ofParser]
      · simp only [enter,hk,parseChar]
        rfl
  | quote =>
    refine hsame (.string pos .plain) p (fun n => ?_) ?_ ⟨.same rfl rfl,rfl,rfl⟩ <;> simp only [enter,hk]
  | space =>
    refine hsame .normal p (fun n => ?_) ?_ ⟨.same rfl rfl,rfl,rfl⟩ <;> simp only [enter,hk,parseChar] <;> rfl
  | colon =>
    refine hsame .normal { p with toksuper := if p.tokens = [] then none else some (p.tokens.length - 1) }
      (fun n => ?_) ?_ ⟨.same rfl rfl,rfl,rfl⟩ <;> simp only [enter,hk,parseChar] <;> rfl
  | comma =>
    by_cases hsuper : p.superType = some .string ∨ p.superType = some .primitive
    · refine hsame .normal { p with toksuper := p.toksuper.bind (fun i => p.parents.getD i none) }
        (fun n => ?_) ?_ ⟨.same rfl rfl,rfl,rfl⟩
      · simp only [enter,hk,parseChar,if_pos hsuper]
        rfl
      · simp only [enter,hk,parseChar]
        rfl
    · refine hsame .normal p (fun n => ?_) ?_ ⟨.same rfl rfl,rfl,rfl⟩
      · simp only [enter,hk,parseChar,if_neg hsuper]
        rfl
      · simp only [enter,hk,parseChar]
        rfl
  | primitive =>
    cases hrej : p.rejectsPrimitive with
    | true =>
      simp only [enter,hk,hrej] at h
      cases h
    | false =>
      refine hsame (.primitive pos) p (fun n => ?_) ?_ ⟨.same rfl rfl,rfl,rfl⟩
      · simp only [enter,hk,hrej]
        rfl
      · simp only [enter,hk]
        rfl
  | unexpected =>
    simp only [enter,hk,parseChar] at h
    cases h

/-- Where a token ends; `-1` as long as it is open, and before it exists. -/
def Parser.stopAt (p : Parser) (i : ℕ) : ℤ := ((p.tokens[i]?).map Token.stop).getD (-1)

/-- Tokens have been added and open ones closed, up to a position. -/
structure Extends (hi : ℕ) (p q : Parser) : Prop where
  length : p.tokens.length ≤ q.tokens.length
  stop : ∀ i, q.stopAt i = p.stopAt i ∨ p.stopAt i = -1 ∧ 0 < q.stopAt i ∧ q.stopAt i ≤ hi

namespace Extends

variable {hi hi' : ℕ} {r : Parser}

theorem refl (hi : ℕ) (p : Parser) : Extends hi p p := ⟨le_rfl,fun _ => Or.inl rfl⟩

theorem trans (h : Extends hi p q) (h' : Extends hi' q r) (hle : hi ≤ hi') : Extends hi' p r where
  length := h.length.trans h'.length
  stop := by
    intro i
    rcases h'.stop i with heq' | ⟨hopen',hpos',hle'⟩
    · rcases h.stop i with heq | ⟨hopen,hpos,hle''⟩
      · exact Or.inl (heq'.trans heq)
      · rw [heq']
        exact Or.inr ⟨hopen,hpos,by omega⟩
    · rcases h.stop i with heq | ⟨hopen,hpos,-⟩
      · exact Or.inr ⟨heq ▸ hopen',hpos',hle'⟩
      · omega

end Extends

theorem stopAt_bump (s : Option ℕ) (n i : ℕ) (tokens : List Token) :
    ((bump s n tokens)[i]?).map Token.stop = (tokens[i]?).map Token.stop := by
  cases s with
  | none => rfl
  | some j =>
    simp only [bump,List.getElem?_modify]
    cases tokens[i]? with
    | none => rfl
    | some t => by_cases hij : j = i <;> simp [hij]

theorem stopAt_of_le {i : ℕ} (h : p.tokens.length ≤ i) : p.stopAt i = -1 := by
  rw [Parser.stopAt,List.getElem?_eq_none h]
  rfl

theorem stopAt_pushed (p : Parser) (tok : Token) (i : ℕ) :
    (p.pushed tok).stopAt i = if i = p.tokens.length then tok.stop else p.stopAt i := by
  rcases lt_trichotomy i p.tokens.length with hi | rfl | hi
  · rw [if_neg hi.ne]
    simp only [Parser.stopAt,Parser.pushed]
    rw [List.getElem?_append_left (by rwa [bump_length]),stopAt_bump]
  · rw [if_pos rfl]
    simp only [Parser.stopAt,Parser.pushed]
    rw [List.getElem?_append_right (by rw [bump_length]),bump_length,Nat.sub_self]
    rfl
  · rw [if_neg hi.ne',stopAt_of_le hi.le,stopAt_of_le (by rwa [pushed_length])]

theorem extends_pushed {hi : ℕ} {tok : Token} (h : tok.stop = -1 ∨ 0 < tok.stop ∧ tok.stop ≤ hi) :
    Extends hi p (p.pushed tok) where
  length := by
    rw [pushed_length]
    exact Nat.le_succ _
  stop := by
    intro i
    rw [stopAt_pushed]
    split
    · rename_i hi
      rw [stopAt_of_le hi.ge]
      exact h.imp id (fun h' => ⟨rfl,h'⟩)
    · exact Or.inl rfl

theorem Entry.extends (h : Entry pos p q) : Extends (pos + 1) p q := by
  cases h with
  | same tokens count =>
    refine ⟨by rw [tokens],fun i => Or.inl ?_⟩
    rw [Parser.stopAt,tokens,Parser.stopAt]
  | opened type eq =>
    have hpushed : Extends (pos + 1) p (p.pushed ⟨type,pos,-1,0⟩) := extends_pushed (Or.inl rfl)
    rw [eq]
    exact ⟨hpushed.length,hpushed.stop⟩
  | closed i tok get isOpen tokens count =>
    refine ⟨by rw [tokens,List.length_set],fun j => ?_⟩
    have hi : i < p.tokens.length := (List.getElem?_eq_some_iff.mp get).1
    rw [Parser.stopAt,tokens]
    by_cases hij : i = j
    · subst hij
      refine Or.inr ⟨?_,?_,?_⟩
      · rw [Parser.stopAt,get,Option.map_some,isOpen]
        rfl
      · rw [List.getElem?_set_self hi,Option.map_some,Option.getD_some]
        exact Int.natCast_succ_pos pos
      · rw [List.getElem?_set_self hi,Option.map_some,Option.getD_some]
        exact le_of_eq (Nat.cast_succ pos).symm
    · rw [List.getElem?_set_ne hij]
      exact Or.inl rfl

/-- What one byte does to the tokens, and how it compares with other token arrays. -/
def StepSpec (cap' : ℕ) (mode : Mode) (pos : ℕ) (p : Parser) (c : UInt8) (mode' : Mode) (pos' : ℕ)
    (q : Parser) : Prop :=
  pos' = pos + 1 ∧ Extends (pos + 1) p q ∧
    Follows cap' mode' pos' q (step (some cap') (.reading mode pos p) c)
      (step none (.reading mode pos { count := p.count }) c)

theorem stepSpec_same (hc : p.count = p.tokens.length) (hcap : p.tokens.length ≤ cap')
    (hbig : ∀ n : ℕ, step (some n) (.reading mode pos p) c = .reading mode' (pos + 1) p)
    (hnone : step none (.reading mode pos { count := p.count }) c =
      .reading mode' (pos + 1) { count := p.count }) :
    StepSpec cap' mode pos p c mode' (pos + 1) p :=
  ⟨rfl,.refl _ p,hc,fun _ => hbig cap',fun hfull => absurd hfull (not_lt.mpr hcap),hnone⟩

theorem stepSpec_string {start : ℕ} {m : StringMode}
    (h : step (some cap) (.reading (.string start m) pos p) c = .reading mode' pos' q)
    (hc : p.count = p.tokens.length) (hcap : p.tokens.length ≤ cap') (hpos : 0 < pos) :
    StepSpec cap' (.string start m) pos p c mode' pos' q := by
  rcases string_cases m c [] with ⟨e,-,hstep⟩ | ⟨-,hstep⟩ | ⟨m',-,hstep⟩
  · rw [hstep] at h
    cases h
  · rw [hstep,complete_some] at h
    split at h
    · cases h
    · obtain ⟨rfl,rfl,rfl⟩ := Scan.reading.inj h
      refine ⟨rfl,extends_pushed (Or.inr ⟨Int.natCast_pos.mpr hpos,?_⟩),?_,fun hfits => ?_,fun hfull => ?_,?_⟩
      · exact Int.ofNat_le.mpr (Nat.le_succ pos)
      · rw [pushed_length,← hc]
        rfl
      · rw [pushed_length] at hfits
        rw [hstep,complete_some,if_neg (not_le.mpr hfits)]
        rfl
      · rw [pushed_length] at hfull
        rw [hstep,complete_some,if_pos (Nat.lt_succ_iff.mp hfull)]
        rfl
      · rw [hstep]
        rfl
  · rw [hstep] at h
    obtain ⟨rfl,rfl,rfl⟩ := Scan.reading.inj h
    exact stepSpec_same hc hcap (fun n => hstep _ _ _ _) (hstep _ _ _ _)

theorem stepSpec_primitive {start : ℕ}
    (h : step (some cap) (.reading (.primitive start) pos p) c = .reading mode' pos' q)
    (hc : p.count = p.tokens.length) (hcap : p.tokens.length ≤ cap') (hpos : 0 < pos) :
    StepSpec cap' (.primitive start) pos p c mode' pos' q := by
  simp only [step,stepPrimitive] at h
  by_cases h0 : c = 0
  · rw [if_pos h0] at h
    cases h
  rw [if_neg h0] at h
  by_cases hend : endsPrimitive c = true
  · have hstep : ∀ (numTokens : Option ℕ) (r r' : Parser),
        complete numTokens r ⟨.primitive,start,pos,0⟩ = .ok r' →
        step numTokens (.reading (.primitive start) pos r) c = enter numTokens r' pos c := by
      intro numTokens r r' hr
      simp only [step,stepPrimitive,if_neg h0,if_pos hend,hr]
    rw [if_pos hend] at h
    cases hcomplete : complete (some cap) p ⟨.primitive,start,pos,0⟩ with
    | error e =>
      rw [hcomplete] at h
      cases h
    | ok r =>
      rw [hcomplete] at h
      obtain ⟨-,rfl⟩ := complete_ok hcomplete
      have hlen := pushed_length p ⟨.primitive,start,pos,0⟩
      have hcr : (p.pushed ⟨.primitive,start,pos,0⟩).count = (p.pushed ⟨.primitive,start,pos,0⟩).tokens.length := by
        rw [hlen,← hc]
        rfl
      have hext : Extends (pos + 1) p (p.pushed ⟨.primitive,start,pos,0⟩) :=
        extends_pushed (Or.inr ⟨Int.natCast_pos.mpr hpos,Int.ofNat_le.mpr (Nat.le_succ pos)⟩)
      have hnone : step none (.reading (.primitive start) pos { count := p.count }) c =
          enter none { count := (p.pushed ⟨.primitive,start,pos,0⟩).count } pos c := hstep none _ _ rfl
      by_cases hroom : p.tokens.length < cap'
      · obtain ⟨hpos',hentry,hfollows⟩ := enter_spec h hcr (hlen.trans_le hroom)
        refine ⟨hpos',hext.trans hentry.extends le_rfl,?_⟩
        rw [hstep _ _ _ (complete_eq hroom _),hnone]
        exact hfollows
      · obtain ⟨hpos',hentry,hfollows⟩ := enter_spec h hcr le_rfl
        have hlen' := hentry.extends.length
        rw [hlen] at hlen'
        refine ⟨hpos',hext.trans hentry.extends le_rfl,hfollows.count,fun hfits => ?_,fun _ => ?_,?_⟩
        · omega
        · simp only [step,stepPrimitive,if_neg h0,if_pos hend,complete_some,if_pos (not_lt.mp hroom)]
        · rw [hnone]
          exact hfollows.counting
  · rw [if_neg hend] at h
    by_cases hbad : (c < 32 || 127 ≤ c) = true
    · rw [if_pos hbad] at h
      cases h
    · rw [if_neg hbad] at h
      obtain ⟨rfl,rfl,rfl⟩ := Scan.reading.inj h
      refine stepSpec_same hc hcap (fun n => ?_) ?_ <;>
        simp only [step,stepPrimitive,if_neg h0,if_neg hend,if_neg hbad]

theorem step_spec (h : step (some cap) (.reading mode pos p) c = .reading mode' pos' q)
    (hc : p.count = p.tokens.length) (hcap : p.tokens.length ≤ cap') (hpos : mode ≠ .normal → 0 < pos) :
    StepSpec cap' mode pos p c mode' pos' q := by
  cases mode with
  | normal =>
    simp only [step] at h
    by_cases h0 : c = 0
    · rw [if_pos h0] at h
      cases h
    · rw [if_neg h0] at h
      obtain ⟨hpos',hentry,hfollows⟩ := enter_spec h hc hcap
      refine ⟨hpos',hentry.extends,?_⟩
      simp only [step,if_neg h0]
      exact hfollows
  | string start m => exact stepSpec_string h hc hcap (hpos (by simp))
  | primitive start => exact stepSpec_primitive h hc hcap (hpos (by simp))

/-- What the bytes of a text do to the tokens, and how they compare with other token
arrays. -/
theorem run_spec {js : List UInt8} (h : run (some cap) (.reading mode pos p) js = .reading mode' pos' q)
    (hc : p.count = p.tokens.length) (hcap : p.tokens.length ≤ cap') (hpos : mode ≠ .normal → 0 < pos) :
    pos' = pos + js.length ∧ Extends pos' p q ∧
      Follows cap' mode' pos' q (run (some cap') (.reading mode pos p) js)
        (run none (.reading mode pos { count := p.count }) js) := by
  induction js generalizing mode pos p cap' with
  | nil =>
    obtain ⟨rfl,rfl,rfl⟩ := Scan.reading.inj h
    exact ⟨rfl,.refl _ _,hc,fun _ => rfl,fun hfull => absurd hfull (not_lt.mpr hcap),rfl⟩
  | cons c cs ih =>
    rw [run_cons] at h
    cases hstep : step (some cap) (.reading mode pos p) c with
    | failed e =>
      rw [hstep,run_failed] at h
      cases h
    | halted r =>
      rw [hstep,run_halted] at h
      cases h
    | reading mode₁ pos₁ r =>
      rw [hstep] at h
      obtain ⟨rfl,hext,hfollows⟩ := step_spec hstep hc hcap hpos
      have hpos₁ : mode₁ ≠ .normal → 0 < pos + 1 := fun _ => Nat.succ_pos _
      have hlen : pos + 1 + cs.length = pos + (c :: cs).length := by
        rw [List.length_cons]
        omega
      rw [run_cons,run_cons,hfollows.counting]
      by_cases hroom : r.tokens.length ≤ cap'
      · obtain ⟨hp,hext',hfollows'⟩ := ih h hfollows.count hroom hpos₁
        rw [hfollows.fits hroom]
        exact ⟨hp.trans hlen,hext.trans hext' (by omega),hfollows'⟩
      · obtain ⟨hp,hext',hfollows'⟩ := ih h hfollows.count le_rfl hpos₁
        have hfull : cap' < r.tokens.length := not_le.mp hroom
        refine ⟨hp.trans hlen,hext.trans hext' (by omega),hfollows'.count,fun hfits => ?_,fun _ => ?_,
          hfollows'.counting⟩
        · exact absurd (hext'.length.trans hfits) hroom
        · rw [hfollows.full hfull,run_failed]

end Lightsd.Core.Jsmn
