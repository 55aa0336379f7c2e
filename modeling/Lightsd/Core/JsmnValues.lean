import Lightsd.Core.JsmnText

/-! # Reading values

The machine reads the text of a value, of the items of an array and of the members of an
object to the trees they stand for, by induction over the text. A closing bracket finds
the container it closes by walking up the parent links.
-/
namespace Lightsd.Core.Jsmn

open OrderedTree Scan Json

variable {cap pos : ℕ} {p p' : Parser} {rest : List UInt8}

/-- The state after a token has been added below the superior token. -/
def Parser.pushed (p : Parser) (tok : Token) : Parser :=
  { p with
    tokens := bump p.toksuper 1 p.tokens ++ [tok]
    parents := p.parents ++ [p.toksuper]
    count := p.count + 1 }

theorem complete_eq (h : p.tokens.length < cap) (tok : Token) :
    complete (some cap) p tok = .ok (p.pushed tok) := by
  have hcap : ¬ cap ≤ p.tokens.length := not_le.mpr h
  simp only [complete,Parser.addIf,Parser.add,if_neg hcap]
  rfl

theorem count_leaf (a : Label) : (Rose.node a []).count = 1 := by
  rw [count_node,counts_nil]

theorem grown_leaf (p : Parser) (a : Label) :
    Grown p [.node a []] (p.pushed ⟨a.type,a.start,a.stop,0⟩) where
  tokens := by
    rw [tokensOf_node,List.append_nil,tokensOf,preorders_nil]
    rfl
  parents := by
    refine ⟨[p.toksuper],rfl,?_,?_⟩
    · rw [counts_cons,counts_nil,count_leaf]
      rfl
    · intro j q hj
      rw [List.getElem?_singleton] at hj
      split at hj
      · exact Or.inl (Option.some_inj.mp hj).symm
      · cases hj
  count := by
    rw [counts_cons,counts_nil,count_leaf]
    rfl

/-- A token has been added and is now the superior one. -/
def Parser.entered (p : Parser) (tok : Token) : Parser :=
  { p.pushed tok with toksuper := some p.tokens.length }

theorem entered_length (p : Parser) (tok : Token) : (p.entered tok).tokens.length = p.tokens.length + 1 := by
  simp only [Parser.entered,Parser.pushed,List.length_append,bump_length,List.length_singleton]

theorem linked_entered (h : Linked p) (tok : Token) : Linked (p.entered tok) where
  parents := by
    rw [entered_length]
    simp only [Parser.entered,Parser.pushed,List.length_append,h.parents,List.length_singleton]
  toksuper := by
    rintro _ ⟨⟩
    rw [entered_length]
    exact Nat.lt_succ_self _

theorem entered_super (p : Parser) (tok : Token) :
    (p.entered tok).toksuper.bind ((p.entered tok).tokens[·]?) = some tok := by
  have hlast : (bump p.toksuper 1 p.tokens).length = p.tokens.length := bump_length _ _ _
  simp only [Parser.entered,Parser.pushed,Option.bind_some]
  rw [← hlast,List.getElem?_append_right le_rfl]
  simp

theorem zero_char : charKind 0 = .unexpected := by decide

theorem enter_opening {c : UInt8} {type : TokenType} (hk : charKind c = .opening type) (cap : ℕ)
    (p : Parser) (pos : ℕ) : enter (some cap) p pos c =
      if cap ≤ p.tokens.length then .failed .nomem
      else .reading .normal (pos + 1) (p.entered ⟨type,pos,-1,0⟩) := by
  have hlen : (p.pushed ⟨type,pos,-1,0⟩).tokens.length - 1 = p.tokens.length := by
    simp only [Parser.pushed,List.length_append,bump_length,List.length_singleton]
    omega
  by_cases hcap : cap ≤ p.tokens.length
  · simp only [enter,parseChar,hk,Parser.addIf,Parser.add,if_pos hcap]
    rfl
  · have hchar : parseChar (some cap) p pos c [] = .ok (p.entered ⟨type,pos,-1,0⟩,0) := by
      simp only [parseChar,hk,Parser.addIf,Parser.add,if_neg hcap,Option.isNone_some,Bool.false_eq_true,
        if_false]
      unfold Parser.entered
      rw [← hlen]
      rfl
    simp only [enter,hk,hchar,if_neg hcap]
    rfl

theorem run_opening {c : UInt8} {type : TokenType} (hk : charKind c = .opening type)
    (h : p.tokens.length < cap) (pos : ℕ) (rest : List UInt8) :
    run (some cap) (.reading .normal pos p) (c :: rest) =
      run (some cap) (.reading .normal (pos + 1) (p.entered ⟨type,pos,-1,0⟩)) rest := by
  have h0 : c ≠ 0 := by
    rintro rfl
    rw [zero_char] at hk
    cases hk
  rw [run_cons]
  simp only [step,if_neg h0]
  rw [enter_opening hk,if_neg (not_le.mpr h)]

theorem closeFrom_eq {type : TokenType} {i : ℕ} {tok : Token} {parent : Option ℕ}
    (htok : p.tokens[i]? = some tok) (hopen : tok.stop = -1) (htype : tok.type = type)
    (hparent : p.parents[i]? = some parent)
    (hclosed : ∀ j t, i < j → p.tokens[j]? = some t → t.stop ≠ -1)
    (hlinks : ∀ j, i < j → j < p.tokens.length → ∃ k, p.parents[j]? = some (some k) ∧ i ≤ k ∧ k < j)
    (pos fuel : ℕ) {j : ℕ} (hij : i ≤ j) (hj : j < p.tokens.length) (hfuel : j - i < fuel) :
    p.closeFrom type pos fuel j =
      .ok { p with tokens := p.tokens.set i { tok with stop := pos + 1 }, toksuper := parent } := by
  induction fuel generalizing j with
  | zero => cases hfuel
  | succ fuel ih =>
    rcases Nat.eq_or_lt_of_le hij with rfl | hlt
    · simp only [Parser.closeFrom,htok,hparent,hopen,if_true,htype,ne_eq,not_true_eq_false,if_false]
    · obtain ⟨k,hk,hik,hkj⟩ := hlinks j hlt hj
      have hget : p.tokens[j]? = some p.tokens[j] := List.getElem?_eq_getElem hj
      have hne := hclosed j _ hlt hget
      simp only [Parser.closeFrom,hget,hk,if_neg hne]
      exact ih hik (by omega) (by omega)

theorem bump_last (as : List Token) (n : ℕ) (t : Token) :
    bump (some as.length) n (as ++ [t]) = as ++ [{ t with size := t.size + n }] := by
  refine List.ext_getElem? (fun j => ?_)
  simp only [bump,List.getElem?_modify]
  rcases lt_trichotomy j as.length with hj | rfl | hj
  · rw [List.getElem?_append_left hj,List.getElem?_append_left hj]
    simp [hj.ne']
  · simp
  · rw [List.getElem?_append_right hj.le,List.getElem?_append_right hj.le]
    have hsub : j - as.length ≠ 0 := by omega
    simp [hsub]

theorem stop_of_mem_tokensOf {ts : List (Rose Label)} {t : Token} (h : t ∈ tokensOf ts) : t.stop ≠ -1 := by
  rw [tokensOf,List.mem_map] at h
  obtain ⟨entry,-,rfl⟩ := h
  simp only [Label.token]
  omega

/-- What has been added below a token. -/
structure Below (p : Parser) (tok : Token) (ts : List (Rose Label)) (p' : Parser) : Prop where
  tokens : p'.tokens = bump p.toksuper 1 p.tokens ++ ({ tok with size := tok.size + ts.length } :: tokensOf ts)
  parents : ∃ qs, p'.parents = p.parents ++ (p.toksuper :: qs) ∧ qs.length = counts ts ∧
    ∀ j q, qs[j]? = some q → ∃ k, q = some k ∧ p.tokens.length ≤ k ∧ k < p.tokens.length + 1 + j
  count : p'.count = p.count + 1 + counts ts

theorem Grown.below {tok : Token} {ts : List (Rose Label)} (h : Grown (p.entered tok) ts p') :
    Below p tok ts p' where
  tokens := by
    have hbump := bump_last (bump p.toksuper 1 p.tokens) ts.length tok
    rw [bump_length] at hbump
    rw [h.tokens]
    simp only [Parser.entered,Parser.pushed,hbump,List.append_assoc]
    rfl
  parents := by
    obtain ⟨qs,hq,hqlen,hqs⟩ := h.parents
    refine ⟨qs,?_,hqlen,?_⟩
    · rw [hq]
      simp only [Parser.entered,Parser.pushed,List.append_assoc]
      rfl
    · intro j q hj
      rcases hqs j q hj with heq | ⟨k,heq,hlo,hhi⟩
      · exact ⟨p.tokens.length,heq,le_rfl,by omega⟩
      · rw [entered_length] at hlo hhi
        exact ⟨k,heq,by omega,hhi⟩
  count := h.count

namespace Below

variable {tok : Token} {ts : List (Rose Label)}

theorem token_at (h : Below p tok ts p') :
    p'.tokens[p.tokens.length]? = some { tok with size := tok.size + ts.length } := by
  have hlast : (bump p.toksuper 1 p.tokens).length = p.tokens.length := bump_length _ _ _
  rw [h.tokens,← hlast,List.getElem?_append_right le_rfl]
  simp

theorem parent_at (h : Below p tok ts p') (hp : Linked p) : p'.parents[p.tokens.length]? = some p.toksuper := by
  obtain ⟨qs,hq,-⟩ := h.parents
  rw [hq,← hp.parents,List.getElem?_append_right le_rfl]
  simp

theorem length (h : Below p tok ts p') : p'.tokens.length = p.tokens.length + 1 + counts ts := by
  rw [h.tokens,List.length_append,List.length_cons,tokensOf_length,bump_length]
  omega

/-- A token and what is below it make a tree. -/
theorem grown {a : Label} (h : Below p ⟨a.type,a.start,a.stop,0⟩ ts p') : Grown p [.node a ts] p' where
  tokens := by
    rw [h.tokens,tokensOf_node,List.append_nil,Nat.zero_add]
    rfl
  parents := by
    obtain ⟨qs,hq,hqlen,hqs⟩ := h.parents
    refine ⟨p.toksuper :: qs,hq,?_,?_⟩
    · rw [List.length_cons,hqlen,counts_cons,counts_nil,count_node]
    · intro j q hj
      cases j with
      | zero =>
        rw [List.getElem?_cons_zero,Option.some_inj] at hj
        exact Or.inl hj.symm
      | succ j =>
        rw [List.getElem?_cons_succ] at hj
        obtain ⟨k,heq,hlo,hhi⟩ := hqs j q hj
        exact Or.inr ⟨k,heq,hlo,by omega⟩
  count := by
    rw [h.count,counts_cons,counts_nil,count_node]
    omega

/-- A closing bracket finds the open container. -/
theorem close {type : TokenType} {start : ℕ} (h : Below p ⟨type,start,-1,0⟩ ts p') (hp : Linked p) (pos : ℕ) :
    ∃ p'', p'.close type pos = .ok p'' ∧ p''.toksuper = p.toksuper ∧
      Below p ⟨type,start,(pos + 1 : ℕ),0⟩ ts p'' := by
  obtain ⟨qs,hparents,hqlen,hqs⟩ := h.parents
  have hlast : (bump p.toksuper 1 p.tokens).length = p.tokens.length := bump_length _ _ _
  have hlen := h.length
  have hclosed : ∀ j t, p.tokens.length < j → p'.tokens[j]? = some t → t.stop ≠ -1 := by
    intro j t hj ht
    obtain ⟨k,hk⟩ : ∃ k, j - p.tokens.length = k + 1 := ⟨j - p.tokens.length - 1,by omega⟩
    rw [h.tokens,List.getElem?_append_right (by omega),hlast,hk,List.getElem?_cons_succ] at ht
    exact stop_of_mem_tokensOf (List.mem_of_getElem? ht)
  have hlinks : ∀ j, p.tokens.length < j → j < p'.tokens.length →
      ∃ k, p'.parents[j]? = some (some k) ∧ p.tokens.length ≤ k ∧ k < j := by
    intro j hlo hhi
    obtain ⟨m,rfl⟩ : ∃ m, j = p.tokens.length + 1 + m := ⟨j - p.tokens.length - 1,by omega⟩
    have hm : m < qs.length := by omega
    obtain ⟨k,hk,hklo,hkhi⟩ := hqs m _ (List.getElem?_eq_getElem hm)
    have hsub : p.tokens.length + 1 + m - p.parents.length = m + 1 := by
      rw [hp.parents]
      omega
    refine ⟨k,?_,hklo,hkhi⟩
    rw [hparents,List.getElem?_append_right (by rw [hp.parents]; omega),hsub,List.getElem?_cons_succ,
      List.getElem?_eq_getElem hm,hk]
  have hne : p'.tokens ≠ [] := by
    rw [h.tokens]
    simp
  have hclose := closeFrom_eq h.token_at rfl rfl (h.parent_at hp) hclosed hlinks pos p'.tokens.length
    (j := p'.tokens.length - 1) (by omega) (by omega) (by omega)
  have hclose' : p'.close type pos = _ := (if_neg hne).trans hclose
  refine ⟨_,hclose',rfl,?_,h.parents,h.count⟩
  simp only [h.tokens]
  rw [← hlast,List.set_append_right _ _ le_rfl,Nat.sub_self,List.set_cons_zero]
  simp

end Below

/-- A closing bracket makes the open container and what has been added below it a tree. -/
theorem run_closing {c : UInt8} {type : TokenType} {start : ℕ} {ts : List (Rose Label)}
    (hk : charKind c = .closing type) (hp : Linked p) (h : Below p ⟨type,start,-1,0⟩ ts p')
    (cap pos : ℕ) (rest : List UInt8) :
    ∃ p'', run (some cap) (.reading .normal pos p') (c :: rest) =
        run (some cap) (.reading .normal (pos + 1) p'') rest ∧
      Grown p [.node ⟨type,start,pos + 1⟩ ts] p'' ∧ p''.toksuper = p.toksuper := by
  have h0 : c ≠ 0 := by
    rintro rfl
    rw [zero_char] at hk
    cases hk
  obtain ⟨p'',hclose,hs,hbelow⟩ := h.close hp pos
  refine ⟨p'',?_,hbelow.grown,hs⟩
  rw [run_cons]
  simp only [step,if_neg h0,enter,hk,parseChar,Option.isNone_some,Bool.false_eq_true,if_false,hclose]
  rfl

theorem Grown.superType {ts : List (Rose Label)} (h : Grown p ts p') (hp : Linked p)
    (hs : p'.toksuper = p.toksuper) : p'.superType = p.superType := by
  unfold Parser.superType
  rw [hs]
  cases hsup : p.toksuper with
  | none => rfl
  | some i =>
    have hi := hp.toksuper i hsup
    rw [h.tokens,hsup,Option.bind_some,Option.bind_some,
      List.getElem?_append_left (by rw [bump_length]; exact hi)]
    simp only [bump,List.getElem?_modify,if_true]
    cases p.tokens[i]? <;> rfl

theorem rejectsPrimitive_array (h : p.superType = some .array) : p.rejectsPrimitive = false := by
  unfold Parser.superType at h
  unfold Parser.rejectsPrimitive
  cases ht : p.toksuper.bind (p.tokens[·]?) with
  | none => rfl
  | some t =>
    rw [ht,Option.map_some,Option.some_inj] at h
    simp [h]

theorem comma_char : charKind 44 = .comma := by decide

theorem run_separator (h : p.superType = some .array) (numTokens : Option ℕ) (pos : ℕ) (first : Bool)
    (rest : List UInt8) : run numTokens (.reading .normal pos p) (separator first ++ rest) =
      run numTokens (.reading .normal (pos + (separator first).length) p) rest := by
  cases first with
  | true => rfl
  | false =>
    have hstep : step numTokens (.reading .normal pos p) 44 = .reading .normal (pos + 1) p := by
      simp only [step,enter,comma_char,parseChar,h]
      rfl
    rw [separator,if_neg Bool.false_ne_true,List.singleton_append,run_cons,hstep]
    rfl

/-- What it means that the machine reads a value to the tree of its tokens. -/
def ReadsValue (v : Value) : Prop :=
  ∀ (cap pos : ℕ) (p : Parser) (rest : List UInt8), Linked p → p.rejectsPrimitive = false →
    p.tokens.length + (v.node pos).count ≤ cap → v.IsContainer ∨ Ends rest →
    ∃ p', run (some cap) (.reading .normal pos p) (v.text ++ rest) =
        run (some cap) (.reading .normal (pos + v.text.length) p') rest ∧
      Grown p [v.node pos] p' ∧ p'.toksuper = p.toksuper

def ReadsItems (items : Items) : Prop :=
  ∀ (first : Bool) (cap pos : ℕ) (p : Parser) (rest : List UInt8), Linked p → p.superType = some .array →
    p.tokens.length + counts (items.nodes first pos) ≤ cap → Ends rest →
    ∃ p', run (some cap) (.reading .normal pos p) (items.text first ++ rest) =
        run (some cap) (.reading .normal (pos + (items.text first).length) p') rest ∧
      Grown p (items.nodes first pos) p' ∧ p'.toksuper = p.toksuper

/-- Between the members of an object the superior token is the last key, which a comma
replaces by the object. -/
def ReadsMembers (members : Members) : Prop :=
  ∀ (first : Bool) (cap pos : ℕ) (p : Parser) (i : ℕ) (rest : List UInt8),
    Linked { p with toksuper := some i } →
    { p with toksuper := some i }.superType = some .object →
    (first = true → p.toksuper = some i) →
    (first = false → p.superType = some .string ∧
      p.toksuper.bind (fun k => p.parents.getD k none) = some i) →
    p.tokens.length + counts (members.nodes first pos) ≤ cap → Ends rest →
    ∃ p', run (some cap) (.reading .normal pos p) (members.text first ++ rest) =
        run (some cap) (.reading .normal (pos + (members.text first).length) p') rest ∧
      Grown { p with toksuper := some i } (members.nodes first pos) p'

theorem ends_items (items : Items) (h : Ends rest) : Ends (items.text false ++ rest) := by
  cases items with
  | nil => exact h
  | cons before value after items =>
    rw [Items.text]
    exact ⟨44,_,rfl,by decide⟩

theorem readsItems_nil : ReadsItems .nil := by
  intro first cap pos p rest _ _ _ _
  refine ⟨p,?_,?_,rfl⟩
  · rw [Items.text]
    rfl
  · rw [Items.nodes]
    exact Grown.refl p

theorem readsItems_cons {before after : List UInt8} {v : Value} {items : Items} (hb : Space before)
    (ha : Space after) (hv : ReadsValue v) (hr : ReadsItems items) :
    ReadsItems (.cons before v after items) := by
  intro first cap pos p rest hp htype hcap hrest
  rw [Items.nodes,counts_cons] at hcap
  rw [Items.text,Items.nodes]
  simp only [List.append_assoc]
  obtain ⟨p₁,hrun₁,hgrown₁,hs₁⟩ := hv cap (pos + (separator first).length + before.length) p
    (after ++ (items.text false ++ rest)) hp (rejectsPrimitive_array htype) (by omega)
    (Or.inr (ends_append ha (ends_items items hrest)))
  have hp₁ := hgrown₁.linked hp hs₁
  have hlen₁ := hgrown₁.length
  rw [counts_cons,counts_nil] at hlen₁
  obtain ⟨p₂,hrun₂,hgrown₂,hs₂⟩ := hr false cap
    (pos + (separator first).length + before.length + v.text.length + after.length) p₁ rest hp₁
    ((hgrown₁.superType hp hs₁).trans htype) (by omega) hrest
  refine ⟨p₂,?_,hgrown₁.trans hp hs₁ hgrown₂,hs₂.trans hs₁⟩
  rw [run_separator htype,run_append _ before,run_space hb,hrun₁,run_append _ after,run_space ha,hrun₂]
  simp only [List.length_append,Nat.add_assoc]

theorem ends_members (members : Members) (h : Ends rest) : Ends (members.text false ++ rest) := by
  cases members with
  | nil => exact h
  | cons before key beforeColon afterColon value after members =>
    rw [Members.text]
    exact ⟨44,_,rfl,by decide⟩

theorem readsMembers_nil : ReadsMembers .nil := by
  intro first cap pos p i rest _ _ _ _ _ _
  refine ⟨p,?_,?_⟩
  · rw [Members.text]
    rfl
  · rw [Members.nodes]
    exact (Grown.refl { p with toksuper := some i }).withSuper p.toksuper

theorem run_separator_members {i : ℕ} {first : Bool} (hfirst : first = true → p.toksuper = some i)
    (hnext : first = false → p.superType = some .string ∧
      p.toksuper.bind (fun k => p.parents.getD k none) = some i)
    (numTokens : Option ℕ) (pos : ℕ) (rest : List UInt8) :
    run numTokens (.reading .normal pos p) (separator first ++ rest) =
      run numTokens (.reading .normal (pos + (separator first).length)
        { p with toksuper := some i }) rest := by
  cases first with
  | true =>
    have hsame : { p with toksuper := some i } = p := by
      rw [← hfirst rfl]
    rw [hsame]
    rfl
  | false =>
    obtain ⟨htype,hparent⟩ := hnext rfl
    have hstep : step numTokens (.reading .normal pos p) 44 =
        .reading .normal (pos + 1) { p with toksuper := some i } := by
      simp only [step,enter,comma_char,parseChar,htype,hparent]
      rfl
    rw [separator,if_neg Bool.false_ne_true,List.singleton_append,run_cons,hstep]
    rfl

theorem colon_char : charKind 58 = .colon := by decide

/-- A key with its colon makes the key the superior token. -/
theorem run_key {key beforeColon afterColon : List UInt8} (hkey : stringChars .plain key = true)
    (hbefore : Space beforeColon) (hafter : Space afterColon) (hcap : p.tokens.length < cap) (pos : ℕ)
    (rest : List UInt8) :
    run (some cap) (.reading .normal pos p)
        (quoted key ++ (beforeColon ++ (58 :: (afterColon ++ rest)))) =
      run (some cap) (.reading .normal
        (pos + (quoted key).length + beforeColon.length + 1 + afterColon.length)
        (p.entered ⟨.string,pos + 1,(pos + 1 + key.length : ℕ),0⟩)) rest := by
  have hstep : ∀ (pos' : ℕ) (tok : Token),
      step (some cap) (.reading .normal pos' (p.pushed tok)) 58 =
        .reading .normal (pos' + 1) (p.entered tok) := by
    intro pos' tok
    have hne : (p.pushed tok).tokens ≠ [] := by simp [Parser.pushed]
    have hlen : (p.pushed tok).tokens.length - 1 = p.tokens.length := by
      simp only [Parser.pushed,List.length_append,bump_length,List.length_singleton]
      omega
    simp only [step,enter,colon_char,parseChar,if_neg hne,hlen]
    rfl
  rw [run_quoted hkey,complete_eq hcap,ofParser,run_append _ beforeColon,run_space hbefore,run_cons,hstep,
    run_append _ afterColon,run_space hafter]

theorem rejectsPrimitive_key (p : Parser) (start : ℕ) (stop : ℤ) :
    (p.entered ⟨.string,start,stop,0⟩).rejectsPrimitive = false := by
  unfold Parser.rejectsPrimitive
  rw [entered_super]
  rfl

end Lightsd.Core.Jsmn
