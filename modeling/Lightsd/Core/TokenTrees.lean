import Lightsd.Core.JsmnStreams
import Lightsd.Core.JsonSchema

/-! # Walking over trees of tokens

The tokens of a well-formed value are those of a tree in preorder, in which the children
of an object are keys with one value each. On such tokens, passing a container ends right
behind its tree and reads no token but those of the tree.
-/
namespace Lightsd.Core.Jsonrpc

open OrderedTree Jsmn

/-- The tree of a member of an object. -/
def keyNode (m : Label × Rose Label) : Rose Label := .node m.1 [m.2]

/-- Trees that stand for values. -/
inductive Shaped : Rose Label → Prop
  | leaf (a : Label) (h : a.type = .string ∨ a.type = .primitive) : Shaped (.node a [])
  | array (a : Label) (cs : List (Rose Label)) (h : a.type = .array) (hcs : ∀ c ∈ cs, Shaped c) :
      Shaped (.node a cs)
  | object (a : Label) (ms : List (Label × Rose Label)) (h : a.type = .object)
      (hkeys : ∀ m ∈ ms, m.1.type = .string) (hvalues : ∀ m ∈ ms, Shaped m.2) :
      Shaped (.node a (ms.map keyNode))

/-- The token of the root of a tree. -/
def rootToken : Rose Label → Token
  | .node a cs => Label.token (a,cs.length)

theorem tokensOf_cons (t : Rose Label) (ts : List (Rose Label)) :
    ∃ rest, tokensOf (t :: ts) = rootToken t :: rest := by
  cases t with
  | node a cs => exact ⟨_,tokensOf_node a cs ts⟩

theorem count_keyNode (m : Label × Rose Label) : (keyNode m).count = m.2.count + 1 := by
  simp [keyNode,count_node,counts_cons]

section Reading
variable {toks : List Token} {i : ℕ}

theorem readToken_of_drop {t : Token} {rest : List Token} (h : toks.drop i = t :: rest) :
    readToken toks i = .ok t := by
  have hget : toks[i]? = some t := by
    have hhead := congrArg List.head? h
    simpa [List.head?_drop] using hhead
  simp [readToken,hget]

theorem drop_succ_of_drop {t : Token} {rest : List Token} (h : toks.drop i = t :: rest) :
    toks.drop (i + 1) = rest := by
  rw [← List.drop_drop,h]
  rfl

/-- Some trees lie at an index, with other tokens behind them. -/
def LiesAt (toks : List Token) (i : ℕ) (ts : List (Rose Label)) : Prop :=
  ∃ post, toks.drop i = tokensOf ts ++ post

namespace LiesAt

variable {t : Rose Label} {ts us : List (Rose Label)} {m : Label × Rose Label}

theorem read (h : LiesAt toks i (t :: ts)) : readToken toks i = .ok (rootToken t) := by
  obtain ⟨post,hpost⟩ := h
  obtain ⟨rest,hrest⟩ := tokensOf_cons t ts
  rw [hrest,List.cons_append] at hpost
  exact readToken_of_drop hpost

theorem of_eq (h : toks.drop i = tokensOf ts) : LiesAt toks i ts := ⟨[],by rw [h,List.append_nil]⟩

theorem drop_tokensOf (h : toks.drop i = tokensOf (t :: ts)) : toks.drop (i + t.count) = tokensOf ts := by
  have hsplit : tokensOf (t :: ts) = tokensOf [t] ++ tokensOf ts := tokensOf_append [t] ts
  have hlen : (tokensOf [t]).length = t.count := by rw [tokensOf_length,counts_cons,counts_nil,Nat.add_zero]
  rw [← List.drop_drop,h,hsplit]
  exact List.drop_left' hlen

theorem append (h : LiesAt toks i (ts ++ us)) : LiesAt toks (i + counts ts) us := by
  obtain ⟨post,hpost⟩ := h
  refine ⟨post,?_⟩
  rw [← List.drop_drop,hpost,tokensOf_append,List.append_assoc]
  exact List.drop_left' (tokensOf_length ts)

theorem tail (h : LiesAt toks i (t :: ts)) : LiesAt toks (i + t.count) ts := by
  have hsplit : LiesAt toks i ([t] ++ ts) := h
  have hrest := hsplit.append
  rwa [counts_cons,counts_nil,Nat.add_zero] at hrest

theorem left (h : LiesAt toks i (ts ++ us)) : LiesAt toks i ts := by
  obtain ⟨post,hpost⟩ := h
  exact ⟨tokensOf us ++ post,by rw [hpost,tokensOf_append,List.append_assoc]⟩

/-- The children of a tree lie right behind its root. -/
theorem children {a : Label} {cs : List (Rose Label)} (h : LiesAt toks i (.node a cs :: ts)) :
    LiesAt toks (i + 1) (cs ++ ts) := by
  obtain ⟨post,hpost⟩ := h
  rw [tokensOf_node,List.cons_append] at hpost
  exact ⟨post,drop_succ_of_drop hpost⟩

theorem key (h : LiesAt toks i (keyNode m :: ts)) : readToken toks i = .ok (Label.token (m.1,1)) := h.read

theorem value (h : LiesAt toks i (keyNode m :: ts)) : LiesAt toks (i + 1) (m.2 :: ts) := h.children

end LiesAt
end Reading

theorem Shaped.count_eq_one {t : Rose Label} (ht : Shaped t) (hroot : isContainer (rootToken t) = false) :
    t.count = 1 := by
  cases ht with
  | leaf a htype => exact count_leaf a
  | array a cs htype hcs => simp [rootToken,Label.token,isContainer,htype] at hroot
  | object a ms htype hkeys hvalues => simp [rootToken,Label.token,isContainer,htype] at hroot

section Consuming
variable {toks : List Token} {parsed : ℕ} {consume : ℕ → Except Crash ℕ}

/-- The given function passes a tree, wherever it lies. -/
def Passes (consume : ℕ → Except Crash ℕ) (toks : List Token) (parsed : ℕ) (t : Rose Label) : Prop :=
  ∀ i ts, LiesAt toks i (t :: ts) → i + t.count ≤ parsed → isContainer (rootToken t) = true →
    consume i = .ok (i + t.count)

theorem passValue_eq {t : Rose Label} {ts : List (Rose Label)} {i : ℕ} (h : LiesAt toks i (t :: ts))
    (ht : Shaped t) (hparsed : i + t.count ≤ parsed) (hc : Passes consume toks parsed t) :
    passValue consume toks i = .ok (i + t.count) := by
  cases hroot : isContainer (rootToken t) with
  | true => simp [passValue,h.read,hroot,hc i ts h hparsed hroot,bind,Except.bind]
  | false => simp [passValue,h.read,hroot,ht.count_eq_one hroot,bind,Except.bind]

theorem consumeEntries_array {cs ts : List (Rose Label)} {i : ℕ} (h : LiesAt toks i (cs ++ ts))
    (hcs : ∀ c ∈ cs, Shaped c) (hparsed : i + counts cs ≤ parsed)
    (hc : ∀ c ∈ cs, Passes consume toks parsed c) :
    consumeEntries consume toks .array parsed cs.length i = .ok (i + counts cs) := by
  induction cs generalizing i with
  | nil => simp [consumeEntries]
  | cons c cs ih =>
    have hpos := count_pos c
    rw [counts_cons] at hparsed
    have hlt : i < parsed := by omega
    have hpass := passValue_eq h (hcs c List.mem_cons_self) (by omega) (hc c List.mem_cons_self)
    have hrest := ih h.tail (fun x hx => hcs x (List.mem_cons_of_mem _ hx)) (by omega)
      (fun x hx => hc x (List.mem_cons_of_mem _ hx))
    simp only [List.length_cons,consumeEntries,if_pos hlt,reduceCtorEq,if_false,hpass,bind,Except.bind,hrest,
      counts_cons,Nat.add_assoc]

theorem consumeEntries_object {ms : List (Label × Rose Label)} {ts : List (Rose Label)} {i : ℕ}
    (h : LiesAt toks i (ms.map keyNode ++ ts)) (hms : ∀ m ∈ ms, Shaped m.2)
    (hparsed : i + counts (ms.map keyNode) ≤ parsed)
    (hc : ∀ m ∈ ms, Passes consume toks parsed m.2) :
    consumeEntries consume toks .object parsed ms.length i = .ok (i + counts (ms.map keyNode)) := by
  induction ms generalizing i with
  | nil => simp [consumeEntries]
  | cons m ms ih =>
    have hpos := count_pos m.2
    rw [List.map_cons,counts_cons,count_keyNode] at hparsed
    have hlt : i < parsed := by omega
    have hpass := passValue_eq (LiesAt.value h) (hms m List.mem_cons_self) (by omega)
      (hc m List.mem_cons_self)
    have hnext : i + 1 + m.2.count = i + (keyNode m).count := by
      rw [count_keyNode]
      omega
    rw [hnext] at hpass
    have hrest := ih h.tail (fun x hx => hms x (List.mem_cons_of_mem _ hx))
      (by rw [count_keyNode]; omega) (fun x hx => hc x (List.mem_cons_of_mem _ hx))
    simp only [List.length_cons,consumeEntries,if_pos hlt,if_true,hpass,bind,Except.bind,hrest,
      List.map_cons,counts_cons,Nat.add_assoc]

/-- Enough fuel for the tokens of a tree is enough to pass it. -/
theorem passes_consumeFuel {t : Rose Label} (ht : Shaped t) {fuel : ℕ} (hf : t.count ≤ fuel) :
    Passes (consumeFuel toks parsed fuel) toks parsed t := by
  induction ht generalizing fuel with
  | leaf a htype =>
    intro i ts h hparsed hroot
    rcases htype with htype | htype <;> simp [rootToken,Label.token,isContainer,htype] at hroot
  | array a cs htype hcs ih =>
    intro i ts h hparsed hroot
    rw [count_node] at hf hparsed
    obtain ⟨fuel,rfl⟩ : ∃ n, fuel = n + 1 := ⟨fuel - 1,by omega⟩
    have hlt : ¬ parsed ≤ i := by omega
    have hchild : ∀ c ∈ cs, Passes (consumeFuel toks parsed fuel) toks parsed c := by
      intro c hc
      have hle := count_le_counts hc
      exact ih c hc (by omega)
    have hentries := consumeEntries_array h.children hcs (by omega) hchild
    have hsize : (rootToken (.node a cs)).size = cs.length := rfl
    have harray : (rootToken (.node a cs)).type = .array := htype
    simp [consumeFuel,h.read,hroot,hlt,hsize,harray,hentries,bind,Except.bind,count_node]
    omega
  | object a ms htype hkeys hvalues ih =>
    intro i ts h hparsed hroot
    rw [count_node] at hf hparsed
    obtain ⟨fuel,rfl⟩ : ∃ n, fuel = n + 1 := ⟨fuel - 1,by omega⟩
    have hlt : ¬ parsed ≤ i := by omega
    have hchild : ∀ m ∈ ms, Passes (consumeFuel toks parsed fuel) toks parsed m.2 := by
      intro m hm
      have hle := count_le_counts (List.mem_map_of_mem (f := keyNode) hm)
      rw [count_keyNode] at hle
      exact ih m hm (by omega)
    have hentries := consumeEntries_object h.children hvalues (by omega) hchild
    have hsize : (rootToken (.node a (ms.map keyNode))).size = ms.length := by
      simp [rootToken,Label.token]
    have hobject : (rootToken (.node a (ms.map keyNode))).type = .object := htype
    simp [consumeFuel,h.read,hroot,hlt,hsize,hobject,hentries,bind,Except.bind,count_node]
    omega

/-- Passing a container ends right behind its tokens, whatever follows them. -/
theorem passes_consumeObjectOrArray {t : Rose Label} (ht : Shaped t) :
    Passes (consumeObjectOrArray toks · parsed) toks parsed t := by
  intro i ts h hparsed hroot
  exact passes_consumeFuel ht (by omega) i ts h hparsed hroot

theorem skipValue_eq {t : Rose Label} {ts : List (Rose Label)} {i : ℕ} (h : LiesAt toks i (t :: ts))
    (ht : Shaped t) (hparsed : i + t.count ≤ parsed) : skipValue toks i parsed = .ok (i + t.count) :=
  passValue_eq h ht hparsed (passes_consumeObjectOrArray ht)

end Consuming

section Advancing
variable {toks : List Token} {parsed : ℕ}

/-- Passing moves forward on any tokens. -/
theorem lt_of_passValue {consume : ℕ → Except Crash ℕ} (hc : ∀ i j, consume i = .ok j → i < j) {i j : ℕ}
    (h : passValue consume toks i = .ok j) : i < j := by
  unfold passValue at h
  cases hread : readToken toks i with
  | error e => simp [hread,bind,Except.bind] at h
  | ok t =>
    simp only [hread,bind,Except.bind] at h
    split at h
    · exact hc i j h
    · cases h
      omega

theorem le_of_consumeEntries {consume : ℕ → Except Crash ℕ} (hc : ∀ i j, consume i = .ok j → i < j)
    (type : TokenType) {n i j : ℕ} (h : consumeEntries consume toks type parsed n i = .ok j) : i ≤ j := by
  induction n generalizing i with
  | zero =>
    cases h
    exact le_rfl
  | succ n ih =>
    unfold consumeEntries at h
    split at h
    · cases hpass : passValue consume toks (if type = .object then i + 1 else i) with
      | error e => simp [hpass,bind,Except.bind] at h
      | ok k =>
        simp only [hpass,bind,Except.bind] at h
        have hlt := lt_of_passValue hc hpass
        have hle := ih h
        split at hlt <;> omega
    · cases h
      exact le_rfl

theorem lt_of_consumeFuel {fuel i j : ℕ} (h : consumeFuel toks parsed fuel i = .ok j) : i < j := by
  induction fuel generalizing i j with
  | zero => cases h
  | succ fuel ih =>
    unfold consumeFuel at h
    cases hread : readToken toks i with
    | error e => simp [hread,bind,Except.bind] at h
    | ok t =>
      simp only [hread,bind,Except.bind] at h
      split at h
      · cases h
      · split at h
        · cases h
        · exact le_of_consumeEntries (fun _ _ hij => ih hij) _ h

theorem lt_of_skipValue {i j : ℕ} (h : skipValue toks i parsed = .ok j) : i < j :=
  lt_of_passValue (fun _ _ hij => lt_of_consumeFuel hij) h

end Advancing
end Lightsd.Core.Jsonrpc
