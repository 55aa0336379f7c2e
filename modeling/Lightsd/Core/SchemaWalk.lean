import Lightsd.Core.TokenTrees

/-! # Extraction in terms of members and elements

On the tokens of a well-formed object, the walk by a schema goes from member to member and
hands on to whatever follows the object; on those of an array it goes from element to
element. Both are stated as recursions over the trees of the members and elements, from
which the indices and the loops of the source have gone.
-/
namespace Lightsd.Core.Jsonrpc

open OrderedTree IndexLoop

section Walk
variable {φ : Type} [DecidableEq φ] (schema : List (Node φ)) (json : List UInt8)

namespace Output

/-- What an accepted value at an index fills in. -/
def fill (out : Output φ) (node : Node φ) (ti : ℕ) (t : Rose Label) : Output φ :=
  (out.setValue node.valueOffset ti).setNtokens node.ntokensOffset t.count

end Output

/-- The walk over members that begin at an index. -/
def walkPairs : ℕ → List (Label × Rose Label) → Output φ → Bool × Output φ
  | _, [], out => (true,out)
  | i, m :: ms, out =>
    match findNode schema json (Label.token (m.1,1)) with
    | none => walkPairs (i + (keyNode m).count) ms out
    | some node =>
      if !node.typeCmp (rootToken m.2) json then (false,out)
      else if out.seen node.valueOffset then (false,out)
      else walkPairs (i + (keyNode m).count) ms (out.fill node (i + 1) m.2)

/-- The walk over all elements of an array that begin at an index. -/
def walkItems : List (Node φ) → ℕ → List (Rose Label) → Output φ → Bool × Output φ
  | [], _, cs, out => (cs.isEmpty,out)
  | _ :: _, _, [], out => (true,out)
  | node :: nodes, i, c :: cs, out =>
    if !node.typeCmp (rootToken c) json then (false,out)
    else walkItems nodes (i + c.count) cs (out.fill node i c)

variable (toks : List Token)

theorem dictBody_advances (limit : ℕ) : Advances (dictBody schema toks json limit) limit := by
  intro i out i' out' hi h
  unfold dictBody at h
  cases hkey : readToken toks i with
  | error e => simp [hkey,bind,Except.bind] at h
  | ok key =>
    simp only [hkey,bind,Except.bind] at h
    split at h
    · cases h
    · split at h
      · cases hskip : skipValue toks (i + 1) limit with
        | error e => simp [hskip] at h
        | ok next =>
          simp only [hskip] at h
          cases h
          have hlt := lt_of_skipValue hskip
          omega
      · cases hvalue : readToken toks (i + 1) with
        | error e => simp [hvalue] at h
        | ok value =>
          simp only [hvalue] at h
          split at h
          · cases h
          · split at h
            · cases h
            · cases hskip : skipValue toks (i + 1) limit with
              | error e => simp [hskip] at h
              | ok next =>
                simp only [hskip] at h
                cases h
                have hlt := lt_of_skipValue hskip
                omega

/-- The walk of an object from an index on, as the loop of the source makes it. -/
def dictWalk (limit i : ℕ) (out : Output φ) : Except Crash (Bool × Output φ) :=
  loop (dictBody schema toks json limit) (true,·) .endless limit i out

variable {schema json toks} {limit i : ℕ}

theorem dictWalk_end (hi : limit ≤ i) (out : Output φ) : dictWalk schema json toks limit i out = .ok (true,out) := by
  have hnot : ¬ i < limit := by omega
  rw [dictWalk,loop_eq (dictBody_advances schema json toks limit),if_neg hnot]

/-- A token that is no string ends the walk. -/
theorem dictWalk_stop {t : Token} (hread : readToken toks i = .ok t) (ht : t.type ≠ .string)
    (out : Output φ) : dictWalk schema json toks limit i out = .ok (true,out) := by
  rw [dictWalk,loop_eq (dictBody_advances schema json toks limit)]
  split
  · simp [dictBody,hread,ht,bind,Except.bind]
  · rfl

/-- A string at the very end is taken for a key, whose value is then read past the end. -/
theorem dictWalk_dangling {key : Token} (hdrop : toks.drop i = [key]) (hkey : key.type = .string)
    (out : Output φ) : dictWalk schema json toks (i + 1) i out = .error (.tokenIndex (i + 1)) := by
  have hread := readToken_of_drop hdrop
  have hnext : toks[i + 1]? = none := by
    have hnil := drop_succ_of_drop hdrop
    rw [List.drop_eq_nil_iff] at hnil
    exact List.getElem?_eq_none hnil
  have hpast : readToken toks (i + 1) = .error (.tokenIndex (i + 1)) := by simp [readToken,hnext]
  rw [dictWalk,loop_eq (dictBody_advances schema json toks (i + 1)),if_pos (Nat.lt_succ_self i)]
  simp only [dictBody,hread,bind,Except.bind,hkey,ne_eq,not_true_eq_false,if_false]
  cases findNode schema json key with
  | none => simp [skipValue,passValue,hpast,bind,Except.bind]
  | some node => simp [hpast]

/-- One member of the walk, whose key is the token at the index. -/
theorem dictWalk_pair {key : Token} {t : Rose Label} {ts : List (Rose Label)}
    (hread : readToken toks i = .ok key) (hkey : key.type = .string) (h : LiesAt toks (i + 1) (t :: ts))
    (ht : Shaped t) (hlimit : i + 1 + t.count ≤ limit) (out : Output φ) :
    dictWalk schema json toks limit i out =
      match findNode schema json key with
      | none => dictWalk schema json toks limit (i + 1 + t.count) out
      | some node =>
        if !node.typeCmp (rootToken t) json then .ok (false,out)
        else if out.seen node.valueOffset then .ok (false,out)
        else dictWalk schema json toks limit (i + 1 + t.count) (out.fill node (i + 1) t) := by
  have hi : i < limit := by omega
  have hskip := skipValue_eq h ht hlimit
  have hn : i + 1 + t.count - (i + 1) = t.count := by omega
  rw [dictWalk,loop_eq (dictBody_advances schema json toks limit),if_pos hi]
  simp only [dictBody,hread,bind,Except.bind,hkey,ne_eq,not_true_eq_false,if_false]
  cases findNode schema json key with
  | none => simp only [hskip,dictWalk]
  | some node =>
    cases htype : node.typeCmp (rootToken t) json with
    | false => simp [h.read,htype]
    | true =>
      cases hseen : out.seen node.valueOffset with
      | true => simp [h.read,htype,hseen]
      | false => simp [h.read,htype,hseen,hskip,hn,dictWalk,Output.fill]

/-- The walk of the members of an object goes on behind them, unless it has failed. -/
theorem dictWalk_pairs {ms : List (Label × Rose Label)} {ts : List (Rose Label)}
    (h : LiesAt toks i (ms.map keyNode ++ ts)) (hkeys : ∀ m ∈ ms, m.1.type = .string)
    (hvalues : ∀ m ∈ ms, Shaped m.2) (hlimit : i + counts (ms.map keyNode) ≤ limit) (out : Output φ) :
    dictWalk schema json toks limit i out =
      if (walkPairs schema json i ms out).1 then
        dictWalk schema json toks limit (i + counts (ms.map keyNode)) (walkPairs schema json i ms out).2
      else .ok (walkPairs schema json i ms out) := by
  induction ms generalizing i out with
  | nil => simp [walkPairs]
  | cons m ms ih =>
    rw [List.map_cons,counts_cons,count_keyNode] at hlimit
    have hnext : i + 1 + m.2.count = i + (keyNode m).count := by
      rw [count_keyNode]
      omega
    have hrest := fun out => ih h.tail (fun x hx => hkeys x (List.mem_cons_of_mem _ hx))
      (fun x hx => hvalues x (List.mem_cons_of_mem _ hx)) (by rw [count_keyNode]; omega) out
    rw [dictWalk_pair (LiesAt.key h) (hkeys m List.mem_cons_self) (LiesAt.value h)
      (hvalues m List.mem_cons_self) (by omega) out,hnext]
    simp only [walkPairs,List.map_cons,counts_cons,← Nat.add_assoc]
    cases findNode schema json (Label.token (m.1,1)) with
    | none => exact hrest out
    | some node =>
      simp only
      split
      · simp
      · split
        · simp
        · exact hrest _

/-- What an object and the tokens behind it give, in terms of its members. -/
theorem extractFromDict_object {a : Label} {ms : List (Label × Rose Label)} {ts : List (Rose Label)}
    {base ntokens : ℕ} (h : LiesAt toks base (.node a (ms.map keyNode) :: ts)) (ha : a.type = .object)
    (hkeys : ∀ m ∈ ms, m.1.type = .string) (hvalues : ∀ m ∈ ms, Shaped m.2)
    (hn : 1 + counts (ms.map keyNode) ≤ ntokens) (out : Output φ) :
    extractFromDict schema toks json out base ntokens =
      if (walkPairs schema json (base + 1) ms out).1 then
        (dictWalk schema json toks (base + ntokens) (base + 1 + counts (ms.map keyNode))
          (walkPairs schema json (base + 1) ms out).2).map (fun r => (r.1 && complete schema r.2,r.2))
      else .ok (false,(walkPairs schema json (base + 1) ms out).2) := by
  have hpos : ntokens ≠ 0 := by omega
  have htype : (rootToken (.node a (ms.map keyNode))).type = .object := ha
  have hwalk : dictWalk schema json toks (base + ntokens) (base + 1) out = _ :=
    dictWalk_pairs h.children hkeys hvalues (by omega) out
  rw [dictWalk] at hwalk
  simp only [extractFromDict,if_neg hpos,h.read,bind,Except.bind,htype,ne_eq,not_true_eq_false,if_false,hwalk]
  cases hok : (walkPairs schema json (base + 1) ms out).1 with
  | false => simp [hok]
  | true =>
    simp only [if_true]
    cases dictWalk schema json toks (base + ntokens) (base + 1 + counts (ms.map keyNode))
      (walkPairs schema json (base + 1) ms out).2 <;> rfl

/-- The walk of an array that is given exactly its own tokens. -/
theorem arrayLoop_items {cs ts : List (Rose Label)} (h : LiesAt toks i (cs ++ ts))
    (hcs : ∀ c ∈ cs, Shaped c) (hlimit : limit = i + counts cs) (nodes : List (Node φ)) (out : Output φ) :
    arrayLoop toks json limit nodes i cs.length out = .ok (walkItems json nodes i cs out) := by
  induction nodes generalizing i cs out with
  | nil =>
    cases cs <;> simp [arrayLoop,walkItems]
  | cons node nodes ih =>
    cases cs with
    | nil =>
      have hnot : ¬ i < limit := by simp [hlimit]
      simp [arrayLoop,walkItems,hnot]
    | cons c cs =>
      have hpos := count_pos c
      rw [counts_cons] at hlimit
      have hi : i < limit := by omega
      have hskip := skipValue_eq h (hcs c List.mem_cons_self) (by omega : i + c.count ≤ limit)
      have hn : i + c.count - i = c.count := by omega
      have hrest := fun out => ih h.tail (fun x hx => hcs x (List.mem_cons_of_mem _ hx)) (by omega) out
      simp only [List.length_cons,arrayLoop,if_pos hi,LiesAt.read h,bind,Except.bind,walkItems]
      split
      · rfl
      · simp only [hskip,hn]
        exact hrest _

end Walk
end Lightsd.Core.Jsonrpc
