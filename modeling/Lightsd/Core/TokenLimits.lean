import Lightsd.Core.ExtractedFields

/-! # Parameters are read where they were passed

A container that has been passed can be passed again when no more than its own tokens are
given. The walks over parameters are given exactly those and make the same steps as the
passing did, so whatever the tokens are they read none that is not there.
-/
namespace Lightsd.Core.Jsonrpc

open IndexLoop Jsmn

section Limits
variable {toks : List Token} {limit limit' : ℕ}

/-- A function that goes where another one went, from a start up to an end. -/
def SameBelow (consume consume' : ℕ → Except Crash ℕ) (limit limit' start stop : ℕ) : Prop :=
  ∀ i k, start ≤ i → consume i = .ok k → k ≤ stop → (limit ≤ k → limit' = k) → consume' i = .ok k

theorem passValue_limit {consume consume' : ℕ → Except Crash ℕ} {i k : ℕ}
    (hc : SameBelow consume consume' limit limit' i k) (h : passValue consume toks i = .ok k)
    (hstop : limit ≤ k → limit' = k) : passValue consume' toks i = .ok k := by
  obtain ⟨tok,hread,hpass⟩ := exists_of_bind_ok h
  unfold passValue
  simp only [hread,bind,Except.bind]
  split at hpass
  next hcontainer =>
    rw [if_pos hcontainer]
    exact hc i k le_rfl hpass le_rfl hstop
  next hplain =>
    rw [if_neg hplain]
    exact hpass

/-- The entries that are left when a limit is reached are not looked at. -/
theorem consumeEntries_stop {consume : ℕ → Except Crash ℕ} {type : TokenType} {n i k : ℕ}
    (h : consumeEntries consume toks type limit n i = .ok k) (hi : limit ≤ i) : k = i := by
  cases n with
  | zero => exact (Except.ok.inj h).symm
  | succ n =>
    rw [consumeEntries,if_neg (by omega)] at h
    exact (Except.ok.inj h).symm

/-- One entry of a container that is passed. -/
theorem consumeEntries_succ {consume : ℕ → Except Crash ℕ} {type : TokenType} {n i k : ℕ}
    (h : consumeEntries consume toks type limit (n + 1) i = .ok k) (hi : i < limit) :
    ∃ j, passValue consume toks (if type = .object then i + 1 else i) = .ok j ∧
      consumeEntries consume toks type limit n j = .ok k := by
  rw [consumeEntries,if_pos hi] at h
  exact exists_of_bind_ok h

theorem consumeEntries_limit {consume consume' : ℕ → Except Crash ℕ} {type : TokenType} {n i k : ℕ}
    (hc : SameBelow consume consume' limit limit' i k) (hadv : ∀ i j, consume i = .ok j → i < j)
    (h : consumeEntries consume toks type limit n i = .ok k) (hk : k ≤ limit') (hstop : limit ≤ k → limit' = k) :
    consumeEntries consume' toks type limit' n i = .ok k := by
  induction n generalizing i with
  | zero => exact h
  | succ n ih =>
    by_cases hi : i < limit
    · obtain ⟨j,hpass,hrest⟩ := consumeEntries_succ h hi
      have hstart : i ≤ if type = .object then i + 1 else i := by split <;> omega
      have hlt := lt_of_passValue hadv hpass
      have hjk := le_of_consumeEntries hadv type hrest
      have hjstop : limit ≤ j → limit' = j := by
        intro hj
        obtain rfl := consumeEntries_stop hrest hj
        exact hstop hj
      have hpass' := passValue_limit
        (fun i' k' hi' h' hk' => hc i' k' (hstart.trans hi') h' (hk'.trans hjk)) hpass hjstop
      have hrest' := ih (fun i' k' hi' => hc i' k' (by omega)) hrest
      rw [consumeEntries,if_pos (by omega),hpass']
      exact hrest'
    · obtain rfl := consumeEntries_stop h (by omega)
      have hlimit := hstop (by omega)
      rw [consumeEntries,if_neg (by omega)]

/-- A container that was passed is passed with the limit right behind it, and with no more fuel
than it has tokens. -/
theorem consumeFuel_limit {fuel fuel' i k : ℕ} (h : consumeFuel toks limit fuel i = .ok k) (hk : k ≤ limit')
    (hstop : limit ≤ k → limit' = k) (hf : k ≤ i + fuel') : consumeFuel toks limit' fuel' i = .ok k := by
  induction fuel generalizing fuel' i k with
  | zero => cases h
  | succ fuel ih =>
    have hlt := lt_of_consumeFuel h
    obtain ⟨tok,hread,hrest⟩ := exists_of_bind_ok h
    obtain ⟨fuel',rfl⟩ : ∃ n, fuel' = n + 1 := ⟨fuel' - 1,by omega⟩
    split at hrest
    · cases hrest
    next hcontainer =>
      split at hrest
      · cases hrest
      next hbelow =>
        unfold consumeFuel
        simp only [hread,bind,Except.bind]
        rw [if_neg hcontainer,if_neg (by omega)]
        refine consumeEntries_limit ?_ (fun _ _ hij => lt_of_consumeFuel hij) hrest hk hstop
        intro i' k' hi' h' hk' hstop'
        exact ih h' (hk'.trans hk) hstop' (by omega)

theorem skipValue_limit {i k : ℕ} (h : skipValue toks i limit = .ok k) (hk : k ≤ limit')
    (hstop : limit ≤ k → limit' = k) : skipValue toks i limit' = .ok k := by
  refine passValue_limit ?_ h hstop
  intro i' k' _ h' hk' hstop'
  exact consumeFuel_limit h' (hk'.trans hk) hstop' (by have := lt_of_consumeFuel h'; omega)

/-- What is passed of a container whose tokens end at a limit: the entries that are left. -/
def EntriesLeft (toks : List Token) (type : TokenType) (limit n i : ℕ) : Prop :=
  consumeEntries (consumeObjectOrArray toks · limit) toks type limit n i = .ok limit

/-- A container that was passed consists of its entries. -/
theorem entriesLeft_of_skipValue {base k : ℕ} {t : Token} (hread : readToken toks base = .ok t)
    (ht : isContainer t = true) (h : skipValue toks base limit = .ok k) :
    EntriesLeft toks t.type k t.size (base + 1) := by
  have hlimit := skipValue_limit h le_rfl (fun _ => rfl)
  obtain ⟨t',hread',hpass⟩ := exists_of_bind_ok hlimit
  obtain rfl : t = t' := Except.ok.inj (hread.symm.trans hread')
  rw [if_pos ht] at hpass
  obtain ⟨t',hread',hrest⟩ := exists_of_bind_ok hpass
  obtain rfl : t = t' := Except.ok.inj (hread.symm.trans hread')
  have hlt := lt_of_consumeFuel hpass
  rw [ht,Bool.not_true,if_neg Bool.false_ne_true,if_neg (by omega)] at hrest
  refine consumeEntries_limit ?_ (fun _ _ hij => lt_of_consumeFuel hij) hrest le_rfl (fun _ => rfl)
  intro i k' _ h' hk' hstop'
  exact consumeFuel_limit h' hk' hstop' (by have := lt_of_consumeFuel h'; omega)

/-- An entry that is left can be passed, and then the others are left. -/
theorem EntriesLeft.next {type : TokenType} {n i : ℕ} (h : EntriesLeft toks type limit (n + 1) i) (hi : i < limit) :
    ∃ j, skipValue toks (if type = .object then i + 1 else i) limit = .ok j ∧ EntriesLeft toks type limit n j :=
  consumeEntries_succ h hi

theorem EntriesLeft.pos {type : TokenType} {n i : ℕ} (h : EntriesLeft toks type limit n i) (hi : i < limit) :
    ∃ m, n = m + 1 := by
  cases n with
  | zero =>
    have := Except.ok.inj h
    omega
  | succ m => exact ⟨m,rfl⟩

end Limits

/-- The walks that are not stopped by a token: those that fail otherwise are not excluded. -/
def notAtToken (c : Crash) : Bool := !c.atToken

section Params
variable {φ : Type} [DecidableEq φ] {schema : List (Node φ)} {toks : List Token} {json : List UInt8}

theorem readToken_fits {p : Crash → Bool} {i : ℕ} (h : i < toks.length) : Fails p (readToken toks i) := by
  obtain ⟨t,ht⟩ := exists_readToken h
  rw [ht]
  exact fails_ok t

theorem fails_of_ok {α : Type} {p : Crash → Bool} {x : Except Crash α} {a : α} (h : x = .ok a) : Fails p x := by
  rw [h]
  exact fails_ok a

theorem lt_length_of_skipValue {i j limit : ℕ} (h : skipValue toks i limit = .ok j) : i < toks.length := by
  obtain ⟨t,hread,-⟩ := exists_of_bind_ok h
  exact lt_of_readToken hread

/-- A round of the walk over an object fails at no token if the key and the value are there. -/
theorem dictBody_fits {p : Crash → Bool} {limit i : ℕ} {out : Output φ} (hi : i < toks.length)
    (hvalue : ∀ t, readToken toks i = .ok t → t.type = .string → ∃ j, skipValue toks (i + 1) limit = .ok j) :
    Fails p (dictBody schema toks json limit i out) := by
  unfold dictBody
  refine (readToken_fits hi).bind (fun key hkey => .ite (fun _ => fails_ok _) (fun hstring => ?_))
  obtain ⟨j,hj⟩ := hvalue key hkey (by simpa using hstring)
  split
  · exact (fails_of_ok hj).bind (fun _ _ => fails_ok _)
  · refine (readToken_fits (lt_length_of_skipValue hj)).bind (fun value _ => .ite (fun _ => fails_ok _) (fun _ => ?_))
    exact .ite (fun _ => fails_ok _) (fun _ => (fails_of_ok hj).bind (fun _ _ => fails_ok _))

/-- Where a round of the walk goes on. -/
theorem dictBody_next {limit i i' : ℕ} {out out' : Output φ}
    (h : dictBody schema toks json limit i out = .ok (.next i' out')) :
    ∃ t, readToken toks i = .ok t ∧ t.type = .string ∧ skipValue toks (i + 1) limit = .ok i' := by
  obtain ⟨key,hread,hkey⟩ := exists_of_bind_ok h
  split at hkey
  · cases hkey
  next hstring =>
    refine ⟨key,hread,by simpa using hstring,?_⟩
    split at hkey
    · obtain ⟨next,hskip,hnext⟩ := exists_of_bind_ok hkey
      cases hnext
      exact hskip
    · obtain ⟨t,-,hvalue⟩ := exists_of_bind_ok hkey
      split at hvalue
      · cases hvalue
      · split at hvalue
        · cases hvalue
        · obtain ⟨next,hskip,hnext⟩ := exists_of_bind_ok hvalue
          cases hnext
          exact hskip

/-- The walk over an object fails at no token if an invariant of the index says that keys have
values. -/
theorem dictWalk_fits {p : Crash → Bool} {limit i : ℕ} {out : Output φ} (Inv : ℕ → Prop) (hinv : Inv i)
    (hlimit : limit ≤ toks.length)
    (hvalue : ∀ i t, i < limit → Inv i → readToken toks i = .ok t → t.type = .string →
      ∃ j, skipValue toks (i + 1) limit = .ok j ∧ Inv j) : Fails p (dictWalk schema json toks limit i out) := by
  refine @loop_rule _ _ _ _ _ _ _ (dictBody_advances schema json toks limit) (fun i _ => Inv i)
    (fun x => Fails p x) ?_ ?_ ?_ ?_ _ _ hinv
  · exact fun _ _ _ _ => fails_ok _
  · intro i s e hi hs hbody c hc
    have hfits : Fails p (dictBody schema toks json limit i s) := by
      refine dictBody_fits (by omega) (fun t ht hstring => ?_)
      obtain ⟨j,hj,-⟩ := hvalue i t hi hs ht hstring
      exact ⟨j,hj⟩
    cases hc
    exact hfits e hbody
  · exact fun _ _ _ _ _ _ => fails_ok _
  · intro i s i' s' hi hs hbody
    obtain ⟨t,ht,hstring,hskip⟩ := dictBody_next hbody
    obtain ⟨j,hj,hinv'⟩ := hvalue i t hi hs ht hstring
    obtain rfl : j = i' := Except.ok.inj (hj.symm.trans hskip)
    exact hinv'

/-- An object that is given the tokens that were passed for it is read without a failure. -/
theorem extractFromDict_passed {p : Crash → Bool} {base n limit : ℕ} {out : Output φ}
    (h : skipValue toks base limit = .ok (base + n)) : Fails p (extractFromDict schema toks json out base n) := by
  unfold extractFromDict
  obtain ⟨-,hlength⟩ := skipValue_bounds h
  refine .ite (fun _ => fails_ok _) (fun _ => (readToken_fits (lt_length_of_skipValue h)).bind (fun t ht => ?_))
  refine .ite (fun _ => fails_ok _) (fun hobject => ?_)
  have hobject : t.type = .object := by simpa using hobject
  have hleft := entriesLeft_of_skipValue ht (by simp [isContainer,hobject]) h
  rw [hobject] at hleft
  refine Fails.bind ?_ (fun _ _ => fails_ok _)
  refine dictWalk_fits (fun i => ∃ n', EntriesLeft toks .object (base + n) n' i) ⟨_,hleft⟩ hlength ?_
  rintro i t hi ⟨m,hm⟩ - -
  obtain ⟨m,rfl⟩ := hm.pos hi
  obtain ⟨j,hj,hrest⟩ := hm.next hi
  exact ⟨j,hj,m,hrest⟩

theorem arrayLoop_passed {p : Crash → Bool} {limit : ℕ} (hlimit : limit ≤ toks.length) (nodes : List (Node φ))
    {i n : ℕ} (h : EntriesLeft toks .array limit n i) (out : Output φ) :
    Fails p (arrayLoop toks json limit nodes i n out) := by
  induction nodes generalizing i n out with
  | nil => exact fails_ok _
  | cons node nodes ih =>
    unfold arrayLoop
    refine .ite (fun hi => ?_) (fun _ => fails_ok _)
    obtain ⟨m,rfl⟩ := h.pos hi
    obtain ⟨j,hj,hrest⟩ := h.next hi
    refine (readToken_fits (by omega)).bind (fun value _ => .ite (fun _ => fails_ok _) (fun _ => ?_))
    rw [if_neg (by simp)] at hj
    refine (fails_of_ok hj).bind (fun k hk => ?_)
    obtain rfl : j = k := Except.ok.inj (hj.symm.trans hk)
    exact ih hrest _

theorem extractFromArray_passed {p : Crash → Bool} {base n limit : ℕ} {out : Output φ}
    (h : skipValue toks base limit = .ok (base + n)) : Fails p (extractFromArray schema toks json out base n) := by
  unfold extractFromArray
  obtain ⟨-,hlength⟩ := skipValue_bounds h
  refine .ite (fun _ => fails_ok _) (fun _ => (readToken_fits (lt_length_of_skipValue h)).bind (fun t ht => ?_))
  refine .ite (fun _ => fails_ok _) (fun harray => ?_)
  have harray : t.type = .array := by simpa using harray
  have hleft := entriesLeft_of_skipValue ht (by simp [isContainer,harray]) h
  rw [harray] at hleft
  exact arrayLoop_passed hlength schema hleft out

/-- Parameters that were passed are read without a failure at a token. -/
theorem extractAndValidateParams_passed {p : Crash → Bool} {base n limit : ℕ}
    (h : skipValue toks base limit = .ok (base + n)) :
    Fails p (extractAndValidateParams schema toks json (some base) n) := by
  unfold extractAndValidateParams
  refine .ite (fun _ => fails_ok _) (fun _ => (readToken_fits (lt_length_of_skipValue h)).bind (fun t _ => ?_))
  cases t.type with
  | object => exact extractFromDict_passed h
  | array => exact extractFromArray_passed h
  | primitive | string => exact fails_ok _

end Params
end Lightsd.Core.Jsonrpc
