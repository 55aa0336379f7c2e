import Lightsd.Core.Primitives
import Lightsd.Core.SchemaEntries

/-! # Which tokens are read

Passing a container, with the reading of tokens as a parameter. The tokens that are read lie
between the one where it begins and the one where it goes on, whatever they are, so any
other way to read that agrees on these leads to the same.
-/
namespace Lightsd.Core.Jsonrpc

open Json Jsmn

section Readers
variable (read : ℕ → Except Crash Token)

def passValueBy (consume : ℕ → Except Crash ℕ) (ti : ℕ) : Except Crash ℕ := do
  let tok ← read ti
  if isContainer tok then consume ti else .ok (ti + 1)

def consumeEntriesBy (consume : ℕ → Except Crash ℕ) (type : TokenType) (parsed : ℕ) : ℕ → ℕ → Except Crash ℕ
  | 0, ti => .ok ti
  | objsize + 1, ti =>
    if ti < parsed then do
      let ti ← passValueBy read consume (if type = .object then ti + 1 else ti)
      consumeEntriesBy consume type parsed objsize ti
    else .ok ti

def consumeFuelBy (parsed : ℕ) : ℕ → ℕ → Except Crash ℕ
  | 0, _ => .error .endless
  | fuel + 1, ti => do
    let tok ← read ti
    if !isContainer tok then .error (.notContainer ti)
    else if parsed ≤ ti then .error (.pastEnd ti)
    else consumeEntriesBy read (consumeFuelBy parsed fuel) tok.type parsed tok.size (ti + 1)

/-- Passing an object or an array with a given way to read tokens. -/
def consumeObjectOrArrayBy (ti parsed : ℕ) : Except Crash ℕ := consumeFuelBy read parsed (parsed - ti + 1) ti

end Readers

section Array
variable (toks : List Token)

theorem consumeEntries_by (consume : ℕ → Except Crash ℕ) (type : TokenType) (parsed n i : ℕ) :
    consumeEntries consume toks type parsed n i = consumeEntriesBy (readToken toks) consume type parsed n i := by
  induction n generalizing i with
  | zero => rfl
  | succ n ih =>
    unfold consumeEntries consumeEntriesBy
    simp only [ih]
    rfl

theorem consumeFuel_by (parsed fuel i : ℕ) :
    consumeFuel toks parsed fuel i = consumeFuelBy (readToken toks) parsed fuel i := by
  induction fuel generalizing i with
  | zero => rfl
  | succ fuel ih =>
    have hconsume : consumeFuel toks parsed fuel = consumeFuelBy (readToken toks) parsed fuel := funext ih
    unfold consumeFuel consumeFuelBy
    simp only [consumeEntries_by,hconsume]

/-- The model is the one that reads from the array of tokens. -/
theorem consumeObjectOrArray_by (ti parsed : ℕ) :
    consumeObjectOrArray toks ti parsed = consumeObjectOrArrayBy (readToken toks) ti parsed := consumeFuel_by toks _ _ _

end Array

section Windows
variable {read read' : ℕ → Except Crash Token} {parsed i j : ℕ}

/-- Two ways to read that agree from an index up to another one. -/
def AgreeOn (read read' : ℕ → Except Crash Token) (i j : ℕ) : Prop := ∀ k, i ≤ k → k < j → read' k = read k

theorem AgreeOn.mono {i' j' : ℕ} (h : AgreeOn read read' i j) (hi : i ≤ i') (hj : j' ≤ j) : AgreeOn read read' i' j' :=
  fun k hk hkj => h k (hi.trans hk) (hkj.trans_le hj)

/-- A step that moves on and reads nothing but what it passes. -/
def ReadsWindow (consume consume' : ℕ → Except Crash ℕ) (read read' : ℕ → Except Crash Token) : Prop :=
  ∀ i j, consume i = .ok j → i < j ∧ (AgreeOn read read' i j → consume' i = .ok j)

theorem passValueBy_window {consume consume' : ℕ → Except Crash ℕ} (hc : ReadsWindow consume consume' read read') :
    ReadsWindow (passValueBy read consume) (passValueBy read' consume') read read' := by
  intro i j h
  obtain ⟨tok,hread,hpass⟩ := exists_of_bind_ok h
  unfold passValueBy
  split at hpass
  next hcontainer =>
    obtain ⟨hlt,hsame⟩ := hc i j hpass
    refine ⟨hlt,fun hagree => ?_⟩
    rw [hagree i le_rfl hlt,hread]
    simpa [bind,Except.bind,hcontainer] using hsame hagree
  next hplain =>
    cases hpass
    refine ⟨Nat.lt_succ_self i,fun hagree => ?_⟩
    rw [hagree i le_rfl (Nat.lt_succ_self i),hread]
    simp [bind,Except.bind,hplain]

theorem consumeEntriesBy_window {consume consume' : ℕ → Except Crash ℕ} (hc : ReadsWindow consume consume' read read')
    {type : TokenType} {n : ℕ} (h : consumeEntriesBy read consume type parsed n i = .ok j) :
    i ≤ j ∧ (AgreeOn read read' i j → consumeEntriesBy read' consume' type parsed n i = .ok j) := by
  induction n generalizing i with
  | zero =>
    cases h
    exact ⟨le_rfl,fun _ => rfl⟩
  | succ n ih =>
    unfold consumeEntriesBy at h ⊢
    split at h
    next hlt =>
      obtain ⟨k,hpass,hrest⟩ := exists_of_bind_ok h
      obtain ⟨hik,hsame⟩ := passValueBy_window hc _ _ hpass
      obtain ⟨hkj,hsame'⟩ := ih hrest
      have hstart : i ≤ if type = .object then i + 1 else i := by split <;> omega
      refine ⟨by omega,fun hagree => ?_⟩
      simp only [if_pos hlt,hsame (hagree.mono hstart hkj),bind,Except.bind]
      exact hsame' (hagree.mono (by omega) le_rfl)
    next hge =>
      cases h
      exact ⟨le_rfl,fun _ => if_neg hge⟩

theorem consumeFuelBy_window (parsed fuel : ℕ) :
    ReadsWindow (consumeFuelBy read parsed fuel) (consumeFuelBy read' parsed fuel) read read' := by
  induction fuel with
  | zero => exact fun _ _ h => by cases h
  | succ fuel ih =>
    intro i j h
    obtain ⟨tok,hread,hrest⟩ := exists_of_bind_ok h
    split at hrest
    · cases hrest
    next hcontainer =>
      split at hrest
      · cases hrest
      next hparsed =>
        obtain ⟨hle,hsame⟩ := consumeEntriesBy_window ih hrest
        refine ⟨hle,fun hagree => ?_⟩
        unfold consumeFuelBy
        rw [hagree i le_rfl hle,hread]
        simp only [bind,Except.bind,hcontainer,hparsed,if_false,Bool.false_eq_true]
        exact hsame (hagree.mono (Nat.le_succ i) le_rfl)

/-- A container is passed with all that it contains, whatever stands behind it, and its own
tokens are all that is read. -/
theorem container_skipped {v : Value} {toks : List Token} {pos ti parsed : ℕ} (hv : v.IsContainer)
    (hlies : LiesAt toks ti [v.node pos]) (hparsed : ti + v.ntokens ≤ parsed) :
    consumeObjectOrArray toks ti parsed = .ok (ti + v.ntokens) ∧
      ∀ read, AgreeOn (readToken toks) read ti (ti + v.ntokens) →
        consumeObjectOrArrayBy read ti parsed = .ok (ti + v.ntokens) := by
  have hroot : isContainer (rootToken (v.node pos)) = true := by
    cases v with
    | string chars => cases hv
    | primitive chars => cases hv
    | array space items => simp [Value.node,rootToken,Label.token,isContainer]
    | object space members => simp [Value.node,rootToken,Label.token,isContainer]
  have hcount : ti + (v.node pos).count ≤ parsed := by rwa [Value.count_node]
  have hpass : consumeObjectOrArray toks ti parsed = .ok (ti + (v.node pos).count) :=
    passes_consumeObjectOrArray (v.shaped pos) ti [] hlies hcount hroot
  rw [Value.count_node] at hpass
  refine ⟨hpass,fun read hagree => ?_⟩
  rw [consumeObjectOrArray_by] at hpass
  exact (consumeFuelBy_window parsed _ ti _ hpass).2 hagree

/-- An array in an array, with a number behind it. -/
theorem container_skipped_nested :
    consumeObjectOrArray
        [⟨.array,0,9,2⟩,⟨.array,1,6,2⟩,⟨.primitive,2,3,0⟩,⟨.primitive,4,5,0⟩,⟨.primitive,7,8,0⟩] 1 5 =
      .ok (1 + 3) := by
  have hlies : LiesAt
      [⟨.array,0,9,2⟩,⟨.array,1,6,2⟩,⟨.primitive,2,3,0⟩,⟨.primitive,4,5,0⟩,⟨.primitive,7,8,0⟩] 1
      [(Value.array [] (.cons [] (.primitive [49]) [] (.cons [] (.primitive [50]) [] .nil))).node 1] :=
    ⟨[⟨.primitive,7,8,0⟩],by decide +kernel⟩
  exact (container_skipped (v := .array [] (.cons [] (.primitive [49]) [] (.cons [] (.primitive [50]) [] .nil)))
    trivial hlies (by decide)).1

end Windows
end Lightsd.Core.Jsonrpc
