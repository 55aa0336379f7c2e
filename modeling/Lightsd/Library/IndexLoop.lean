import Mathlib

/-! # Loops over an index

A loop runs its body as long as an index is below a limit. The body moves the index, ends
the loop with a result or fails. A loop is given fuel and fails when it is used up, but a
body that only moves the index forward needs no more fuel than there are indices left:
the loop then obeys the equation of a while loop, and the rule for its invariants.
-/
namespace IndexLoop

/-- What a round of a loop leads to. -/
inductive Step (σ ρ : Type*)
  | next (i : ℕ) (s : σ)
  | done (r : ρ)

variable {σ ρ ε : Type*}

section Definitions
variable (body : ℕ → σ → Except ε (Step σ ρ)) (finish : σ → ρ) (timeout : ε) (limit : ℕ)

/-- The rounds of a loop, no more than there is fuel for. -/
def run : ℕ → ℕ → σ → Except ε ρ
  | 0, _, _ => .error timeout
  | fuel + 1, i, s =>
    if i < limit then
      match body i s with
      | .error e => .error e
      | .ok (.done r) => .ok r
      | .ok (.next i s) => run fuel i s
    else .ok (finish s)

def loop (i : ℕ) (s : σ) : Except ε ρ := run body finish timeout limit (limit - i + 1) i s

/-- Every round below the limit moves the index forward. -/
def Advances : Prop := ∀ i s i' s', i < limit → body i s = .ok (.next i' s') → i < i'

end Definitions

variable {body : ℕ → σ → Except ε (Step σ ρ)} {finish : σ → ρ} {timeout : ε} {limit : ℕ}

/-- Fuel that is not used up makes no difference. -/
theorem run_eq_run (h : Advances body limit) {fuel fuel' i : ℕ} (s : σ) (hf : limit - i < fuel)
    (hf' : limit - i < fuel') :
    run body finish timeout limit fuel i s = run body finish timeout limit fuel' i s := by
  induction fuel generalizing fuel' i s with
  | zero => omega
  | succ fuel ih =>
    obtain ⟨fuel',rfl⟩ : ∃ n, fuel' = n + 1 := ⟨fuel' - 1,by omega⟩
    by_cases hi : i < limit
    · simp only [run,if_pos hi]
      cases hbody : body i s with
      | error e => rfl
      | ok step =>
        cases step with
        | done r => rfl
        | next i' s' =>
          have hadv := h i s i' s' hi hbody
          exact ih s' (by omega) (by omega)
    · simp only [run,if_neg hi]

/-- The equation of a while loop. -/
theorem loop_eq (h : Advances body limit) (i : ℕ) (s : σ) :
    loop body finish timeout limit i s =
      if i < limit then
        match body i s with
        | .error e => .error e
        | .ok (.done r) => .ok r
        | .ok (.next i' s') => loop body finish timeout limit i' s'
      else .ok (finish s) := by
  by_cases hi : i < limit
  · simp only [loop,run,if_pos hi]
    cases hbody : body i s with
    | error e => rfl
    | ok step =>
      cases step with
      | done r => rfl
      | next i' s' =>
        have hadv := h i s i' s' hi hbody
        have hfuel : limit - i' < limit - i := by omega
        exact run_eq_run h s' hfuel (Nat.lt_succ_self _)
  · simp only [loop,run,if_neg hi]

/-- What holds of the index and the state before every round settles what holds of the
result. -/
theorem loop_rule (h : Advances body limit) {Inv : ℕ → σ → Prop} {Post : Except ε ρ → Prop}
    (exit : ∀ i s, limit ≤ i → Inv i s → Post (.ok (finish s)))
    (fails : ∀ i s e, i < limit → Inv i s → body i s = .error e → Post (.error e))
    (done : ∀ i s r, i < limit → Inv i s → body i s = .ok (.done r) → Post (.ok r))
    (next : ∀ i s i' s', i < limit → Inv i s → body i s = .ok (.next i' s') → Inv i' s') {i : ℕ} {s : σ}
    (hinv : Inv i s) : Post (loop body finish timeout limit i s) := by
  generalize hn : limit - i = n
  induction n using Nat.strong_induction_on generalizing i s with
  | h n ih =>
    rw [loop_eq h]
    by_cases hi : i < limit
    · simp only [if_pos hi]
      cases hbody : body i s with
      | error e => exact fails i s e hi hinv hbody
      | ok step =>
        cases step with
        | done r => exact done i s r hi hinv hbody
        | next i' s' =>
          have hadv := h i s i' s' hi hbody
          exact ih (limit - i') (by omega) (next i s i' s' hi hinv hbody) rfl
    · simp only [if_neg hi]
      exact exit i s (by omega) hinv

end IndexLoop
