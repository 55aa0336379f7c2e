import Mathlib

/-! # Loops with a measure

A loop repeats a step until the step gives a result. It ends if a measure goes down with
every step, and also if a step may leave the measure as it is, as long as the next step ends
the loop or brings the measure down.
-/
namespace MeasuredLoop

variable {σ ρ : Type*} (step : σ → ρ ⊕ σ) (μ : σ → ℕ)

/-- The rounds of a loop, no more than there is fuel for. -/
def run : ℕ → σ → Option ρ
  | 0, _ => none
  | fuel + 1, s =>
    match step s with
    | .inl r => some r
    | .inr s' => run fuel s'

/-- A step ends the loop or brings the measure down. -/
def Progress (s : σ) : Prop := ∀ s', step s = .inr s' → μ s' < μ s

/-- A step ends the loop or brings the measure down, or the next one does. -/
def SoonProgress (s : σ) : Prop :=
  Progress step μ s ∨ ∃ s', step s = .inr s' ∧ μ s' ≤ μ s ∧ Progress step μ s'

variable {step μ}

theorem run_inl {s : σ} {r : ρ} (h : step s = .inl r) {fuel : ℕ} (hfuel : 0 < fuel) : run step fuel s = some r := by
  obtain ⟨fuel,rfl⟩ := Nat.exists_eq_add_of_lt hfuel
  rw [Nat.zero_add,run,h]

theorem run_inr {s s' : σ} (h : step s = .inr s') (fuel : ℕ) : run step (fuel + 1) s = run step fuel s' := by
  rw [run,h]

/-- Progress in two steps is enough for a result. -/
theorem returns_of_soon (Inv : σ → Prop) (hinv : ∀ s s', Inv s → step s = .inr s' → Inv s')
    (hsoon : ∀ s, Inv s → SoonProgress step μ s) {s : σ} (hs : Inv s) :
    ∃ r, ∀ fuel, 2 * μ s + 1 < fuel → run step fuel s = some r := by
  induction hμ : μ s using Nat.strong_induction_on generalizing s with
  | _ m ih =>
    subst hμ
    cases hstep : step s with
    | inl r => exact ⟨r,fun fuel hfuel => run_inl hstep (by omega)⟩
    | inr s' =>
      have hs' := hinv s s' hs hstep
      rcases hsoon s hs with hnow | ⟨t,ht,hle,hnext⟩
      · have hlt := hnow s' hstep
        obtain ⟨r,hr⟩ := ih _ hlt hs' rfl
        refine ⟨r,fun fuel hfuel => ?_⟩
        obtain ⟨fuel,rfl⟩ : ∃ k, fuel = k + 1 := ⟨fuel - 1,by omega⟩
        rw [run_inr hstep]
        exact hr fuel (by omega)
      · obtain rfl : s' = t := Sum.inr.inj (hstep.symm.trans ht)
        cases hstep' : step s' with
        | inl r =>
          refine ⟨r,fun fuel hfuel => ?_⟩
          obtain ⟨fuel,rfl⟩ : ∃ k, fuel = k + 1 := ⟨fuel - 1,by omega⟩
          rw [run_inr hstep]
          exact run_inl hstep' (by omega)
        | inr s'' =>
          have hlt := hnext s'' hstep'
          obtain ⟨r,hr⟩ := ih _ (hlt.trans_le hle) (hinv s' s'' hs' hstep') rfl
          refine ⟨r,fun fuel hfuel => ?_⟩
          obtain ⟨fuel,rfl⟩ : ∃ k, fuel = k + 2 := ⟨fuel - 2,by omega⟩
          rw [run_inr hstep,run_inr hstep']
          exact hr fuel (by omega)

end MeasuredLoop
