import Mathlib

/-! # Byte streams cut into labelled chunks

A queue of labelled chunks stands for the concatenation of their contents.
Consuming from the front of the concatenation shortens the first chunk and
removes the chunks that are used up.
-/
namespace ChunkQueue
variable {τ α : Type*}

def contents (q : List (τ × List α)) : List α := (q.map Prod.snd).flatten

@[simp] theorem contents_nil : contents ([] : List (τ × List α)) = [] := rfl
@[simp] theorem contents_cons (p : τ × List α) (q : List (τ × List α)) :
    contents (p :: q) = p.2 ++ contents q := rfl
@[simp] theorem contents_append (q r : List (τ × List α)) :
    contents (q ++ r) = contents q ++ contents r := by simp [contents]

def advance : ℕ → List (τ × List α) → List (τ × List α)
  | _, [] => []
  | n, (t,c) :: q => if n < c.length then (t,c.drop n) :: q else advance (n - c.length) q

theorem contents_advance (n : ℕ) (q : List (τ × List α)) :
    contents (advance n q) = (contents q).drop n := by
  induction q generalizing n with
  | nil => simp [advance]
  | cons p q ih =>
    obtain ⟨t,c⟩ := p
    by_cases h : n < c.length
    · simp [advance,h,List.drop_append,Nat.sub_eq_zero_of_le h.le]
    · simp [advance,h,ih,List.drop_append,List.drop_of_length_le (Nat.le_of_not_lt h)]

theorem advance_lt {n : ℕ} {t : τ} {c : List α} (q : List (τ × List α)) (h : n < c.length) :
    advance n ((t,c) :: q) = (t,c.drop n) :: q := by simp [advance,h]

/-- Consuming exactly the first chunk removes it and nothing else, provided the
next chunk is not empty. -/
theorem advance_length {t : τ} {c : List α} {q : List (τ × List α)}
    (hq : ∀ p ∈ q, p.2 ≠ []) : advance c.length ((t,c) :: q) = q := by
  cases q with
  | nil => simp [advance]
  | cons p q =>
    have hp : 0 < p.2.length := List.length_pos_iff.mpr (hq p (by simp))
    simp [advance,hp]

end ChunkQueue
