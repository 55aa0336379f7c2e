import Mathlib

/-! # Windows of a circular array

A circular array of `n` slots is a function on slot numbers. The window of length
`count` that starts at `tail` is the list of slots met when walking forward from
`tail`, wrapping around at `n`.
-/
namespace RingWindow
variable {α β : Type*}

def window (f : ℕ → α) (n tail count : ℕ) : List α :=
  (List.range count).map (fun i => f ((tail + i) % n))

@[simp] theorem window_zero (f : ℕ → α) (n tail : ℕ) : window f n tail 0 = [] := rfl
@[simp] theorem window_length (f : ℕ → α) (n tail count : ℕ) :
    (window f n tail count).length = count := by simp [window]

theorem window_snoc (f : ℕ → α) (n tail count : ℕ) :
    window f n tail (count + 1) = window f n tail count ++ [f ((tail + count) % n)] := by
  simp [window,List.range_succ]

theorem window_cons (f : ℕ → α) (n tail count : ℕ) :
    window f n tail (count + 1) = f (tail % n) :: window f n (tail + 1) count := by
  simp only [window,List.range_succ_eq_map,List.map_cons,List.map_map,Nat.add_zero]
  congr 1
  apply List.map_congr_left
  intro i _
  simp only [Function.comp_apply,Nat.succ_eq_add_one]
  congr 2
  omega

/-- Only the residue of the start matters. -/
theorem window_mod (f : ℕ → α) (n tail count : ℕ) :
    window f n (tail % n) count = window f n tail count := by
  simp [window]

/-- Two distinct positions of a window no longer than the array are distinct slots. -/
theorem slot_ne {n tail i j : ℕ} (hi : i < n) (hj : j < n) (hij : i ≠ j) :
    (tail + i) % n ≠ (tail + j) % n := by
  intro h
  have hmod : i ≡ j [MOD n] := Nat.ModEq.add_left_cancel' tail h
  exact hij (Nat.ModEq.eq_of_lt_of_lt hmod hi hj)

/-- Writing the slot just after a window that does not fill the array leaves the
window as it was. -/
theorem window_update_next (f : ℕ → α) {n tail count : ℕ} (hc : count < n) (a : α) :
    window (Function.update f ((tail + count) % n) a) n tail count = window f n tail count := by
  unfold window
  apply List.map_congr_left
  intro i hi
  have hlt : i < count := List.mem_range.mp hi
  exact Function.update_of_ne (slot_ne (hlt.trans hc) hc hlt.ne) _ _

/-- Writing the first slot of a window replaces its head. -/
theorem window_update_first (f : ℕ → α) {n tail count : ℕ} (hc : count < n) (a : α) :
    window (Function.update f (tail % n) a) n tail (count + 1) =
      a :: window f n (tail + 1) count := by
  rw [window_cons,Function.update_self]
  congr 1
  unfold window
  apply List.map_congr_left
  intro i hi
  have hlt : i < count := List.mem_range.mp hi
  have hne := @slot_ne n tail (i + 1) 0 (by omega) (by omega) (by omega)
  have heq : tail + 1 + i = tail + (i + 1) := by omega
  rw [heq]
  exact Function.update_of_ne (by simpa using hne) _ _

end RingWindow
