import Mathlib

/-! # Buffers that are filled from the start

A buffer has a fixed number of cells, which are written one after the other; a write behind
the last cell is an error. A writer that looks whether the buffer is full before it writes
may go on with a text that does not fit: the buffer then holds as much of the text as there
are cells. In the end a terminator goes behind the text, or over the last cell.
-/
namespace BoundedBuffer

variable {α ε : Type}

/-- The cells and the number of those that have been written. -/
structure Buffer (α : Type) where
  cells : List α
  used : ℕ
  deriving DecidableEq

namespace Buffer

/-- Write a cell; an error if there is no such cell. -/
def store (e : ε) (cells : List α) (i : ℕ) (a : α) : Except ε (List α) :=
  if i < cells.length then .ok (cells.set i a) else .error e

/-- Write the next cell. -/
def push (e : ε) (b : Buffer α) (a : α) : Except ε (Buffer α) :=
  (⟨·,b.used + 1⟩) <$> store e b.cells b.used a

/-- Write the next cell of a buffer of the given size, unless it is full. -/
def pushUnlessFull (e : ε) (size : ℕ) (b : Buffer α) (a : α) : Except ε (Buffer α) :=
  if b.used ≠ size then b.push e a else .ok b

/-- The buffer holds the beginning of a text, with what was there before behind it. -/
structure Holds (before text : List α) (b : Buffer α) : Prop where
  cells : b.cells = text.take before.length ++ before.drop text.length
  used : b.used = min text.length before.length

variable {before text more : List α} {b : Buffer α} (e : ε)

theorem holds_nil (before : List α) : Holds before [] ⟨before,0⟩ :=
  ⟨by rw [List.take_nil]; rfl,(Nat.zero_min _).symm⟩

theorem set_behind (as : List α) (b : α) (bs : List α) (a : α) :
    (as ++ b :: bs).set as.length a = as ++ a :: bs := by
  rw [List.set_append_right _ _ le_rfl,Nat.sub_self,List.set_cons_zero]

namespace Holds

theorem length_cells (h : Holds before text b) : b.cells.length = before.length := by
  rw [h.cells,List.length_append,List.length_take,List.length_drop]
  omega

/-- A full buffer holds every longer text. -/
theorem append_of_full (h : Holds before text b) (hfull : b.used = before.length) :
    Holds before (text ++ more) b := by
  have hle : before.length ≤ text.length := by
    rw [h.used] at hfull
    omega
  refine ⟨?_,?_⟩
  · rw [h.cells,List.take_append_of_le_length hle,List.drop_eq_nil_of_le hle,
      List.drop_eq_nil_of_le (hle.trans (by rw [List.length_append]; omega))]
  · rw [hfull,List.length_append]
    omega

theorem push (h : Holds before text b) (hroom : b.used < before.length) (a : α) :
    ∃ b', b.push e a = .ok b' ∧ Holds before (text ++ [a]) b' ∧ b'.used = b.used + 1 := by
  have hlen : text.length < before.length := by
    rw [h.used] at hroom
    omega
  have hused : b.used = text.length := by
    rw [h.used]
    omega
  refine ⟨⟨b.cells.set b.used a,b.used + 1⟩,?_,⟨?_,?_⟩,rfl⟩
  · rw [Buffer.push,store,h.length_cells,if_pos hroom]
    rfl
  · have hdrop : before.drop text.length = before[text.length] :: before.drop (text.length + 1) :=
      List.drop_eq_getElem_cons hlen
    have htake : text.take before.length = text := List.take_of_length_le hlen.le
    have htake' : (text ++ [a]).take before.length = text ++ [a] :=
      List.take_of_length_le (by rw [List.length_append,List.length_singleton]; omega)
    dsimp only
    rw [h.cells,hused,htake,htake',hdrop,set_behind,List.length_append,List.length_singleton,List.append_assoc]
    rfl
  · dsimp only
    rw [hused,List.length_append,List.length_singleton]
    omega

theorem pushUnlessFull (h : Holds before text b) (a : α) :
    ∃ b', b.pushUnlessFull e before.length a = .ok b' ∧ Holds before (text ++ [a]) b' := by
  rw [Buffer.pushUnlessFull]
  by_cases hfull : b.used = before.length
  · rw [if_neg (not_not.mpr hfull)]
    exact ⟨b,rfl,h.append_of_full hfull⟩
  · have hroom : b.used < before.length := by
      have hle := h.used
      omega
    rw [if_pos hfull]
    obtain ⟨b',hpush,hholds,-⟩ := h.push e hroom a
    exact ⟨b',hpush,hholds⟩

/-- The terminator goes behind what fits of the text. -/
theorem terminate (h : Holds before text b) (hpos : 0 < before.length) (a : α) :
    store e b.cells (min b.used (before.length - 1)) a =
      .ok (text.take (before.length - 1) ++ a :: before.drop ((text.take (before.length - 1)).length + 1)) := by
  have hlen := h.length_cells
  have hused := h.used
  rw [store,if_pos (by omega)]
  congr 1
  by_cases hfits : text.length < before.length
  · have htake : text.take before.length = text := List.take_of_length_le hfits.le
    have htake' : text.take (before.length - 1) = text := List.take_of_length_le (by omega)
    have hat : min b.used (before.length - 1) = text.length := by omega
    rw [h.cells,htake,htake',hat,List.drop_eq_getElem_cons hfits,set_behind]
  · have hlast : before.length - 1 < text.length := by omega
    have htake : text.take before.length = text.take (before.length - 1) ++ [text[before.length - 1]] := by
      rw [List.take_concat_get' text _ hlast]
      congr 1
      omega
    have hat : min b.used (before.length - 1) = (text.take (before.length - 1)).length := by
      rw [List.length_take]
      omega
    have hnone : before.drop ((text.take (before.length - 1)).length + 1) = [] := by
      apply List.drop_eq_nil_of_le
      rw [List.length_take]
      omega
    rw [h.cells,htake,List.drop_eq_nil_of_le (not_lt.mp hfits),List.append_nil,hat,set_behind,hnone]

end Holds
end Buffer
end BoundedBuffer
