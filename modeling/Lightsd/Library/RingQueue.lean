import Lightsd.Library.RingWindow

/-! # A bounded queue in a circular array

The array keeps a queue of at most `n` elements from a tail index up to a head index.
Equal indices mean that the queue is empty or that it is full, and a flag tells the
two apart. The operations below move one index, write one slot and set the flag.
-/
namespace RingWindow
variable {α : Type*}

/-- A queue of capacity `n` refuses an element while it holds `n` of them. -/
def push (n : ℕ) (q : List α) (a : α) : List α := if q.length < n then q ++ [a] else q

theorem push_of_lt {n : ℕ} {q : List α} (h : q.length < n) (a : α) : push n q a = q ++ [a] := by
  simp [push,h]

theorem push_of_full {n : ℕ} {q : List α} (h : q.length = n) (a : α) : push n q a = q := by
  simp [push,h]

/-- The array stores the queue, its oldest element at the tail. -/
structure Stores (slots : ℕ → α) (n head tail : ℕ) (full : Bool) (q : List α) : Prop where
  tail_lt : tail < n
  length_le : q.length ≤ n
  head_eq : head = (tail + q.length) % n
  full_eq : full = decide (q.length = n)
  slots_eq : window slots n tail q.length = q

namespace Stores
variable {slots : ℕ → α} {n head tail : ℕ} {full : Bool} {q : List α} {a : α}

theorem nil (slots : ℕ → α) {n : ℕ} (hn : 0 < n) : Stores slots n 0 0 false [] := by
  constructor <;> simp [hn,hn.ne]

theorem head_lt (h : Stores slots n head tail full q) : head < n := by
  simpa [h.head_eq] using Nat.mod_lt _ (Nat.zero_lt_of_lt h.tail_lt)

theorem full_iff (h : Stores slots n head tail full q) : full = true ↔ q.length = n := by
  simp [h.full_eq]

theorem length_lt (h : Stores slots n head tail full q) (hf : full = false) : q.length < n := by
  have hne : q.length ≠ n := by simpa [hf] using h.full_eq
  exact lt_of_le_of_ne h.length_le hne

/-- The number of elements, recovered from the indices and the flag. -/
theorem count_eq (h : Stores slots n head tail full q) :
    (if full then n else (head + n - tail) % n) = q.length := by
  have htail := h.tail_lt
  cases hf : full with
  | true => simpa [hf] using (h.full_iff.mp hf).symm
  | false =>
    have hlt := h.length_lt hf
    simp only [Bool.false_eq_true,↓reduceIte,h.head_eq]
    rcases Nat.lt_or_ge (tail + q.length) n with hin | hwrap
    · have hsum : tail + q.length + n - tail = q.length + n := by omega
      simp [Nat.mod_eq_of_lt hin,hsum,Nat.mod_eq_of_lt hlt]
    · have hmod : (tail + q.length) % n = tail + q.length - n := by
        rw [Nat.mod_eq_sub_mod hwrap,Nat.mod_eq_of_lt (by omega)]
      have hsum : tail + q.length - n + n - tail = q.length := by omega
      simp [hmod,hsum,Nat.mod_eq_of_lt hlt]

theorem push (h : Stores slots n head tail full q) (hf : full = false) (a : α) :
    Stores (Function.update slots head a) n ((head + 1) % n) tail
      (decide ((head + 1) % n = tail)) (q ++ [a]) := by
  have hlt := h.length_lt hf
  have htail := h.tail_lt
  have hnext : (head + 1) % n = (tail + (q.length + 1)) % n := by simp [h.head_eq,Nat.add_assoc]
  refine ⟨htail,by simpa using hlt,by simpa using hnext,?_,?_⟩
  · have hiff : (tail + (q.length + 1)) % n = tail ↔ q.length + 1 = n := by
      constructor
      · intro he
        rcases Nat.lt_or_ge (tail + (q.length + 1)) n with hin | hwrap
        · rw [Nat.mod_eq_of_lt hin] at he
          omega
        · rw [Nat.mod_eq_sub_mod hwrap,Nat.mod_eq_of_lt (by omega)] at he
          omega
      · intro he
        simp [he,Nat.mod_eq_of_lt htail]
    simp [hnext,hiff]
  · simp [window_snoc,h.head_eq,window_update_next _ hlt,h.slots_eq]

/-- The oldest element is in the slot at the tail. -/
theorem first (h : Stores slots n head tail full (a :: q)) : slots tail = a := by
  have hslots := h.slots_eq
  rw [List.length_cons,window_cons,Nat.mod_eq_of_lt h.tail_lt] at hslots
  exact (List.cons.inj hslots).1

theorem window_rest (h : Stores slots n head tail full (a :: q)) :
    window slots n (tail + 1) q.length = q := by
  have hslots := h.slots_eq
  rw [List.length_cons,window_cons] at hslots
  exact (List.cons.inj hslots).2

theorem replaceFirst (h : Stores slots n head tail full (a :: q)) (b : α) :
    Stores (Function.update slots tail b) n head tail full (b :: q) := by
  have hlt : q.length < n := h.length_le
  have hupd := @window_update_first _ slots _ tail _ hlt b
  rw [Nat.mod_eq_of_lt h.tail_lt,h.window_rest] at hupd
  exact ⟨h.tail_lt,h.length_le,h.head_eq,h.full_eq,hupd⟩

/-- Whatever is written to the slot that the tail leaves behind is not seen again. -/
theorem pop (h : Stores slots n head tail full (a :: q)) (b : α) :
    Stores (Function.update slots tail b) n head ((tail + 1) % n) false q := by
  have hlt : q.length < n := h.length_le
  have hrest := (h.replaceFirst b).window_rest
  refine ⟨Nat.mod_lt _ (by omega),hlt.le,?_,by simp [hlt.ne],by simpa [window_mod] using hrest⟩
  have hhead := h.head_eq
  simp only [List.length_cons] at hhead
  simp [hhead,Nat.add_assoc,Nat.add_comm 1]

end Stores
end RingWindow
