import Mathlib

/-! # Counting the elements of a list with a property

How the number of elements with a property changes when an element leaves the list
and when the attribute of one element, from which the property is read, is changed.
-/
namespace Census
variable {α β : Type*} [DecidableEq α]

theorem countP_erase_add (p : α → Bool) {l : List α} {a : α} (ha : a ∈ l) :
    (l.erase a).countP p + (if p a then 1 else 0) = l.countP p := by
  rw [(List.perm_cons_erase ha).countP_eq p,List.countP_cons]

theorem countP_update_of_notMem (q : β → Bool) (f : α → β) {l : List α} {a : α} (ha : a ∉ l) (x : β) :
    l.countP (fun i => q (Function.update f a x i)) = l.countP (fun i => q (f i)) := by
  refine List.countP_congr (fun i hi => ?_)
  have hne : i ≠ a := fun e => ha (e ▸ hi)
  rw [Function.update_of_ne hne]

/-- Changing the attribute of one element moves the count by at most one. -/
theorem countP_update (q : β → Bool) (f : α → β) {l : List α} {a : α} (hl : l.Nodup) (ha : a ∈ l)
    (x : β) : l.countP (fun i => q (Function.update f a x i)) + (if q (f a) then 1 else 0) =
      l.countP (fun i => q (f i)) + (if q x then 1 else 0) := by
  have hafter := countP_erase_add (fun i => q (Function.update f a x i)) ha
  have hbefore := countP_erase_add (fun i => q (f i)) ha
  have hrest := countP_update_of_notMem q f (a := a) hl.not_mem_erase x
  simp only [Function.update_self] at hafter
  omega

end Census
