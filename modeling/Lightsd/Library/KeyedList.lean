import Mathlib

/-! # Lists with unique keys

Looking up and removing elements of a list by a key that no two of its elements share.
-/
namespace KeyedList
variable {α κ : Type*} [DecidableEq κ] {f : α → κ} {l : List α}

theorem mem_eraseP_key {k : κ} {a : α} (h : (l.map f).Nodup) :
    a ∈ l.eraseP (fun x => f x = k) ↔ a ∈ l ∧ f a ≠ k := by
  induction l with
  | nil => simp
  | cons x xs ih =>
    obtain ⟨hx,hxs⟩ := List.nodup_cons.mp h
    by_cases hk : f x = k
    · rw [List.eraseP_cons_of_pos (by simpa using hk)]
      constructor
      · intro ha
        refine ⟨List.mem_cons_of_mem _ ha,fun hak => hx ?_⟩
        rw [hk,← hak]
        exact List.mem_map_of_mem ha
      · rintro ⟨ha,hne⟩
        rcases List.mem_cons.mp ha with rfl | ha
        · exact absurd hk hne
        · exact ha
    · rw [List.eraseP_cons_of_neg (by simpa using hk),List.mem_cons,List.mem_cons,ih hxs]
      constructor
      · rintro (rfl | ⟨ha,hne⟩)
        · exact ⟨Or.inl rfl,hk⟩
        · exact ⟨Or.inr ha,hne⟩
      · rintro ⟨rfl | ha,hne⟩
        · exact Or.inl rfl
        · exact Or.inr ⟨ha,hne⟩

theorem find?_key {a : α} (h : ∀ x ∈ l, ∀ y ∈ l, f x = f y → x = y) (ha : a ∈ l) :
    l.find? (fun x => f x = f a) = some a := by
  cases hfind : l.find? (fun x => f x = f a) with
  | none => exact absurd (List.find?_eq_none.mp hfind a ha) (by simp)
  | some x =>
    have hx : f x = f a := by simpa using List.find?_some hfind
    rw [h x (List.mem_of_find?_eq_some hfind) a ha hx]

/-- Where the keys are different, an element is in the list exactly if it is all there is
under its key. -/
theorem filter_key {l : List α} {x : α} (h : (l.map f).Nodup) :
    l.filter (fun y => f y = f x) = [x] ↔ x ∈ l := by
  constructor
  · intro heq
    have hx : x ∈ l.filter (fun y => f y = f x) := by
      rw [heq]
      exact List.mem_singleton_self x
    exact List.mem_of_mem_filter hx
  · intro hx
    induction l with
    | nil => cases hx
    | cons y l ih =>
      obtain ⟨hy,hl⟩ := List.nodup_cons.mp h
      rcases List.mem_cons.mp hx with rfl | hx
      · have hnone : l.filter (fun z => f z = f x) = [] := by
          refine List.filter_eq_nil_iff.mpr (fun z hz => ?_)
          have hne : f z ≠ f x := fun heq => hy (heq ▸ List.mem_map_of_mem hz)
          simpa using hne
        rw [List.filter_cons_of_pos (by simp),hnone]
      · have hne : f y ≠ f x := fun heq => hy (heq ▸ List.mem_map_of_mem hx)
        rw [List.filter_cons_of_neg (by simpa using hne)]
        exact ih hl hx

end KeyedList
