import Mathlib

/-! # Ordered trees in preorder

A forest is written down as the list of its labels in preorder, each with the number of
its children. Dropping the first entry of that list leads to another forest, in which
the children of the first tree have taken its place, so every position in the list is
the beginning of some forest.
-/
namespace OrderedTree

inductive Rose (α : Type*)
  | node (label : α) (children : List (Rose α))

variable {α : Type*}

mutual
def preorder : Rose α → List (α × ℕ)
  | .node a cs => (a,cs.length) :: preorders cs

def preorders : List (Rose α) → List (α × ℕ)
  | [] => []
  | t :: ts => preorder t ++ preorders ts
end

namespace Rose

def label : Rose α → α
  | node a _ => a

def children : Rose α → List (Rose α)
  | node _ cs => cs

/-- The number of nodes. -/
def count (t : Rose α) : ℕ := (preorder t).length

end Rose

def counts (ts : List (Rose α)) : ℕ := (preorders ts).length

@[simp] theorem preorders_nil : preorders ([] : List (Rose α)) = [] := by
  rw [preorders]

theorem preorders_cons (t : Rose α) (ts : List (Rose α)) :
    preorders (t :: ts) = preorder t ++ preorders ts := by
  rw [preorders]

theorem preorders_append (ts us : List (Rose α)) :
    preorders (ts ++ us) = preorders ts ++ preorders us := by
  induction ts with
  | nil => rw [List.nil_append,preorders_nil,List.nil_append]
  | cons t ts ih => rw [List.cons_append,preorders_cons,preorders_cons,ih,List.append_assoc]

/-- The first entry is the root of the first tree, and what follows is again a forest. -/
theorem preorders_node (a : α) (cs ts : List (Rose α)) :
    preorders (.node a cs :: ts) = (a,cs.length) :: preorders (cs ++ ts) := by
  rw [preorders_cons,preorder,preorders_append,List.cons_append]

@[simp] theorem counts_nil : counts ([] : List (Rose α)) = 0 := by
  rw [counts,preorders_nil,List.length_nil]

theorem counts_cons (t : Rose α) (ts : List (Rose α)) : counts (t :: ts) = t.count + counts ts := by
  rw [counts,preorders_cons,List.length_append,Rose.count,counts]

theorem counts_append (ts us : List (Rose α)) : counts (ts ++ us) = counts ts + counts us := by
  rw [counts,preorders_append,List.length_append,counts,counts]

theorem count_node (a : α) (cs : List (Rose α)) : (Rose.node a cs).count = counts cs + 1 := by
  rw [Rose.count,preorder,List.length_cons,counts]

theorem count_pos (t : Rose α) : 0 < t.count := by
  cases t with
  | node a cs =>
    rw [count_node]
    exact Nat.succ_pos _

theorem count_le_counts {t : Rose α} {ts : List (Rose α)} (h : t ∈ ts) : t.count ≤ counts ts := by
  obtain ⟨pre,post,rfl⟩ := List.append_of_mem h
  rw [counts_append,counts_cons]
  omega

end OrderedTree
