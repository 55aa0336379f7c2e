import Mathlib

/-! # Runs of a guarded transition system

An event may be taken only where it is enabled, and the state it leads to is
computed by a total step function. A run is a list of events; every safety result
about a system below is an invariant obtained here from a lemma about one step. A loop
within a step is a fold, and what each round keeps the loop keeps.
-/
namespace Runs
variable {S E : Type*}

/-- A loop relates the state before it to the state after it when each round does. -/
theorem foldl_related {R : S → S → Prop} (hrefl : ∀ s, R s s)
    (htrans : ∀ {s t u}, R s t → R t u → R s u) {f : S → E → S} {l : List E}
    (hf : ∀ s, ∀ x ∈ l, R s (f s x)) (s : S) : R s (l.foldl f s) := by
  induction l generalizing s with
  | nil => exact hrefl s
  | cons x l ih =>
    exact htrans (hf s x List.mem_cons_self) (ih (fun s y hy => hf s y (List.mem_cons_of_mem _ hy)) _)

/-- A deterministic transition system whose events carry the nondeterminism. -/
structure System (S E : Type*) where
  enabled : S → E → Prop
  step : S → E → S

namespace System
variable (m : System S E)

def exec (s : S) (es : List E) : S := es.foldl m.step s

@[simp] theorem exec_nil (s : S) : m.exec s [] = s := rfl
@[simp] theorem exec_cons (s : S) (e : E) (es : List E) :
    m.exec s (e :: es) = m.exec (m.step s e) es := rfl

/-- Each event of the list is enabled in the state its predecessors lead to. -/
def Legal : S → List E → Prop
  | _, [] => True
  | s, e :: es => m.enabled s e ∧ Legal (m.step s e) es

instance decidableLegal [∀ s e, Decidable (m.enabled s e)] : ∀ s es, Decidable (m.Legal s es)
  | _, [] => isTrue trivial
  | s, e :: es =>
    have := decidableLegal (m.step s e) es
    inferInstanceAs (Decidable (_ ∧ _))

/-- The predicate holds in every state the run goes through, the first and the
last included. -/
def Always (P : S → Prop) (s : S) (es : List E) : Prop :=
  ∀ n, P (m.exec s (es.take n))

variable {m}

theorem Always.head {P : S → Prop} {s : S} {es : List E} (h : m.Always P s es) : P s := by
  simpa using h 0

theorem Always.last {P : S → Prop} {s : S} {es : List E} (h : m.Always P s es) :
    P (m.exec s es) := by
  simpa using h es.length

theorem always_nil {P : S → Prop} {s : S} : m.Always P s [] ↔ P s := by
  simp [Always]

theorem always_cons {P : S → Prop} {s : S} {e : E} {es : List E} :
    m.Always P s (e :: es) ↔ P s ∧ m.Always P (m.step s e) es := by
  constructor
  · intro h
    refine ⟨h.head,fun n => ?_⟩
    simpa using h (n + 1)
  · rintro ⟨hs,h⟩ n
    cases n with
    | zero => simpa using hs
    | succ n => simpa using h n

instance decidableAlways {P : S → Prop} [DecidablePred P] : ∀ s es, Decidable (m.Always P s es)
  | _, [] => decidable_of_iff' _ always_nil
  | s, e :: es =>
    have := decidableAlways (P := P) (m.step s e) es
    decidable_of_iff' _ always_cons

theorem Always.mono {P Q : S → Prop} {s : S} {es : List E} (hpq : ∀ t, P t → Q t)
    (h : m.Always P s es) : m.Always Q s es := fun n => hpq _ (h n)

theorem exec_append (s : S) (es es' : List E) : m.exec s (es ++ es') = m.exec (m.exec s es) es' :=
  List.foldl_append

theorem legal_append {s : S} {es es' : List E} :
    m.Legal s (es ++ es') ↔ m.Legal s es ∧ m.Legal (m.exec s es) es' := by
  induction es generalizing s with
  | nil => simp [Legal]
  | cons e es ih => simp only [List.cons_append,Legal,ih,exec_cons,and_assoc]

/-- A run of one event after the other, with a statement about the states between them. -/
theorem legal_phase {P : ℕ → S → Prop} {f : ℕ → E} {n : ℕ}
    (hstep : ∀ k < n, ∀ s, P k s → m.enabled s (f k) ∧ P (k + 1) (m.step s (f k))) {s : S} (hs : P 0 s) :
    m.Legal s ((List.range n).map f) ∧ P n (m.exec s ((List.range n).map f)) := by
  induction n with
  | zero => exact ⟨trivial,hs⟩
  | succ n ih =>
    obtain ⟨hl,hp⟩ := ih (fun k hk => hstep k (by omega))
    obtain ⟨he,hnext⟩ := hstep n (by omega) _ hp
    rw [List.range_succ,List.map_append,legal_append,exec_append]
    exact ⟨⟨hl,he,trivial⟩,hnext⟩

/-- An invariant that each enabled step keeps holds all along a legal run. The
side condition `B` is something already known of every state of that run. -/
theorem Legal.always_of {B P : S → Prop}
    (hstep : ∀ s e, P s → m.enabled s e → B s → B (m.step s e) → P (m.step s e))
    {s : S} {es : List E} (hl : m.Legal s es) (hb : m.Always B s es) (hs : P s) :
    m.Always P s es := by
  induction es generalizing s with
  | nil => exact always_nil.mpr hs
  | cons e es ih =>
    obtain ⟨hbs,hbt⟩ := always_cons.mp hb
    exact always_cons.mpr ⟨hs,ih hl.2 hbt (hstep s e hs hl.1 hbs hbt.head)⟩

theorem Legal.always {P : S → Prop} (hstep : ∀ s e, P s → m.enabled s e → P (m.step s e))
    {s : S} {es : List E} (hl : m.Legal s es) (hs : P s) : m.Always P s es :=
  hl.always_of (fun s e hp he _ _ => hstep s e hp he) (B := fun _ => True) (fun _ => trivial) hs

theorem Legal.invariant {P : S → Prop} (hstep : ∀ s e, P s → m.enabled s e → P (m.step s e))
    {s : S} {es : List E} (hl : m.Legal s es) (hs : P s) : P (m.exec s es) :=
  (hl.always hstep hs).last

/-- The same system with fewer events taken: each must also meet the condition in
the state where it is taken. -/
def restrict (m : System S E) (G : S → E → Prop) : System S E where
  enabled s e := m.enabled s e ∧ G s e
  step := m.step

instance decidableRestrict {G : S → E → Prop} [∀ s e, Decidable (m.enabled s e)]
    [∀ s e, Decidable (G s e)] (s : S) (e : E) : Decidable ((m.restrict G).enabled s e) :=
  inferInstanceAs (Decidable (_ ∧ _))

/-- A property that follows from an invariant holds all along a legal run exactly if every
event meets a condition, where events that meet it keep the invariant and all others break
the property. -/
theorem Legal.always_iff {I P : S → Prop} {G : S → E → Prop} (hprop : ∀ s, I s → P s)
    (hkeep : ∀ s e, I s → m.enabled s e → G s e → I (m.step s e))
    (hbreak : ∀ s e, I s → m.enabled s e → ¬ G s e → ¬ P (m.step s e))
    {s : S} {es : List E} (hl : m.Legal s es) (hs : I s) :
    m.Always P s es ↔ (m.restrict G).Legal s es := by
  induction es generalizing s with
  | nil => exact ⟨fun _ => trivial,fun _ => always_nil.mpr (hprop s hs)⟩
  | cons e es ih =>
    obtain ⟨he,hl⟩ := hl
    rw [always_cons]
    constructor
    · rintro ⟨-,hall⟩
      have hcond : G s e := by
        by_contra hnot
        exact hbreak s e hs he hnot hall.head
      exact ⟨⟨he,hcond⟩,(ih hl (hkeep s e hs he hcond)).mp hall⟩
    · rintro ⟨⟨-,hcond⟩,hlegal⟩
      exact ⟨hprop s hs,(ih hl (hkeep s e hs he hcond)).mpr hlegal⟩

@[simp] theorem restrict_step (G : S → E → Prop) : (m.restrict G).step = m.step := rfl

end System
end Runs
