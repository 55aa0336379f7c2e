import Lightsd.Core.SchemaWalk

/-! # What a schema accepts

The walk over the members of an object succeeds when every member whose key has a row
passes the check of the row and no field is filled in twice. It then leaves in each field
the index of the value of its member, and the number of tokens of that value.
-/
namespace Lightsd.Core.Jsonrpc

open OrderedTree

section Spec
variable {φ : Type} [DecidableEq φ] (schema : List (Node φ)) (json : List UInt8)

/-- The row for a member. -/
def rowOf (m : Label × Rose Label) : Option (Node φ) := findNode schema json (Label.token (m.1,1))

/-- The field that a member fills in. -/
def fieldOf (m : Label × Rose Label) : Option φ := (rowOf schema json m).bind Node.valueOffset

/-- The value of a member passes the check of its row, if it has one. -/
def passesType (m : Label × Rose Label) : Bool :=
  (rowOf schema json m).all (fun node => node.typeCmp (rootToken m.2) json)

/-- Members that fill in different fields, or none. -/
def Distinct (m m' : Label × Rose Label) : Prop :=
  ∀ f, fieldOf schema json m = some f → fieldOf schema json m' ≠ some f

/-- The members are those of an accepted object, its required members apart. -/
structure Admissible (ms : List (Label × Rose Label)) : Prop where
  types : ∀ m ∈ ms, passesType schema json m = true
  distinct : ms.Pairwise (Distinct schema json)

/-- The index of the value that a field is filled in with. -/
def fieldValue (f : φ) : ℕ → List (Label × Rose Label) → Option ℕ
  | _, [] => none
  | i, m :: ms =>
    if fieldOf schema json m = some f then some (i + 1) else fieldValue f (i + (keyNode m).count) ms

/-- The number of tokens that a field is filled in with. -/
def fieldNtokens (f : φ) : List (Label × Rose Label) → Option ℕ
  | [] => none
  | m :: ms =>
    if (rowOf schema json m).bind Node.ntokensOffset = some f then some m.2.count else fieldNtokens f ms

variable {schema json} {f : φ} {i : ℕ} {ms : List (Label × Rose Label)}

theorem fieldValue_isSome : (fieldValue schema json f i ms).isSome = true ↔
    ∃ m ∈ ms, fieldOf schema json m = some f := by
  induction ms generalizing i with
  | nil => simp [fieldValue]
  | cons m ms ih =>
    by_cases h : fieldOf schema json m = some f
    · simp [fieldValue,h]
    · simp [fieldValue,h,ih]

theorem fieldValue_eq_none (h : ∀ m ∈ ms, fieldOf schema json m ≠ some f) (i : ℕ) :
    fieldValue schema json f i ms = none := by
  cases hvalue : fieldValue schema json f i ms with
  | none => rfl
  | some p =>
    obtain ⟨m,hm,hf⟩ := fieldValue_isSome.mp (by rw [hvalue]; rfl)
    exact absurd hf (h m hm)

namespace Output

variable {out : Output φ} {node : Node φ} {t : Rose Label}

theorem fill_value (out : Output φ) (node : Node φ) (ti : ℕ) (t : Rose Label) (f : φ) :
    (out.fill node ti t).value f = if node.valueOffset = some f then some ti else out.value f := by
  unfold fill
  cases hn : node.ntokensOffset <;> cases hv : node.valueOffset with
  | none => simp [setNtokens,setValue]
  | some g =>
    by_cases hg : g = f
    · subst hg
      simp [setNtokens,setValue]
    · simp [setNtokens,setValue,hg,Function.update_of_ne (Ne.symm hg)]

theorem fill_ntokens (out : Output φ) (node : Node φ) (ti : ℕ) (t : Rose Label) (f : φ) :
    (out.fill node ti t).ntokens f = if node.ntokensOffset = some f then t.count else out.ntokens f := by
  unfold fill
  cases hv : node.valueOffset <;> cases hn : node.ntokensOffset with
  | none => simp [setNtokens,setValue]
  | some g =>
    by_cases hg : g = f
    · subst hg
      simp [setNtokens,setValue]
    · simp [setNtokens,setValue,hg,Function.update_of_ne (Ne.symm hg)]

omit [DecidableEq φ] in
theorem seen_eq_false : out.seen node.valueOffset = false ↔
    ∀ f, node.valueOffset = some f → out.value f = none := by
  cases hv : node.valueOffset with
  | none => simp [seen]
  | some g => simp [seen]

end Output

/-- No member fills in a field that is already filled in. -/
def Fresh (schema : List (Node φ)) (json : List UInt8) (out : Output φ) (ms : List (Label × Rose Label)) :
    Prop := ∀ m ∈ ms, ∀ f, fieldOf schema json m = some f → out.value f = none

theorem fresh_fill {out : Output φ} {node : Node φ} {m : Label × Rose Label}
    (hfield : fieldOf schema json m = node.valueOffset) :
    Fresh schema json (out.fill node (i + 1) m.2) ms ↔
      (∀ x ∈ ms, Distinct schema json m x) ∧ Fresh schema json out ms := by
  constructor
  · intro h
    refine ⟨fun x hx f hf hxf => ?_,fun x hx f hxf => ?_⟩
    · have hnone := h x hx f hxf
      rw [Output.fill_value,← hfield,if_pos hf] at hnone
      cases hnone
    · have hnone := h x hx f hxf
      rw [Output.fill_value] at hnone
      split at hnone
      · cases hnone
      · exact hnone
  · rintro ⟨hdistinct,hfresh⟩ x hx f hxf
    have hne : ¬ node.valueOffset = some f := fun hf => hdistinct x hx f (hfield.trans hf) hxf
    rw [Output.fill_value,if_neg hne]
    exact hfresh x hx f hxf

theorem walkPairs_accepts (out : Output φ) : (walkPairs schema json i ms out).1 = true ↔
    Admissible schema json ms ∧ Fresh schema json out ms := by
  induction ms generalizing i out with
  | nil => exact iff_of_true rfl ⟨⟨by simp,List.Pairwise.nil⟩,by simp [Fresh]⟩
  | cons m ms ih =>
    have hcons : Admissible schema json (m :: ms) ↔ passesType schema json m = true ∧
        (∀ x ∈ ms, Distinct schema json m x) ∧ Admissible schema json ms := by
      constructor
      · rintro ⟨htypes,hdistinct⟩
        rw [List.pairwise_cons] at hdistinct
        exact ⟨htypes m List.mem_cons_self,hdistinct.1,
          fun x hx => htypes x (List.mem_cons_of_mem _ hx),hdistinct.2⟩
      · rintro ⟨htype,hdistinct,hrest⟩
        exact ⟨List.forall_mem_cons.mpr ⟨htype,hrest.types⟩,List.pairwise_cons.mpr ⟨hdistinct,hrest.distinct⟩⟩
    have hfresh : Fresh schema json out (m :: ms) ↔
        (∀ f, fieldOf schema json m = some f → out.value f = none) ∧ Fresh schema json out ms :=
      List.forall_mem_cons
    rw [hcons,hfresh]
    have hrow : rowOf schema json m = findNode schema json (Label.token (m.1,1)) := rfl
    simp only [walkPairs,← hrow]
    cases hfind : rowOf schema json m with
    | none =>
      have hfield : fieldOf schema json m = none := by simp [fieldOf,hfind]
      simp [ih,passesType,hfind,Distinct,hfield]
    | some node =>
      have hfield : fieldOf schema json m = node.valueOffset := by simp [fieldOf,hfind]
      have htype : passesType schema json m = node.typeCmp (rootToken m.2) json := by
        simp [passesType,hfind]
      rw [htype]
      simp only [hfield,← Output.seen_eq_false]
      cases node.typeCmp (rootToken m.2) json with
      | false => simp
      | true =>
        cases hseen : out.seen node.valueOffset with
        | true => simp
        | false =>
          simp only [Bool.not_true,Bool.false_eq_true,if_false,ih,fresh_fill hfield]
          tauto

/-- The first of some admissible members is filled in and the walk goes on. -/
theorem walkPairs_cons {m : Label × Rose Label} {out : Output φ} (h : Admissible schema json (m :: ms))
    (hfresh : Fresh schema json out (m :: ms)) (i : ℕ) :
    ∃ out', walkPairs schema json i (m :: ms) out = walkPairs schema json (i + (keyNode m).count) ms out' ∧
      Admissible schema json ms ∧ Fresh schema json out' ms ∧
      (∀ f, out'.value f = if fieldOf schema json m = some f then some (i + 1) else out.value f) ∧
      ∀ f, out'.ntokens f = if (rowOf schema json m).bind Node.ntokensOffset = some f then m.2.count
        else out.ntokens f := by
  obtain ⟨hdistinct,hpair⟩ := List.pairwise_cons.mp h.distinct
  have hrest : Admissible schema json ms := ⟨fun x hx => h.types x (List.mem_cons_of_mem _ hx),hpair⟩
  have htype := h.types m List.mem_cons_self
  have hnone := hfresh m List.mem_cons_self
  have hold : Fresh schema json out ms := fun x hx => hfresh x (List.mem_cons_of_mem _ hx)
  have hrow : rowOf schema json m = findNode schema json (Label.token (m.1,1)) := rfl
  simp only [walkPairs,← hrow]
  cases hfind : rowOf schema json m with
  | none => exact ⟨out,rfl,hrest,hold,fun f => by simp [fieldOf,hfind],fun f => by simp⟩
  | some node =>
    have hfield : fieldOf schema json m = node.valueOffset := by simp [fieldOf,hfind]
    have hpass : node.typeCmp (rootToken m.2) json = true := by simpa [passesType,hfind] using htype
    rw [hfield] at hnone
    have hseen := Output.seen_eq_false.mpr hnone
    refine ⟨out.fill node (i + 1) m.2,?_,hrest,(fresh_fill hfield).mpr ⟨hdistinct,hold⟩,fun f => ?_,fun f => ?_⟩
    · simp [hpass,hseen]
    · rw [Output.fill_value,hfield]
    · rw [Output.fill_ntokens,Option.bind_some]

/-- A number of tokens is only kept beside the index of the value. -/
def CountsValues (schema : List (Node φ)) : Prop :=
  ∀ node ∈ schema, ∀ f, node.ntokensOffset = some f → node.valueOffset = some f

section Step
variable {out : Output φ} {m : Label × Rose Label}

/-- A member that fills in nothing is passed. -/
theorem walkPairs_pass (hcounts : CountsValues schema) (htype : passesType schema json m = true)
    (hfield : fieldOf schema json m = none) :
    walkPairs schema json i (m :: ms) out = walkPairs schema json (i + (keyNode m).count) ms out := by
  have hrow : rowOf schema json m = findNode schema json (Label.token (m.1,1)) := rfl
  simp only [walkPairs,← hrow]
  cases hfind : rowOf schema json m with
  | none => rfl
  | some node =>
    have hvalue : node.valueOffset = none := by simpa [fieldOf,hfind] using hfield
    have hntokens : node.ntokensOffset = none := by
      cases hn : node.ntokensOffset with
      | none => rfl
      | some f =>
        have hf := hcounts node (List.mem_of_find?_eq_some hfind) f hn
        rw [hvalue] at hf
        cases hf
    have hpass : node.typeCmp (rootToken m.2) json = true := by simpa [passesType,hfind] using htype
    simp [hpass,hvalue,hntokens,Output.seen,Output.fill,Output.setValue,Output.setNtokens]

/-- A member of the wrong type, or for a field that is filled in, ends the walk. -/
theorem walkPairs_refuse (h : passesType schema json m = false ∨
    ∃ f, fieldOf schema json m = some f ∧ (out.value f).isSome = true) :
    walkPairs schema json i (m :: ms) out = (false,out) := by
  have hrow : rowOf schema json m = findNode schema json (Label.token (m.1,1)) := rfl
  simp only [walkPairs,← hrow]
  cases hfind : rowOf schema json m with
  | none => simp [passesType,fieldOf,hfind] at h
  | some node =>
    simp only [passesType,fieldOf,hfind,Option.all_some,Option.bind_some] at h
    rcases h with htype | ⟨f,hf,hsome⟩
    · simp [htype]
    · simp [Output.seen,hf,hsome]

theorem walkPairs_keeps {f : φ} (h : (out.value f).isSome = true) :
    ((walkPairs schema json i ms out).2.value f).isSome = true := by
  induction ms generalizing i out with
  | nil => simpa [walkPairs] using h
  | cons m ms ih =>
    simp only [walkPairs]
    cases findNode schema json (Label.token (m.1,1)) with
    | none => exact ih h
    | some node =>
      simp only
      split
      · exact h
      · split
        · exact h
        · apply ih
          rw [Output.fill_value]
          split
          · rfl
          · exact h

/-- A member that fills in a field leaves it filled in. -/
theorem walkPairs_fill {f : φ} (htype : passesType schema json m = true)
    (hfield : fieldOf schema json m = some f) (hnone : out.value f = none) :
    ((walkPairs schema json i (m :: ms) out).2.value f).isSome = true := by
  have hrow : rowOf schema json m = findNode schema json (Label.token (m.1,1)) := rfl
  simp only [walkPairs,← hrow]
  cases hfind : rowOf schema json m with
  | none => simp [fieldOf,hfind] at hfield
  | some node =>
    have hvalue : node.valueOffset = some f := by simpa [fieldOf,hfind] using hfield
    have hpass : node.typeCmp (rootToken m.2) json = true := by simpa [passesType,hfind] using htype
    simp only [hpass,hvalue,Output.seen,hnone,Bool.not_true,Bool.false_eq_true,if_false,Option.isSome_none]
    apply walkPairs_keeps
    rw [Output.fill_value,if_pos hvalue]
    rfl

/-- A member that passes its check and fills in nothing. -/
def idleMember (schema : List (Node φ)) (json : List UInt8) (m : Label × Rose Label) : Bool :=
  passesType schema json m && (fieldOf schema json m).isNone

/-- A member that ends the walk: it has the wrong type, or its field is filled in. -/
def Blocked (schema : List (Node φ)) (json : List UInt8) (out : Output φ) (m : Label × Rose Label) : Prop :=
  passesType schema json m = false ∨ ∃ f, fieldOf schema json m = some f ∧ (out.value f).isSome = true

/-- Idle members are passed, up to the first that is another one. -/
theorem walkPairs_idleMembers (hcounts : CountsValues schema) (i : ℕ) (out : Output φ)
    (ms : List (Label × Rose Label)) :
    (ms.find? (!idleMember schema json ·) = none ∧ walkPairs schema json i ms out = (true,out)) ∨
      ∃ m ms' i', ms.find? (!idleMember schema json ·) = some m ∧ idleMember schema json m = false ∧
        walkPairs schema json i ms out = walkPairs schema json i' (m :: ms') out := by
  induction ms generalizing i with
  | nil => exact Or.inl ⟨rfl,rfl⟩
  | cons m ms ih =>
    cases hidle : idleMember schema json m with
    | true =>
      have hboth := hidle
      simp only [idleMember,Bool.and_eq_true,Option.isNone_iff_eq_none] at hboth
      have hpass : walkPairs schema json i (m :: ms) out = _ := walkPairs_pass hcounts hboth.1 hboth.2
      simp only [List.find?_cons,hidle,Bool.not_true,hpass]
      exact ih _
    | false => exact Or.inr ⟨m,ms,i,by simp [hidle],hidle,rfl⟩

/-- Any other member ends the walk, or fills in a field that was not filled in. -/
theorem walkPairs_activeMember (i : ℕ) (out : Output φ) (ms : List (Label × Rose Label))
    (hidle : idleMember schema json m = false) :
    (Blocked schema json out m ∧ walkPairs schema json i (m :: ms) out = (false,out)) ∨
      (¬ Blocked schema json out m ∧ ∃ f, out.value f = none ∧
        ((walkPairs schema json i (m :: ms) out).2.value f).isSome = true) := by
  by_cases hblocked : Blocked schema json out m
  · exact Or.inl ⟨hblocked,walkPairs_refuse hblocked⟩
  · have hparts := hblocked
    simp only [Blocked,not_or,Bool.not_eq_false,not_exists,not_and,Bool.not_eq_true,
      Option.isSome_eq_false_iff,Option.isNone_iff_eq_none] at hparts
    obtain ⟨f,hf⟩ : ∃ f, fieldOf schema json m = some f := by
      simpa [idleMember,hparts.1,← Option.isSome_iff_exists] using hidle
    exact Or.inr ⟨hblocked,f,hparts.2 f hf,walkPairs_fill hparts.1 hf (hparts.2 f hf)⟩

end Step

theorem walkPairs_value {out : Output φ} (h : Admissible schema json ms) (hfresh : Fresh schema json out ms)
    (f : φ) : (walkPairs schema json i ms out).2.value f =
      (fieldValue schema json f i ms).or (out.value f) := by
  induction ms generalizing i out with
  | nil => simp [walkPairs,fieldValue]
  | cons m ms ih =>
    obtain ⟨out',heq,hrest,hfresh',hvalue,-⟩ := walkPairs_cons h hfresh i
    have hdistinct := (List.pairwise_cons.mp h.distinct).1
    rw [heq,ih hrest hfresh',hvalue f]
    by_cases hf : fieldOf schema json m = some f
    · have hlater := fieldValue_eq_none (fun x hx => hdistinct x hx f hf) (i + (keyNode m).count)
      simp [fieldValue,hf,hlater]
    · simp [fieldValue,hf]

theorem fieldNtokens_eq_none (h : ∀ m ∈ ms, (rowOf schema json m).bind Node.ntokensOffset ≠ some f) :
    fieldNtokens schema json f ms = none := by
  induction ms with
  | nil => rfl
  | cons m ms ih =>
    have hm := h m List.mem_cons_self
    simp only [fieldNtokens,if_neg hm]
    exact ih (fun x hx => h x (List.mem_cons_of_mem _ hx))

/-- Rows that keep a number of tokens in the same place fill in the same field. -/
def CountsOnce (schema : List (Node φ)) : Prop := ∀ x ∈ schema, ∀ y ∈ schema, ∀ f,
  x.ntokensOffset = some f → y.ntokensOffset = some f → ∃ g, x.valueOffset = some g ∧ y.valueOffset = some g

omit [DecidableEq φ] in
theorem CountsValues.once (h : CountsValues schema) : CountsOnce schema :=
  fun x hx y hy f hxf hyf => ⟨f,h x hx f hxf,h y hy f hyf⟩

theorem walkPairs_ntokens (hcounts : CountsOnce schema) {out : Output φ} (h : Admissible schema json ms)
    (hfresh : Fresh schema json out ms) (f : φ) :
    (walkPairs schema json i ms out).2.ntokens f =
      (fieldNtokens schema json f ms).getD (out.ntokens f) := by
  induction ms generalizing i out with
  | nil => simp [walkPairs,fieldNtokens]
  | cons m ms ih =>
    obtain ⟨out',heq,hrest,hfresh',-,hntokens⟩ := walkPairs_cons h hfresh i
    have hdistinct := (List.pairwise_cons.mp h.distinct).1
    rw [heq,ih hrest hfresh',hntokens f]
    by_cases hf : (rowOf schema json m).bind Node.ntokensOffset = some f
    · have hlater : fieldNtokens schema json f ms = none := by
        refine fieldNtokens_eq_none (fun x hx hxf => ?_)
        obtain ⟨node,hnode,hnf⟩ := Option.bind_eq_some_iff.mp hf
        obtain ⟨node',hnode',hnf'⟩ := Option.bind_eq_some_iff.mp hxf
        obtain ⟨g,hg,hg'⟩ := hcounts node (List.mem_of_find?_eq_some hnode) node'
          (List.mem_of_find?_eq_some hnode') f hnf hnf'
        exact hdistinct x hx g (by simp [fieldOf,hnode,hg]) (by simp [fieldOf,hnode',hg'])
      simp [fieldNtokens,hf,hlater]
    · simp [fieldNtokens,hf]

omit [DecidableEq φ] in
theorem fresh_empty (schema : List (Node φ)) (json : List UInt8) (ms : List (Label × Rose Label)) :
    Fresh schema json ({} : Output φ) ms := fun _ _ _ _ => rfl

/-- With nothing filled in before, the members alone decide. -/
theorem walkPairs_empty (schema : List (Node φ)) (json : List UInt8) (i : ℕ) (ms : List (Label × Rose Label)) :
    (walkPairs schema json i ms {}).1 = true ↔ Admissible schema json ms := by
  rw [walkPairs_accepts]
  exact and_iff_left (fresh_empty schema json ms)

theorem walkPairs_empty_value (i : ℕ) (h : Admissible schema json ms) (f : φ) :
    (walkPairs schema json i ms {}).2.value f = fieldValue schema json f i ms := by
  simpa using walkPairs_value h (fresh_empty schema json ms) f

end Spec
end Lightsd.Core.Jsonrpc
