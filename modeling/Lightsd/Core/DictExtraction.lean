import Lightsd.Core.ReadOn

/-! # Extraction from an object

What the walk over an object by a table of parameters accepts and fills in, in terms of the
keys and the values of its members. The walk finds a repeated key by the field that it
fills in, so that two rows of a table must not share a field. The order of the members and
what is inside of their values do not matter.
-/
namespace Lightsd.Core.Jsonrpc

open OrderedTree

section Extraction
variable {φ : Type} (schema : List (Node φ)) (json : List UInt8) (ms : List (Label × Rose Label))

/-- A table whose keys differ, and of which no two rows fill in the same field. A number of
tokens is kept only beside a value. -/
structure Tidy : Prop where
  keys : (schema.map Node.key).Nodup
  values : ∀ x ∈ schema, ∀ y ∈ schema, ∀ f, x.valueOffset = some f → y.valueOffset = some f → x.key = y.key
  counts : ∀ x ∈ schema, ∀ y ∈ schema, ∀ f, x.ntokensOffset = some f → y.ntokensOffset = some f → x.key = y.key
  counted : ∀ x ∈ schema, x.ntokensOffset.isSome = true → x.valueOffset.isSome = true

/-- The members are of the types of their rows, none of them is repeated and all of those
that are required are there. -/
structure Acceptable : Prop where
  types : ∀ m ∈ ms, ∀ x ∈ schema, x.key = keyText json m → x.typeCmp (rootToken m.2) json = true
  once : ∀ x ∈ schema, x.valueOffset.isSome = true → (ms.map (keyText json)).count x.key ≤ 1
  required : ∀ x ∈ schema, x.optional = false → x.valueOffset.isSome = true → ∃ m ∈ ms, keyText json m = x.key

/-- The fields point at the values of the members, the first of which begins at an index. -/
structure FilledIn (first : ℕ) (out : Output φ) : Prop where
  value : ∀ x ∈ schema, ∀ f, x.valueOffset = some f → ∀ before m after, ms = before ++ m :: after →
    keyText json m = x.key → out.value f = some (first + counts (before.map keyNode) + 1)
  count : ∀ x ∈ schema, ∀ f, x.ntokensOffset = some f → ∀ m ∈ ms, keyText json m = x.key →
    out.ntokens f = m.2.count
  null : ∀ x ∈ schema, ∀ f, x.valueOffset = some f → (∀ m ∈ ms, keyText json m ≠ x.key) → out.value f = none

/-- What the walk sees of a member. -/
def brief (m : Label × Rose Label) : List UInt8 × List Bool × ℕ :=
  (keyText json m,schema.map (fun x => x.typeCmp (rootToken m.2) json),m.2.count)

variable {schema json ms}

/-- A table is in order if its keys and its fields differ, and a number of tokens has the
field of its value. -/
theorem tidy_of_nodup (h : (schema.map Node.key).Nodup ∧ (schema.map Node.valueOffset).Nodup ∧
    ∀ x ∈ schema, x.ntokensOffset = none ∨ x.ntokensOffset = x.valueOffset) : Tidy schema := by
  obtain ⟨hkeys,hvalues,hoffsets⟩ := h
  have hcounts : ∀ x ∈ schema, ∀ f, x.ntokensOffset = some f → x.valueOffset = some f := by
    intro x hx f hf
    rcases hoffsets x hx with hnone | heq
    · rw [hnone] at hf
      cases hf
    · rw [← heq,hf]
  refine ⟨hkeys,fun x hx y hy f hxf hyf => ?_,fun x hx y hy f hxf hyf => ?_,fun x hx hsome => ?_⟩
  · rw [List.inj_on_of_nodup_map hvalues hx hy (hxf.trans hyf.symm)]
  · rw [List.inj_on_of_nodup_map hvalues hx hy ((hcounts x hx f hxf).trans (hcounts y hy f hyf).symm)]
  · obtain ⟨f,hf⟩ := Option.isSome_iff_exists.mp hsome
    rw [hcounts x hx f hf]
    rfl

theorem Tidy.row_unique (h : Tidy schema) {x y : Node φ} (hx : x ∈ schema) (hy : y ∈ schema) (hkey : x.key = y.key) :
    x = y := List.inj_on_of_nodup_map h.keys hx hy hkey

theorem Tidy.countsOnce (h : Tidy schema) : CountsOnce schema := by
  intro x hx y hy f hxf hyf
  obtain rfl := h.row_unique hx hy (h.counts x hx y hy f hxf hyf)
  obtain ⟨g,hg⟩ := Option.isSome_iff_exists.mp (h.counted x hx (by rw [hxf]; rfl))
  exact ⟨g,hg,hg⟩

theorem rowOf_eq_some (h : Tidy schema) {m : Label × Rose Label} {x : Node φ} :
    rowOf schema json m = some x ↔ x ∈ schema ∧ x.key = keyText json m := rowFor_eq_some h.keys

/-- A member fills in the field of the row with its key. -/
theorem fieldOf_eq_some (h : Tidy schema) {m : Label × Rose Label} {x : Node φ} {f : φ} (hx : x ∈ schema)
    (hf : x.valueOffset = some f) : fieldOf schema json m = some f ↔ keyText json m = x.key := by
  constructor
  · intro hm
    obtain ⟨y,hy,hyf⟩ := Option.bind_eq_some_iff.mp hm
    obtain ⟨hmem,hkey⟩ := (rowOf_eq_some h).mp hy
    exact hkey.symm.trans (h.values y hmem x hx f hyf hf)
  · intro hkey
    have hrow : rowOf schema json m = some x := (rowOf_eq_some h).mpr ⟨hx,hkey.symm⟩
    simp [fieldOf,hrow,hf]

theorem count_le_one_iff {α : Type} [BEq α] [LawfulBEq α] {as : List α} {a : α} :
    as.count a ≤ 1 ↔ as.Pairwise (fun b c => b = a → c ≠ a) := by
  induction as with
  | nil => simp
  | cons b bs ih =>
    rw [List.pairwise_cons,← ih,List.count_cons]
    by_cases hb : b = a
    · have hzero : (∀ c ∈ bs, b = a → c ≠ a) ↔ bs.count a = 0 := by
        rw [List.count_eq_zero]
        exact ⟨fun hall hmem => hall a hmem hb rfl,fun hnot c hc _ hca => hnot (hca ▸ hc)⟩
      rw [hzero]
      simp [hb]
      omega
    · simp [hb]

theorem admissible_iff (h : Tidy schema) : Admissible schema json ms ↔
    (∀ m ∈ ms, ∀ x ∈ schema, x.key = keyText json m → x.typeCmp (rootToken m.2) json = true) ∧
      ∀ x ∈ schema, x.valueOffset.isSome = true → (ms.map (keyText json)).count x.key ≤ 1 := by
  have htypes : (∀ m ∈ ms, passesType schema json m = true) ↔
      ∀ m ∈ ms, ∀ x ∈ schema, x.key = keyText json m → x.typeCmp (rootToken m.2) json = true := by
    refine forall₂_congr (fun m _ => ?_)
    rw [passesType,Option.all_eq_true_iff_get]
    constructor
    · intro hall x hx hkey
      have hrow : rowOf schema json m = some x := (rowOf_eq_some h).mpr ⟨hx,hkey⟩
      simpa [hrow] using hall
    · intro hall hsome
      obtain ⟨x,hx⟩ := Option.isSome_iff_exists.mp hsome
      obtain ⟨hmem,hkey⟩ := (rowOf_eq_some h).mp hx
      simpa [hx] using hall x hmem hkey
  have hdistinct : ms.Pairwise (Distinct schema json) ↔
      ∀ x ∈ schema, x.valueOffset.isSome = true → (ms.map (keyText json)).count x.key ≤ 1 := by
    simp only [count_le_one_iff,List.pairwise_map]
    simp only [List.pairwise_iff_forall_sublist,Distinct]
    constructor
    · intro hall x hx hsome m m' hsub hm hm'
      obtain ⟨f,hf⟩ := Option.isSome_iff_exists.mp hsome
      exact hall hsub f ((fieldOf_eq_some h hx hf).mpr hm) ((fieldOf_eq_some h hx hf).mpr hm')
    · intro hall m m' hsub f hm hm'
      obtain ⟨x,hrow,hf⟩ := Option.bind_eq_some_iff.mp hm
      obtain ⟨hx,hkey⟩ := (rowOf_eq_some h).mp hrow
      exact hall x hx (by rw [hf]; rfl) hsub hkey.symm ((fieldOf_eq_some h hx hf).mp hm')
  exact ⟨fun hadm => ⟨htypes.mp hadm.types,hdistinct.mp hadm.distinct⟩,
    fun hall => ⟨htypes.mpr hall.1,hdistinct.mpr hall.2⟩⟩

variable [DecidableEq φ]

theorem fieldValue_split {f : φ} {before after : List (Label × Rose Label)} {m : Label × Rose Label} (i : ℕ)
    (hbefore : ∀ x ∈ before, fieldOf schema json x ≠ some f) (hm : fieldOf schema json m = some f) :
    fieldValue schema json f i (before ++ m :: after) = some (i + counts (before.map keyNode) + 1) := by
  induction before generalizing i with
  | nil => simp [fieldValue,hm]
  | cons b before ih =>
    have hb := hbefore b List.mem_cons_self
    have hrest := ih (i + (keyNode b).count) (fun x hx => hbefore x (List.mem_cons_of_mem _ hx))
    rw [List.cons_append,fieldValue,if_neg hb,hrest,List.map_cons,counts_cons]
    congr 2
    omega

theorem fieldNtokens_of_mem {f : φ} {m : Label × Rose Label} (hm : m ∈ ms)
    (hf : (rowOf schema json m).bind Node.ntokensOffset = some f)
    (honce : ∀ x ∈ ms, (rowOf schema json x).bind Node.ntokensOffset = some f → x.2.count = m.2.count) :
    fieldNtokens schema json f ms = some m.2.count := by
  induction ms with
  | nil => cases hm
  | cons b ms ih =>
    rw [fieldNtokens]
    by_cases hb : (rowOf schema json b).bind Node.ntokensOffset = some f
    · rw [if_pos hb,honce b List.mem_cons_self hb]
    · rw [if_neg hb]
      rcases List.mem_cons.mp hm with rfl | hm
      · exact absurd hf hb
      · exact ih hm (fun x hx => honce x (List.mem_cons_of_mem _ hx))

variable {toks : List Token} {base : ℕ} {a : Label} {out : Output φ}

/-- What an object that is given by its own tokens gives. -/
theorem extractFromDict_own (h : ObjectAt toks base a ms []) :
    extractFromDict schema toks json {} base (toks.length - base) =
      .ok ((walkPairs schema json (base + 1) ms {}).1 && complete schema (walkPairs schema json (base + 1) ms {}).2,
        (walkPairs schema json (base + 1) ms {}).2) := by
  have happend : ms ++ (readOn []).1 = ms := List.append_nil ms
  rw [h.extract,happend]
  cases hok : (walkPairs schema json (base + 1) ms {}).1 <;> simp [readOn]

theorem complete_iff (h : Tidy schema) {i : ℕ} (hadm : Admissible schema json ms)
    (hout : walkPairs schema json i ms {} = (true,out)) : complete schema out = true ↔
      ∀ x ∈ schema, x.optional = false → x.valueOffset.isSome = true → ∃ m ∈ ms, keyText json m = x.key := by
  rw [complete,List.all_eq_true]
  refine forall₂_congr (fun x hx => ?_)
  cases hvalue : x.valueOffset with
  | none => simp
  | some f =>
    have hfield : out.value f = fieldValue schema json f i ms := by
      rw [← walkPairs_empty_value i hadm f,hout]
    have hseen : out.seen (some f) = true ↔ ∃ m ∈ ms, keyText json m = x.key := by
      simp only [Output.seen,hfield,fieldValue_isSome,fieldOf_eq_some h hx hvalue]
    cases x.optional <;> simp [hseen]

/-- An object is accepted exactly if its members are acceptable. -/
theorem accepted_iff (h : Tidy schema) (i : ℕ) :
    ((walkPairs schema json i ms {}).1 && complete schema (walkPairs schema json i ms {}).2) = true ↔
      Acceptable schema json ms := by
  rw [Bool.and_eq_true,walkPairs_empty]
  constructor
  · rintro ⟨hadm,hcomplete⟩
    have hout : walkPairs schema json i ms {} = (true,(walkPairs schema json i ms {}).2) :=
      Prod.ext ((walkPairs_empty schema json i ms).mpr hadm) rfl
    obtain ⟨htypes,honce⟩ := (admissible_iff h).mp hadm
    exact ⟨htypes,honce,(complete_iff h hadm hout).mp hcomplete⟩
  · intro hacc
    have hadm := (admissible_iff h).mpr ⟨hacc.types,hacc.once⟩
    have hout : walkPairs schema json i ms {} = (true,(walkPairs schema json i ms {}).2) :=
      Prod.ext ((walkPairs_empty schema json i ms).mpr hadm) rfl
    exact ⟨hadm,(complete_iff h hadm hout).mpr hacc.required⟩

theorem filledIn (h : Tidy schema) (i : ℕ) (hacc : Acceptable schema json ms) :
    FilledIn schema json ms i (walkPairs schema json i ms {}).2 := by
  have hadm := (admissible_iff h).mpr ⟨hacc.types,hacc.once⟩
  refine ⟨?_,?_,?_⟩
  · intro x hx f hf before m after hms hkey
    rw [walkPairs_empty_value i hadm,hms]
    refine fieldValue_split i (fun b hb hbf => ?_) ((fieldOf_eq_some h hx hf).mpr hkey)
    have hpair := hadm.distinct
    rw [hms,List.pairwise_append] at hpair
    exact hpair.2.2 b hb m List.mem_cons_self f hbf ((fieldOf_eq_some h hx hf).mpr hkey)
  · intro x hx f hf m hm hkey
    have hrow : rowOf schema json m = some x := (rowOf_eq_some h).mpr ⟨hx,hkey.symm⟩
    have hcount : fieldNtokens schema json f ms = some m.2.count := by
      refine fieldNtokens_of_mem hm (by simp [hrow,hf]) (fun m' hm' hmf => ?_)
      by_contra hne
      obtain ⟨y,hrow',hyf⟩ := Option.bind_eq_some_iff.mp hmf
      obtain ⟨hy,-⟩ := (rowOf_eq_some h).mp hrow'
      obtain ⟨g,hg,hg'⟩ := h.countsOnce x hx y hy f hf hyf
      have hsymm : Std.Symm (Distinct schema json) := ⟨fun b c hbc f hc hb => hbc f hb hc⟩
      have hdistinct := hadm.distinct.forall hm hm' (fun heq => hne (by rw [heq]))
      exact hdistinct g (by simp [fieldOf,hrow,hg]) (by simp [fieldOf,hrow',hg'])
    rw [walkPairs_ntokens h.countsOnce hadm (fresh_empty schema json ms),hcount]
    rfl
  · intro x hx f hf hnone
    rw [walkPairs_empty_value i hadm]
    exact fieldValue_eq_none (fun m hm hmf => hnone m hm ((fieldOf_eq_some h hx hf).mp hmf)) i

omit [DecidableEq φ] in
theorem acceptable_of_perm {json' : List UInt8} {ms' : List (Label × Rose Label)}
    (hperm : (ms.map (brief schema json)).Perm (ms'.map (brief schema json')))
    (h : Acceptable schema json ms) : Acceptable schema json' ms' := by
  have hkeys : (ms.map (keyText json)).Perm (ms'.map (keyText json')) := by
    have hfst := hperm.map Prod.fst
    rwa [List.map_map,List.map_map] at hfst
  have hother : ∀ m' ∈ ms', ∃ m ∈ ms, brief schema json m = brief schema json' m' :=
    fun m' hm' => List.mem_map.mp (hperm.mem_iff.mpr (List.mem_map_of_mem hm'))
  have hother' : ∀ m ∈ ms, ∃ m' ∈ ms', brief schema json' m' = brief schema json m :=
    fun m hm => List.mem_map.mp (hperm.mem_iff.mp (List.mem_map_of_mem hm))
  refine ⟨?_,?_,?_⟩
  · intro m' hm' x hx hkey
    obtain ⟨m,hm,heq⟩ := hother m' hm'
    simp only [brief,Prod.mk.injEq,List.map_inj_left] at heq
    rw [← heq.2.1 x hx]
    exact h.types m hm x hx (hkey.trans heq.1.symm)
  · intro x hx hsome
    rw [← hkeys.count_eq]
    exact h.once x hx hsome
  · intro x hx hopt hsome
    obtain ⟨m,hm,hkey⟩ := h.required x hx hopt hsome
    obtain ⟨m',hm',heq⟩ := hother' m hm
    simp only [brief,Prod.mk.injEq] at heq
    exact ⟨m',hm',heq.1.trans hkey⟩

theorem isSome_value_iff (h : Tidy schema) (i : ℕ) (hacc : Acceptable schema json ms) (f : φ) :
    ((walkPairs schema json i ms {}).2.value f).isSome = true ↔
      ∃ x ∈ schema, x.valueOffset = some f ∧ x.key ∈ ms.map (keyText json) := by
  have hadm := (admissible_iff h).mpr ⟨hacc.types,hacc.once⟩
  rw [walkPairs_empty_value i hadm,fieldValue_isSome]
  constructor
  · rintro ⟨m,hm,hf⟩
    obtain ⟨x,hrow,hxf⟩ := Option.bind_eq_some_iff.mp hf
    obtain ⟨hx,hkey⟩ := (rowOf_eq_some h).mp hrow
    exact ⟨x,hx,hxf,List.mem_map.mpr ⟨m,hm,hkey.symm⟩⟩
  · rintro ⟨x,hx,hxf,hkey⟩
    obtain ⟨m,hm,hkey⟩ := List.mem_map.mp hkey
    exact ⟨m,hm,(fieldOf_eq_some h hx hxf).mpr hkey⟩

theorem ntokens_eq_zero (h : Tidy schema) (i : ℕ) (hacc : Acceptable schema json ms) {f : φ}
    (hnone : ∀ x ∈ schema, x.ntokensOffset = some f → x.key ∉ ms.map (keyText json)) :
    (walkPairs schema json i ms {}).2.ntokens f = 0 := by
  have hadm := (admissible_iff h).mpr ⟨hacc.types,hacc.once⟩
  have hcount : fieldNtokens schema json f ms = none := by
    refine fieldNtokens_eq_none (fun m hm hmf => ?_)
    obtain ⟨x,hrow,hxf⟩ := Option.bind_eq_some_iff.mp hmf
    obtain ⟨hx,hkey⟩ := (rowOf_eq_some h).mp hrow
    exact hnone x hx hxf (List.mem_map.mpr ⟨m,hm,hkey.symm⟩)
  rw [walkPairs_ntokens h.countsOnce hadm (fresh_empty schema json ms),hcount]
  rfl

/-- Members that look the same to the walk, in any order, fill in the same fields. -/
theorem fields_of_perm (h : Tidy schema) (i i' : ℕ) {json' : List UInt8} {ms' : List (Label × Rose Label)}
    (hperm : (ms.map (brief schema json)).Perm (ms'.map (brief schema json')))
    (hacc : Acceptable schema json ms) (f : φ) :
    ((walkPairs schema json i ms {}).2.value f).isSome = ((walkPairs schema json' i' ms' {}).2.value f).isSome ∧
      (walkPairs schema json i ms {}).2.ntokens f = (walkPairs schema json' i' ms' {}).2.ntokens f := by
  have hacc' := acceptable_of_perm hperm hacc
  have hkeys : ∀ key, key ∈ ms.map (keyText json) ↔ key ∈ ms'.map (keyText json') := by
    intro key
    have hfst := hperm.map Prod.fst
    rw [List.map_map,List.map_map] at hfst
    exact hfst.mem_iff
  refine ⟨?_,?_⟩
  · rw [Bool.eq_iff_iff,isSome_value_iff h i hacc,isSome_value_iff h i' hacc']
    simp only [hkeys]
  · by_cases hsome : ∃ x ∈ schema, x.ntokensOffset = some f ∧ x.key ∈ ms.map (keyText json)
    · obtain ⟨x,hx,hxf,hkey⟩ := hsome
      obtain ⟨m,hm,hkey⟩ := List.mem_map.mp hkey
      obtain ⟨m',hm',heq⟩ := List.mem_map.mp (hperm.mem_iff.mp (List.mem_map_of_mem hm))
      simp only [brief,Prod.mk.injEq] at heq
      rw [(filledIn h i hacc).count x hx f hxf m hm hkey,
        (filledIn h i' hacc').count x hx f hxf m' hm' (heq.1.trans hkey),heq.2.2]
    · have hnone : ∀ x ∈ schema, x.ntokensOffset = some f → x.key ∉ ms.map (keyText json) :=
        fun x hx hxf hkey => hsome ⟨x,hx,hxf,hkey⟩
      rw [ntokens_eq_zero h i hacc hnone,
        ntokens_eq_zero h i' hacc' (fun x hx hxf hkey => hnone x hx hxf ((hkeys x.key).mpr hkey))]

/-- By a table with different keys and fields, an object that is given by its own tokens is
accepted exactly if its members are acceptable; then the fields point at their values. Other
members that look the same, in another order or elsewhere, give the same. -/
theorem dict_extraction (h : Tidy schema) (hat : ObjectAt toks base a ms []) :
    ∃ ok out, extractFromDict schema toks json {} base (toks.length - base) = .ok (ok,out) ∧
      (ok = true ↔ Acceptable schema json ms) ∧ (ok = true → FilledIn schema json ms (base + 1) out) ∧
      ∀ {toks' json' base' a' ms'}, ObjectAt toks' base' a' ms' [] →
        (ms.map (brief schema json)).Perm (ms'.map (brief schema json')) →
        ∃ out', extractFromDict schema toks' json' {} base' (toks'.length - base') = .ok (ok,out') ∧
          (ok = true → ∀ f, (out.value f).isSome = (out'.value f).isSome ∧ out.ntokens f = out'.ntokens f) := by
  refine ⟨_,_,extractFromDict_own hat,accepted_iff h _,fun hok => filledIn h _ ((accepted_iff h _).mp hok),?_⟩
  intro toks' json' base' a' ms' hat' hperm
  have hverdict : ((walkPairs schema json' (base' + 1) ms' {}).1 &&
      complete schema (walkPairs schema json' (base' + 1) ms' {}).2) =
        ((walkPairs schema json (base + 1) ms {}).1 && complete schema (walkPairs schema json (base + 1) ms {}).2) := by
    rw [Bool.eq_iff_iff,accepted_iff h,accepted_iff h]
    exact ⟨acceptable_of_perm hperm.symm,acceptable_of_perm hperm⟩
  refine ⟨(walkPairs schema json' (base' + 1) ms' {}).2,?_,fun hok f => ?_⟩
  · rw [extractFromDict_own hat',hverdict]
  · exact fields_of_perm h _ _ hperm ((accepted_iff h _).mp hok) f

end Extraction

section Samples

/-- An object with an array for a key, and a number for another. -/
def pairJson : List UInt8 := ascii "\x7b\"a\":[1],\"b\":2\x7d"

def pairMembers : List (Label × Rose Label) :=
  [(⟨.string,2,3⟩,.node ⟨.array,5,8⟩ [.node ⟨.primitive,6,7⟩ []]),
    (⟨.string,10,11⟩,.node ⟨.primitive,13,14⟩ [])]

def pairToks : List Token := tokensOf [.node ⟨.object,0,15⟩ (pairMembers.map keyNode)]

theorem pairMembers_at : ObjectAt pairToks 0 ⟨.object,0,15⟩ pairMembers [] := by
  refine ⟨rfl,by simp [pairMembers],?_,nofun,rfl⟩
  intro m hm
  simp only [pairMembers,List.mem_cons,List.not_mem_nil,or_false] at hm
  rcases hm with rfl | rfl
  · refine .array _ _ rfl (fun c hc => ?_)
    rw [List.mem_singleton.mp hc]
    exact .leaf _ (.inr rfl)
  · exact .leaf _ (.inr rfl)

/-- A table for the first key only. -/
def firstSchema : List (Node Unit) := [⟨ascii "a",some (),some (),typeArray,false⟩]

theorem dict_extraction_pair : parseTokens pairJson = some pairToks ∧
    ∃ ok out, extractFromDict firstSchema pairToks pairJson {} 0 (pairToks.length - 0) = .ok (ok,out) ∧
      (ok = true ↔ Acceptable firstSchema pairJson pairMembers) ∧
      (ok = true → FilledIn firstSchema pairJson pairMembers 1 out) := by
  have htidy : Tidy firstSchema := by
    refine ⟨by simp [firstSchema],?_,?_,?_⟩ <;> simp [firstSchema]
  obtain ⟨ok,out,hextract,hok,hfilled,-⟩ :
      ∃ ok out, extractFromDict firstSchema pairToks pairJson {} 0 (pairToks.length - 0) = .ok (ok,out) ∧ _ :=
    dict_extraction htidy pairMembers_at
  exact ⟨by decide +kernel,ok,out,hextract,hok,hfilled⟩

/-- A key that is there twice. -/
def repeatedJson : List UInt8 := ascii "\x7b\"a\":[1],\"a\":[]\x7d"

def repeatedMembers : List (Label × Rose Label) :=
  [(⟨.string,2,3⟩,.node ⟨.array,5,8⟩ [.node ⟨.primitive,6,7⟩ []]),
    (⟨.string,10,11⟩,.node ⟨.array,13,15⟩ [])]

def repeatedToks : List Token := tokensOf [.node ⟨.object,0,16⟩ (repeatedMembers.map keyNode)]

/-- Tables whose keys differ: two rows with one field, two rows with one place for the number of
tokens, and a row with such a place and without a field. -/
def sharedValue : List (Node Bool) :=
  [⟨ascii "a",some true,none,typeArray,true⟩,⟨ascii "b",some true,none,typeInteger,true⟩]

def sharedCount : List (Node Bool) :=
  [⟨ascii "a",some true,some true,typeArray,true⟩,⟨ascii "b",some false,some true,typeInteger,true⟩]

def countOnly : List (Node Bool) := [⟨ascii "a",none,some true,typeArray,true⟩]

/-- With a shared field the object is refused although its members are acceptable, and with
a shared place the number of tokens is that of another value. Without a field a key that is
repeated is accepted, and the number of tokens is that of the last value only. -/
theorem shared_fields_confused :
    ((sharedValue.map Node.key).Nodup ∧ Acceptable sharedValue pairJson pairMembers ∧
      (extractFromDict sharedValue pairToks pairJson {} 0 pairToks.length).map (fun r => r.1) = .ok false) ∧
    ((sharedCount.map Node.key).Nodup ∧ Acceptable sharedCount pairJson pairMembers ∧
      (extractFromDict sharedCount pairToks pairJson {} 0 pairToks.length).map (fun r => (r.1,r.2.ntokens true)) =
        .ok (true,1) ∧ (pairMembers.map (fun m => m.2.count)) = [2,1]) ∧
    (countOnly.map Node.key).Nodup ∧ Acceptable countOnly repeatedJson repeatedMembers ∧
      parseTokens repeatedJson = some repeatedToks ∧
      (extractFromDict countOnly repeatedToks repeatedJson {} 0 repeatedToks.length).map
        (fun r => (r.1,r.2.ntokens true)) = .ok (true,1) ∧ (repeatedMembers.map (fun m => m.2.count)) = [2,1] := by
  refine ⟨⟨by decide +kernel,?_,by decide +kernel⟩,⟨by decide +kernel,?_,by decide +kernel,by decide +kernel⟩,
    by decide +kernel,?_,by decide +kernel,by decide +kernel,by decide +kernel⟩
  · constructor <;> decide +kernel
  · constructor <;> decide +kernel
  · constructor <;> decide +kernel

end Samples
end Lightsd.Core.Jsonrpc
