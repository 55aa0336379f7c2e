import Lightsd.Core.JsonMembers
import Lightsd.Core.SchemaSpec
import Lightsd.Library.KeyedList

/-! # Schemas and the entries of objects

The rows, the fields and the checks of the members of an object depend on its keys and
values only, and so do the indices that are filled in: the value of a member is found by
counting the tokens of the members before it.
-/
namespace Lightsd.Core

open OrderedTree Jsonrpc

namespace Json

mutual
/-- The number of tokens of a value. -/
def Value.ntokens : Value → ℕ
  | .string _ | .primitive _ => 1
  | .array _ items => items.ntokens + 1
  | .object _ members => members.ntokens + 1

def Items.ntokens : Items → ℕ
  | .nil => 0
  | .cons _ value _ rest => value.ntokens + rest.ntokens

def Members.ntokens : Members → ℕ
  | .nil => 0
  | .cons _ _ _ _ value _ rest => 1 + value.ntokens + rest.ntokens
end

mutual
theorem Value.count_node (pos : ℕ) : ∀ v : Value, (v.node pos).count = v.ntokens
  | .string chars => by rw [Value.node,Value.ntokens,Jsmn.count_leaf]
  | .primitive chars => by rw [Value.node,Value.ntokens,Jsmn.count_leaf]
  | .array space items => by
    rw [Value.node,Value.ntokens,OrderedTree.count_node,Items.counts_nodes true _ items]
  | .object space members => by
    rw [Value.node,Value.ntokens,OrderedTree.count_node,Members.counts_nodes true _ members]

theorem Items.counts_nodes (first : Bool) (pos : ℕ) : ∀ items : Items,
    counts (items.nodes first pos) = items.ntokens
  | .nil => by simp [Items.nodes,Items.ntokens]
  | .cons before value after rest => by
    rw [Items.nodes,Items.ntokens,counts_cons,Value.count_node _ value,Items.counts_nodes false _ rest]

theorem Members.counts_nodes (first : Bool) (pos : ℕ) : ∀ members : Members,
    counts (members.nodes first pos) = members.ntokens
  | .nil => by simp [Members.nodes,Members.ntokens]
  | .cons before key beforeColon afterColon value after rest => by
    rw [Members.nodes,Members.ntokens,counts_cons,OrderedTree.count_node,counts_cons,counts_nil,
      Value.count_node _ value,Members.counts_nodes false _ rest]
    omega
end

/-- The index of the value of the first member with a key. -/
def valueIndex (key : List UInt8) : ℕ → List (List UInt8 × Value) → Option ℕ
  | _, [] => none
  | i, e :: es => if e.1 = key then some (i + 1) else valueIndex key (i + 1 + e.2.ntokens) es

theorem valueIndex_isSome {key : List UInt8} {es : List (List UInt8 × Value)} (i : ℕ) :
    (valueIndex key i es).isSome = true ↔ ∃ e ∈ es, e.1 = key := by
  induction es generalizing i with
  | nil => simp [valueIndex]
  | cons e es ih =>
    by_cases h : e.1 = key
    · simp [valueIndex,h]
    · simp [valueIndex,h,ih]

theorem Shown.count {json : List UInt8} {t : Rose Label} {v : Value} (h : Shown json t v) :
    t.count = v.ntokens := by
  obtain ⟨pos,rest,rfl,-,-,-⟩ := h
  exact v.count_node pos

theorem Shown.shaped {json : List UInt8} {t : Rose Label} {v : Value} (h : Shown json t v) : Shaped t := by
  obtain ⟨pos,rest,rfl,-,-,-⟩ := h
  exact v.shaped pos

end Json

section Forall
variable {α β : Type*} {R : α → β → Prop} {as : List α} {bs : List β}

theorem forall_mem_iff_of_forall₂ {p : α → Prop} {q : β → Prop} (h : List.Forall₂ R as bs)
    (hpq : ∀ a b, R a b → (p a ↔ q b)) : (∀ a ∈ as, p a) ↔ ∀ b ∈ bs, q b := by
  induction h with
  | nil => simp
  | cons hab _ ih => simp only [List.forall_mem_cons,hpq _ _ hab,ih]

theorem exists_mem_iff_of_forall₂ {p : α → Prop} {q : β → Prop} (h : List.Forall₂ R as bs)
    (hpq : ∀ a b, R a b → (p a ↔ q b)) : (∃ a ∈ as, p a) ↔ ∃ b ∈ bs, q b := by
  induction h with
  | nil => simp
  | cons hab _ ih => simp only [List.exists_mem_cons_iff,hpq _ _ hab,ih]

theorem exists_find?_iff_of_forall₂ {p : α → Bool} {q : β → Bool} {P : α → Prop} {Q : β → Prop}
    (h : List.Forall₂ R as bs) (hpq : ∀ a b, R a b → p a = q b) (hPQ : ∀ a b, R a b → (P a ↔ Q b)) :
    (∃ a, as.find? p = some a ∧ P a) ↔ ∃ b, bs.find? q = some b ∧ Q b := by
  induction h with
  | nil => simp
  | @cons a b _ _ hab _ ih =>
    rw [List.find?_cons,List.find?_cons,hpq a b hab]
    cases q b with
    | true => simpa using hPQ a b hab
    | false => exact ih

theorem pairwise_iff_of_forall₂ {p : α → α → Prop} {q : β → β → Prop} (h : List.Forall₂ R as bs)
    (hpq : ∀ a b a' b', R a b → R a' b' → (p a a' ↔ q b b')) : as.Pairwise p ↔ bs.Pairwise q := by
  induction h with
  | nil => simp
  | cons hab hrest ih =>
    rw [List.pairwise_cons,List.pairwise_cons,ih,
      forall_mem_iff_of_forall₂ hrest (fun a' b' h' => hpq _ _ a' b' hab h')]

end Forall

namespace Jsonrpc

open Json

section Entries
variable {φ : Type} [DecidableEq φ] (schema : List (Node φ)) {json : List UInt8}

/-- The row for a key. -/
def rowFor (key : List UInt8) : Option (Node φ) := schema.find? (fun node => node.key = key)

/-- The field that belongs to a key. -/
def fieldFor (key : List UInt8) : Option φ := (rowFor schema key).bind Node.valueOffset

variable {schema} {m m' : Label × Rose Label} {e e' : List UInt8 × Value}

omit [DecidableEq φ] in
theorem rowFor_eq_some (hkeys : (schema.map Node.key).Nodup) {key : List UInt8} {node : Node φ} :
    rowFor schema key = some node ↔ node ∈ schema ∧ node.key = key := by
  constructor
  · intro h
    exact ⟨List.mem_of_find?_eq_some h,by simpa using List.find?_some h⟩
  · rintro ⟨hmem,rfl⟩
    exact KeyedList.find?_key (fun x hx y hy => List.inj_on_of_nodup_map hkeys hx hy) hmem

omit [DecidableEq φ] in
theorem fieldFor_eq_some (hkeys : (schema.map Node.key).Nodup) {key : List UInt8} {f : φ} :
    fieldFor schema key = some f ↔ ∃ node ∈ schema, node.key = key ∧ node.valueOffset = some f := by
  simp only [fieldFor,Option.bind_eq_some_iff,rowFor_eq_some hkeys,and_assoc]

omit [DecidableEq φ] in
theorem rowOf_shown (h : ShownMember json m e) : rowOf schema json m = rowFor schema e.1 := by
  rw [rowOf,findNode,h.key,rowFor]

omit [DecidableEq φ] in
theorem fieldOf_shown (h : ShownMember json m e) : fieldOf schema json m = fieldFor schema e.1 := by
  rw [fieldOf,rowOf_shown h,fieldFor]

omit [DecidableEq φ] in
theorem distinct_shown (h : ShownMember json m e) (h' : ShownMember json m' e') :
    Distinct schema json m m' ↔ ∀ f, fieldFor schema e.1 = some f → fieldFor schema e'.1 ≠ some f := by
  simp only [Distinct,fieldOf_shown h,fieldOf_shown h']

theorem keyNode_count_shown (h : ShownMember json m e) : (keyNode m).count = 1 + e.2.ntokens := by
  rw [count_keyNode,h.value.count,Nat.add_comm]

omit [DecidableEq φ] in
/-- A member passes if its value passes the check of the row with its key. -/
theorem passesType_shown (hkeys : (schema.map Node.key).Nodup) (h : ShownMember json m e) :
    passesType schema json m = true ↔
      ∀ node ∈ schema, e.1 = node.key → node.typeCmp (rootToken m.2) json = true := by
  rw [passesType,rowOf_shown h]
  constructor
  · intro hall node hmem hkey
    have hrow := (rowFor_eq_some hkeys).mpr ⟨hmem,hkey.symm⟩
    simpa [hrow] using hall
  · intro hall
    cases hrow : rowFor schema e.1 with
    | none => simp
    | some node =>
      obtain ⟨hmem,hkey⟩ := (rowFor_eq_some hkeys).mp hrow
      simpa using hall node hmem hkey.symm

/-- The index that a field is filled in with is the one of the value with its key. -/
theorem fieldValue_shown {ms : List (Label × Rose Label)} {es : List (List UInt8 × Value)}
    (h : List.Forall₂ (ShownMember json) ms es) {f : φ} {key : List UInt8}
    (hkey : ∀ k, fieldFor schema k = some f ↔ k = key) (i : ℕ) :
    fieldValue schema json f i ms = valueIndex key i es := by
  induction h generalizing i with
  | nil => rfl
  | cons hme _ ih =>
    simp only [fieldValue,valueIndex,fieldOf_shown hme,hkey,keyNode_count_shown hme,ih,Nat.add_assoc]

variable {toks : List Token} {base pos : ℕ} {ts : List (Rose Label)} {space rest : List UInt8}
  {members : Members}

/-- The trees of the members of an object that begins at a position. -/
def memberTrees (pos : ℕ) (space : List UInt8) (members : Members) : List (Label × Rose Label) :=
  members.pairs true (pos + 1 + space.length)

theorem object_node (pos : ℕ) (space : List UInt8) (members : Members) :
    (Value.object space members).node pos =
      .node ⟨.object,pos,pos + (Value.object space members).text.length⟩
        ((memberTrees pos space members).map keyNode) := by
  rw [Value.node,Members.nodes_eq,memberTrees]

theorem object_ntokens (pos : ℕ) (space : List UInt8) (members : Members) :
    (Value.object space members).ntokens = 1 + counts ((memberTrees pos space members).map keyNode) := by
  rw [← Value.count_node pos,object_node,OrderedTree.count_node,Nat.add_comm]

theorem object_shown (hv : (Value.object space members).Valid)
    (hjson : json.drop pos = (Value.object space members).text ++ rest) :
    List.Forall₂ (ShownMember json) (memberTrees pos space members) members.entries := by
  rw [Value.Valid] at hv
  refine shown_members (r := rest) hv.2 ?_
  have hsplit : json.drop pos = (123 :: space) ++ (members.text true ++ 125 :: rest) := by
    simpa [Value.text] using hjson
  have hdrop := drop_of_drop hsplit
  rwa [List.length_cons,Nat.add_comm space.length,← Nat.add_assoc] at hdrop

theorem memberTrees_string (hv : (Value.object space members).Valid)
    (hjson : json.drop pos = (Value.object space members).text ++ rest) :
    ∀ m ∈ memberTrees pos space members, m.1.type = .string := by
  have h := object_shown hv hjson
  refine (forall_mem_iff_of_forall₂ (q := fun _ => True) h (fun m e hme => ?_)).mpr (fun _ _ => trivial)
  exact iff_of_true hme.type trivial

theorem memberTrees_shaped (hv : (Value.object space members).Valid)
    (hjson : json.drop pos = (Value.object space members).text ++ rest) :
    ∀ m ∈ memberTrees pos space members, Shaped m.2 := by
  have h := object_shown hv hjson
  refine (forall_mem_iff_of_forall₂ (q := fun _ => True) h (fun m e hme => ?_)).mpr (fun _ _ => trivial)
  exact iff_of_true hme.value.shaped trivial

/-- What an object gives if it is all there is. -/
theorem extractFromDict_alone (hv : (Value.object space members).Valid)
    (hjson : json.drop pos = (Value.object space members).text ++ rest)
    (h : LiesAt toks base ((Value.object space members).node pos :: ts)) (out : Output φ) :
    extractFromDict schema toks json out base (Value.object space members).ntokens =
      .ok ((walkPairs schema json (base + 1) (memberTrees pos space members) out).1 &&
        complete schema (walkPairs schema json (base + 1) (memberTrees pos space members) out).2,
        (walkPairs schema json (base + 1) (memberTrees pos space members) out).2) := by
  have hn := object_ntokens pos space members
  rw [object_node] at h
  rw [extractFromDict_object h rfl (memberTrees_string hv hjson) (memberTrees_shaped hv hjson) (by omega),hn,
    dictWalk_end (by omega)]
  cases (walkPairs schema json (base + 1) (memberTrees pos space members) out).1 <;> simp [Except.map]

omit [DecidableEq φ] in
/-- The members of an object are admissible by their keys and values. -/
theorem admissible_shown {ms : List (Label × Rose Label)} {es : List (List UInt8 × Value)}
    (h : List.Forall₂ (ShownMember json) ms es) {taken : List UInt8 × Value → Prop}
    (htaken : ∀ m e, ShownMember json m e → (passesType schema json m = true ↔ taken e)) :
    Admissible schema json ms ↔ (∀ e ∈ es, taken e) ∧
      es.Pairwise (fun e e' => ∀ f, fieldFor schema e.1 = some f → fieldFor schema e'.1 ≠ some f) := by
  have hpair : ms.Pairwise (Distinct schema json) ↔ _ :=
    pairwise_iff_of_forall₂ h (fun _ _ _ _ hme hme' => distinct_shown hme hme')
  rw [← forall_mem_iff_of_forall₂ h htaken,← hpair]
  exact ⟨fun ⟨h1,h2⟩ => ⟨h1,h2⟩,fun ⟨h1,h2⟩ => ⟨h1,h2⟩⟩

end Entries
end Jsonrpc
end Lightsd.Core
