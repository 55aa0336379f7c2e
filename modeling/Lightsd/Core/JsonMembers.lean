import Lightsd.Core.TokenTrees

/-! # Members and elements of JSON texts

The trees of the members of an object and of the elements of an array, beside the keys and
values they were written from. Each value is found in the buffer at the position that its
tree names, followed by white space and a delimiter.
-/
namespace Lightsd.Core.Json

open OrderedTree Jsmn Jsonrpc

mutual
theorem Value.shaped (pos : ℕ) : ∀ v : Value, Shaped (v.node pos)
  | .string chars => by
    rw [Value.node]
    exact .leaf _ (Or.inl rfl)
  | .primitive chars => by
    rw [Value.node]
    exact .leaf _ (Or.inr rfl)
  | .array space items => by
    rw [Value.node]
    exact .array _ _ rfl (Items.shaped true _ items)
  | .object space members => by
    obtain ⟨ms,hms,hkeys,hvalues⟩ := Members.shaped true (pos + 1 + space.length) members
    rw [Value.node,hms]
    exact .object _ ms rfl hkeys hvalues

theorem Items.shaped (first : Bool) (pos : ℕ) : ∀ items : Items, ∀ c ∈ items.nodes first pos, Shaped c
  | .nil => by simp [Items.nodes]
  | .cons before value after rest => by
    rw [Items.nodes]
    exact List.forall_mem_cons.mpr ⟨Value.shaped _ value,Items.shaped false _ rest⟩

theorem Members.shaped (first : Bool) (pos : ℕ) : ∀ members : Members,
    ∃ ms : List (Label × Rose Label), members.nodes first pos = ms.map keyNode ∧
      (∀ m ∈ ms, m.1.type = .string) ∧ ∀ m ∈ ms, Shaped m.2
  | .nil => ⟨[],by simp [Members.nodes],nofun,nofun⟩
  | .cons before key beforeColon afterColon value after rest => by
    rw [Members.nodes]
    obtain ⟨ms,hms,hkeys,hvalues⟩ := Members.shaped false _ rest
    rw [hms]
    refine ⟨(⟨.string,_,_⟩,value.node _) :: ms,rfl,?_,?_⟩
    · exact List.forall_mem_cons.mpr ⟨rfl,hkeys⟩
    · exact List.forall_mem_cons.mpr ⟨Value.shaped _ value,hvalues⟩
end

def Items.values : Items → List Value
  | .nil => []
  | .cons _ value _ rest => value :: rest.values

/-- The keys, as they are written, and the values. -/
def Members.entries : Members → List (List UInt8 × Value)
  | .nil => []
  | .cons _ key _ _ value _ rest => (key,value) :: rest.entries

def Members.pairs (first : Bool) (pos : ℕ) : Members → List (Label × Rose Label)
  | .nil => []
  | .cons before key beforeColon afterColon value after rest =>
    let keyPos := pos + (separator first).length + before.length
    let valuePos := keyPos + (quoted key).length + beforeColon.length + 1 + afterColon.length
    (⟨.string,keyPos + 1,keyPos + 1 + key.length⟩,value.node valuePos) ::
      rest.pairs false (valuePos + value.text.length + after.length)

theorem Members.nodes_eq (first : Bool) (pos : ℕ) (members : Members) :
    members.nodes first pos = (members.pairs first pos).map keyNode := by
  fun_induction Members.pairs first pos members with
  | case1 => simp [Members.nodes]
  | case2 first pos before key beforeColon afterColon value after rest keyPos valuePos ih =>
    rw [Members.nodes,List.map_cons,ih]
    rfl

/-- White space and then a comma or a closing bracket. -/
def Delimited (rest : List UInt8) : Prop :=
  ∃ space c cs, rest = space ++ c :: cs ∧ Space space ∧ (c = 44 ∨ c = 93 ∨ c = 125)

/-- The tree of a value that is written in the buffer. -/
def Shown (json : List UInt8) (t : Rose Label) (v : Value) : Prop :=
  ∃ pos rest, t = v.node pos ∧ v.Valid ∧ json.drop pos = v.text ++ rest ∧ Delimited rest

/-- The member of an object, its key being a token of the buffer. -/
structure ShownMember (json : List UInt8) (m : Label × Rose Label) (e : List UInt8 × Value) : Prop where
  type : m.1.type = .string
  key : tokenText json (Label.token (m.1,1)) = e.1
  value : Shown json m.2 e.2

theorem drop_of_drop {json as bs : List UInt8} {pos : ℕ} (h : json.drop pos = as ++ bs) :
    json.drop (pos + as.length) = bs := by
  rw [← List.drop_drop,h,List.drop_left]

theorem delimited_items {rest : Items} {after r : List UInt8} (hafter : Space after) :
    Delimited (after ++ (rest.text false ++ 93 :: r)) := by
  cases rest with
  | nil =>
    rw [Items.text]
    exact ⟨after,93,r,rfl,hafter,by simp⟩
  | cons before value after' rest =>
    rw [Items.text]
    exact ⟨after,44,_,congrArg (after ++ ·) rfl,hafter,by simp⟩

theorem delimited_members {rest : Members} {after r : List UInt8} (hafter : Space after) :
    Delimited (after ++ (rest.text false ++ 125 :: r)) := by
  cases rest with
  | nil =>
    rw [Members.text]
    exact ⟨after,125,r,rfl,hafter,by simp⟩
  | cons before key beforeColon afterColon value after' rest =>
    rw [Members.text]
    exact ⟨after,44,_,congrArg (after ++ ·) rfl,hafter,by simp⟩

/-- The elements of an array are found where their trees say. -/
theorem shown_items {json r : List UInt8} : ∀ {items : Items}, items.Valid → ∀ {first : Bool} {pos : ℕ},
    json.drop pos = items.text first ++ 93 :: r →
    List.Forall₂ (Shown json) (items.nodes first pos) items.values
  | .nil, _, _, _, _ => by
    rw [Items.nodes]
    exact .nil
  | .cons before value after rest, hvalid, first, pos, h => by
    rw [Items.Valid] at hvalid
    obtain ⟨-,hv,hafter,hrest⟩ := hvalid
    rw [Items.text] at h
    rw [Items.nodes]
    generalize hpos : pos + (separator first).length + before.length = valuePos
    have hvalue : json.drop valuePos = value.text ++ (after ++ (rest.text false ++ 93 :: r)) := by
      have hsplit : json.drop pos = (separator first ++ before) ++
          (value.text ++ (after ++ (rest.text false ++ 93 :: r))) := by simpa using h
      have hdrop := drop_of_drop hsplit
      rwa [List.length_append,← Nat.add_assoc,hpos] at hdrop
    have hnext : json.drop (valuePos + value.text.length + after.length) = rest.text false ++ 93 :: r := by
      have hsplit : json.drop valuePos = (value.text ++ after) ++ (rest.text false ++ 93 :: r) := by
        simpa using hvalue
      have hdrop := drop_of_drop hsplit
      rwa [List.length_append,← Nat.add_assoc] at hdrop
    exact .cons ⟨valuePos,_,rfl,hv,hvalue,delimited_items hafter⟩ (shown_items hrest hnext)

/-- The members of an object are found where their trees say. -/
theorem shown_members {json r : List UInt8} : ∀ {members : Members}, members.Valid →
    ∀ {first : Bool} {pos : ℕ}, json.drop pos = members.text first ++ 125 :: r →
    List.Forall₂ (ShownMember json) (members.pairs first pos) members.entries
  | .nil, _, _, _, _ => .nil
  | .cons before key beforeColon afterColon value after rest, hvalid, first, pos, h => by
    rw [Members.Valid] at hvalid
    obtain ⟨-,-,-,-,hv,hafter,hrest⟩ := hvalid
    rw [Members.text] at h
    rw [Members.pairs]
    generalize hpos : pos + (separator first).length + before.length = keyPos
    have hkey : json.drop (keyPos + 1) = key ++ (34 :: (beforeColon ++ (58 :: (afterColon ++
        (value.text ++ (after ++ (rest.text false ++ 125 :: r))))))) := by
      have hsplit : json.drop pos = (separator first ++ before ++ [34]) ++ (key ++ (34 :: (beforeColon ++
          (58 :: (afterColon ++ (value.text ++ (after ++ (rest.text false ++ 125 :: r)))))))) := by
        simpa [quoted] using h
      have hdrop := drop_of_drop hsplit
      rwa [List.length_append,List.length_append,← Nat.add_assoc,← Nat.add_assoc,hpos] at hdrop
    generalize hvpos : keyPos + (quoted key).length + beforeColon.length + 1 + afterColon.length = valuePos
    have hvalue : json.drop valuePos = value.text ++ (after ++ (rest.text false ++ 125 :: r)) := by
      have hsplit : json.drop (keyPos + 1) = (key ++ 34 :: (beforeColon ++ 58 :: afterColon)) ++
          (value.text ++ (after ++ (rest.text false ++ 125 :: r))) := by simpa using hkey
      have hdrop := drop_of_drop hsplit
      have hlen : keyPos + 1 + (key ++ 34 :: (beforeColon ++ 58 :: afterColon)).length = valuePos := by
        simp only [← hvpos,quoted,List.length_append,List.length_cons,List.length_nil]
        omega
      rwa [hlen] at hdrop
    have hnext : json.drop (valuePos + value.text.length + after.length) = rest.text false ++ 125 :: r := by
      have hsplit : json.drop valuePos = (value.text ++ after) ++ (rest.text false ++ 125 :: r) := by
        simpa using hvalue
      have hdrop := drop_of_drop hsplit
      rwa [List.length_append,← Nat.add_assoc] at hdrop
    refine .cons ⟨rfl,?_,valuePos,_,rfl,hv,hvalue,delimited_members hafter⟩ (shown_members hrest hnext)
    have hlen : tokenLen (Label.token ((⟨.string,keyPos + 1,keyPos + 1 + key.length⟩ : Label),1)) =
        key.length := by
      simp only [tokenLen,Label.token]
      omega
    rw [tokenText,hlen]
    simp only [Label.token,hkey,List.take_left]

end Lightsd.Core.Json
