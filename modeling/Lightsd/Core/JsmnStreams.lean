import Lightsd.Core.JsmnValues

/-! # Reading sequences of values

The last cases of the induction over the text of a value, and sequences of values: the
tokenizer accepts the text of a sequence of containers, and its tokens are the preorder
of the trees of the values.
-/
namespace Lightsd.Core.Jsmn

open OrderedTree Scan Json

variable {cap pos : ℕ} {p p' : Parser} {rest : List UInt8}

theorem readsMembers_cons {before key beforeColon afterColon after : List UInt8} {v : Value}
    {members : Members} (hb : Space before) (hkey : stringChars .plain key = true)
    (hbc : Space beforeColon) (hac : Space afterColon) (ha : Space after) (hv : ReadsValue v)
    (hr : ReadsMembers members) :
    ReadsMembers (.cons before key beforeColon afterColon v after members) := by
  intro first cap pos p i rest hq htype hfirst hnext hcap hrest
  rw [Members.nodes,counts_cons,count_node,counts_cons,counts_nil] at hcap
  rw [Members.text,Members.nodes]
  simp only [List.append_assoc,List.cons_append]
  set q : Parser := { p with toksuper := some i } with hqdef
  have hqlen : q.tokens.length = p.tokens.length := rfl
  set keyPos := pos + (separator first).length + before.length with hkeyPos
  set valuePos := keyPos + (quoted key).length + beforeColon.length + 1 + afterColon.length with hvaluePos
  obtain ⟨p₁,hrun₁,hgrown₁,hs₁⟩ := hv cap valuePos
    (q.entered ⟨.string,keyPos + 1,(keyPos + 1 + key.length : ℕ),0⟩)
    (after ++ (members.text false ++ rest)) (linked_entered hq _) (rejectsPrimitive_key _ _ _)
    (by rw [entered_length]; omega) (Or.inr (ends_append ha (ends_members members hrest)))
  have hbelow := hgrown₁.below
  have hmember : Grown q [.node ⟨.string,keyPos + 1,keyPos + 1 + key.length⟩ [v.node valuePos]]
      { p₁ with toksuper := some i } :=
    Grown.withSuper (Below.grown (a := ⟨.string,keyPos + 1,keyPos + 1 + key.length⟩) hbelow) _
  have hlen₁ := hmember.length
  rw [counts_cons,count_node,counts_cons,counts_nil] at hlen₁
  have hs₁' : p₁.toksuper = some q.tokens.length := hs₁
  have hkeyType : p₁.superType = some .string := by
    rw [Parser.superType,hs₁',Option.bind_some,hbelow.token_at]
    rfl
  have hkeyParent : p₁.toksuper.bind (fun k => p₁.parents.getD k none) = some i := by
    rw [hs₁',Option.bind_some,List.getD_eq_getElem?_getD,hbelow.parent_at hq]
    rfl
  obtain ⟨p₂,hrun₂,hgrown₂⟩ := hr false cap (valuePos + v.text.length + after.length) p₁ i rest
    (hmember.linked hq rfl) ((hmember.superType hq rfl).trans htype) (fun h => by cases h)
    (fun _ => ⟨hkeyType,hkeyParent⟩) (by simp only at hlen₁; omega) hrest
  refine ⟨p₂,?_,hmember.trans hq rfl hgrown₂⟩
  have hroom : q.tokens.length < cap := by omega
  rw [run_separator_members hfirst hnext,run_append _ before,run_space hb,run_key hkey hbc hac hroom,hrun₁,
    run_append _ after,run_space ha,hrun₂]
  simp only [List.length_append,List.length_cons,hvaluePos,hkeyPos]
  congr 2
  omega

theorem readsValue_string {chars : List UInt8} (h : stringChars .plain chars = true) :
    ReadsValue (.string chars) := by
  intro cap pos p rest _ _ hcap _
  rw [Value.node,count_leaf] at hcap
  rw [Value.node,Value.text]
  refine ⟨_,?_,grown_leaf p _,rfl⟩
  rw [run_quoted h,complete_eq hcap]
  rfl

theorem readsValue_primitive {chars : List UInt8} (h : primitiveChars chars = true) :
    ReadsValue (.primitive chars) := by
  intro cap pos p rest _ hrej hcap hrest
  rw [Value.node,count_leaf] at hcap
  rw [Value.node,Value.text]
  refine ⟨_,?_,grown_leaf p _,rfl⟩
  rw [run_primitive h _ _ hrej (hrest.resolve_left id),complete_eq hcap]
  rfl

theorem readsValue_array {space : List UInt8} {items : Items} (hspace : Space space)
    (h : ReadsItems items) : ReadsValue (.array space items) := by
  intro cap pos p rest hp _ hcap _
  rw [Value.node,count_node] at hcap
  have htype : (p.entered ⟨.array,pos,-1,0⟩).superType = some .array := by
    rw [Parser.superType,entered_super]
    rfl
  obtain ⟨p₁,hrun₁,hgrown₁,-⟩ := h true cap (pos + 1 + space.length) (p.entered ⟨.array,pos,-1,0⟩)
    (93 :: rest) (linked_entered hp _) htype (by rw [entered_length]; omega) ⟨93,rest,rfl,by decide⟩
  obtain ⟨p₂,hrun₂,hgrown₂,hs₂⟩ := run_closing (by decide : charKind 93 = .closing .array) hp
    hgrown₁.below cap (pos + 1 + space.length + (items.text true).length) rest
  have hlen : pos + (Value.array space items).text.length =
      pos + 1 + space.length + (items.text true).length + 1 := by
    simp only [Value.text,List.length_cons,List.length_append,List.length_nil]
    omega
  rw [Value.node,hlen]
  have hroom : p.tokens.length < cap := by omega
  refine ⟨p₂,?_,hgrown₂,hs₂⟩
  rw [Value.text,List.cons_append,run_opening (by decide : charKind 91 = .opening .array) hroom]
  simp only [List.append_assoc]
  rw [run_append _ space,run_space hspace,List.singleton_append,hrun₁,hrun₂]

theorem readsValue_object {space : List UInt8} {members : Members} (hspace : Space space)
    (h : ReadsMembers members) : ReadsValue (.object space members) := by
  intro cap pos p rest hp _ hcap _
  rw [Value.node,count_node] at hcap
  have htype : (p.entered ⟨.object,pos,-1,0⟩).superType = some .object := by
    rw [Parser.superType,entered_super]
    rfl
  obtain ⟨p₁,hrun₁,hgrown₁⟩ := h true cap (pos + 1 + space.length) (p.entered ⟨.object,pos,-1,0⟩)
    p.tokens.length (125 :: rest) (linked_entered hp _) htype (fun _ => rfl) (fun h => by cases h)
    (by rw [entered_length]; omega) ⟨125,rest,rfl,by decide⟩
  have hgrown₁' : Grown (p.entered ⟨.object,pos,-1,0⟩) _ p₁ := hgrown₁
  obtain ⟨p₂,hrun₂,hgrown₂,hs₂⟩ := run_closing (by decide : charKind 125 = .closing .object) hp
    hgrown₁'.below cap (pos + 1 + space.length + (members.text true).length) rest
  have hlen : pos + (Value.object space members).text.length =
      pos + 1 + space.length + (members.text true).length + 1 := by
    simp only [Value.text,List.length_cons,List.length_append,List.length_nil]
    omega
  rw [Value.node,hlen]
  have hroom : p.tokens.length < cap := by omega
  refine ⟨p₂,?_,hgrown₂,hs₂⟩
  rw [Value.text,List.cons_append,run_opening (by decide : charKind 123 = .opening .object) hroom]
  simp only [List.append_assoc]
  rw [run_append _ space,run_space hspace,List.singleton_append,hrun₁,hrun₂]

mutual
theorem readsValue_of_valid : ∀ {v : Value}, v.Valid → ReadsValue v
  | .string _, h => readsValue_string (by rwa [Value.Valid] at h)
  | .primitive _, h => readsValue_primitive (by rwa [Value.Valid] at h)
  | .array _ _, h => by
    rw [Value.Valid] at h
    exact readsValue_array h.1 (readsItems_of_valid h.2)
  | .object _ _, h => by
    rw [Value.Valid] at h
    exact readsValue_object h.1 (readsMembers_of_valid h.2)

theorem readsItems_of_valid : ∀ {items : Items}, items.Valid → ReadsItems items
  | .nil, _ => readsItems_nil
  | .cons _ _ _ _, h => by
    rw [Items.Valid] at h
    obtain ⟨hb,hv,ha,hr⟩ := h
    exact readsItems_cons hb ha (readsValue_of_valid hv) (readsItems_of_valid hr)

theorem readsMembers_of_valid : ∀ {members : Members}, members.Valid → ReadsMembers members
  | .nil, _ => readsMembers_nil
  | .cons _ _ _ _ _ _ _, h => by
    rw [Members.Valid] at h
    obtain ⟨hb,hk,hbc,hac,hv,ha,hr⟩ := h
    exact readsMembers_cons hb hk hbc hac ha (readsValue_of_valid hv) (readsMembers_of_valid hr)
end

theorem rejectsPrimitive_top (h : p.toksuper = none) : p.rejectsPrimitive = false := by
  rw [Parser.rejectsPrimitive,h]
  rfl

/-- At the top level, a sequence of containers is read to the trees of its values. -/
theorem run_stream {segs : Stream} (hsegs : segs.Containers) (pos : ℕ) (hp : Linked p)
    (hs : p.toksuper = none) (hcap : p.tokens.length + counts (segs.nodes pos) ≤ cap) :
    ∃ p', run (some cap) (.reading .normal pos p) segs.text = .reading .normal (pos + segs.text.length) p' ∧
      Grown p (segs.nodes pos) p' ∧ p'.toksuper = none := by
  induction segs generalizing pos p with
  | nil => exact ⟨p,rfl,Grown.refl p,hs⟩
  | cons seg segs ih =>
    obtain ⟨space,v⟩ := seg
    obtain ⟨hspace,hvalid,hcontainer⟩ := hsegs _ List.mem_cons_self
    simp only at hspace hvalid hcontainer
    rw [Stream.nodes,counts_cons] at hcap
    obtain ⟨p₁,hrun₁,hgrown₁,hs₁⟩ := readsValue_of_valid hvalid cap (pos + space.length) p (Stream.text segs) hp
      (rejectsPrimitive_top hs) (by omega) (Or.inl hcontainer)
    have hlen₁ := hgrown₁.length
    rw [counts_cons,counts_nil] at hlen₁
    obtain ⟨p₂,hrun₂,hgrown₂,hs₂⟩ := ih (fun s hmem => hsegs s (List.mem_cons_of_mem _ hmem))
      (pos + space.length + v.text.length) (hgrown₁.linked hp hs₁) (hs₁.trans hs) (by omega)
    refine ⟨p₂,?_,hgrown₁.trans hp hs₁ hgrown₂,hs₂⟩
    rw [Stream.text_cons,run_append,run_append,run_space hspace,← run_append,hrun₁,hrun₂]
    simp only [List.length_append,Nat.add_assoc]

theorem linked_empty : Linked {} := ⟨rfl,nofun⟩

theorem finish_eq {ts : List (Rose Label)} (h : p.tokens = tokensOf ts) : finish p = .ok p := by
  refine if_neg (fun hany => ?_)
  rw [List.any_eq_true] at hany
  obtain ⟨t,ht,hopen⟩ := hany
  rw [h] at ht
  exact stop_of_mem_tokensOf ht (of_decide_eq_true hopen)

/-- With room for its tokens, the text of a sequence of containers is tokenized to the
preorder of the trees of its values. -/
theorem parse_stream {segs : Stream} (hsegs : segs.Containers) {space : List UInt8} (hspace : Space space)
    (hcap : counts (segs.nodes 0) ≤ cap) :
    ∃ p, run (some cap) Scan.start (segs.text ++ space) =
        .reading .normal (segs.text.length + space.length) p ∧
      p.tokens = tokensOf (segs.nodes 0) ∧ p.count = counts (segs.nodes 0) ∧
      parse (segs.text ++ space) (some cap) = .ok p := by
  obtain ⟨p,hrun,hgrown,-⟩ := run_stream (p := {}) hsegs 0 linked_empty rfl
    ((Nat.zero_add _).trans_le hcap)
  have htokens : p.tokens = tokensOf (segs.nodes 0) := hgrown.tokens
  have hrun' : run (some cap) Scan.start (segs.text ++ space) =
      .reading .normal (segs.text.length + space.length) p := by
    rw [run_append,Scan.start,hrun,run_space hspace,Nat.zero_add]
  refine ⟨p,hrun',htokens,hgrown.count.trans (Nat.zero_add _),?_⟩
  rw [parse_eq,hrun']
  exact finish_eq htokens

end Lightsd.Core.Jsmn
