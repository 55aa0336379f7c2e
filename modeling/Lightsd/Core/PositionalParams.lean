import Lightsd.Core.ExtractedFields
import Lightsd.Core.ParamTypes

/-! # Parameters by position and by name

The walk over an array of parameters beside the walk over the object that has the same
values under the keys of the table. As long as the values are of the types that the table
asks for, both fill in the same fields. The walk over an array ends without asking for the
parameters that are missing.
-/
namespace Lightsd.Core.Jsonrpc

open OrderedTree Json

section Walks
variable {φ : Type} {schema : List (Node φ)} {toks toks' : List Token} {json json' : List UInt8}

/-- The token at an index is that of a value. -/
def PointsAt (toks : List Token) (json : List UInt8) (i : ℕ) (v : Value) : Prop :=
  ∃ t, LiesAt toks i [t] ∧ Shown json t v

/-- Two records point at the same values, which are those of the given rows. -/
structure SameFields (toks : List Token) (json : List UInt8) (toks' : List Token) (json' : List UInt8)
    (ps : List (Node φ × Value)) (out out' : Output φ) : Prop where
  count : ∀ f, out.ntokens f = out'.ntokens f
  set : ∀ p ∈ ps, ∀ f, p.1.valueOffset = some f → ∃ i j, out.value f = some i ∧ out'.value f = some j ∧
    PointsAt toks json i p.2 ∧ PointsAt toks' json' j p.2
  unset : ∀ f, (∀ p ∈ ps, p.1.valueOffset ≠ some f) → out.value f = none ∧ out'.value f = none

variable [DecidableEq φ] {ps : List (Node φ × Value)} {out out' : Output φ}

/-- One row more. -/
theorem SameFields.fill {x : Node φ} {v : Value} {t t' : Rose Label} {i j : ℕ}
    (h : SameFields toks json toks' json' ps out out')
    (hnew : ∀ p ∈ ps, ∀ f, p.1.valueOffset = some f → x.valueOffset ≠ some f) (hi : PointsAt toks json i v)
    (hj : PointsAt toks' json' j v) (hcount : t.count = t'.count) :
    SameFields toks json toks' json' (ps ++ [(x,v)]) (out.fill x i t) (out'.fill x j t') := by
  refine ⟨?_,?_,?_⟩
  · intro f
    rw [Output.fill_ntokens,Output.fill_ntokens,hcount,h.count f]
  · intro p hp f hf
    rw [Output.fill_value,Output.fill_value]
    rcases List.mem_append.mp hp with hp | hp
    · rw [if_neg (hnew p hp f hf),if_neg (hnew p hp f hf)]
      exact h.set p hp f hf
    · obtain rfl := List.mem_singleton.mp hp
      rw [if_pos hf,if_pos hf]
      exact ⟨i,j,rfl,rfl,hi,hj⟩
  · intro f hf
    have hx : x.valueOffset ≠ some f := hf (x,v) (by simp)
    rw [Output.fill_value,Output.fill_value,if_neg hx,if_neg hx]
    exact h.unset f (fun p hp => hf p (List.mem_append_left _ hp))

omit [DecidableEq φ] in
/-- The row of a later key fills in another field. -/
theorem Tidy.new_field (h : Tidy schema) {before after : List (Node φ)} {x y : Node φ}
    (hschema : schema = before ++ x :: after) (hy : y ∈ before) {f : φ} (hf : y.valueOffset = some f) :
    x.valueOffset ≠ some f := by
  intro hxf
  have hkey := h.values y (by rw [hschema]; simp [hy]) x (by rw [hschema]; simp) f hf hxf
  have hkeys := h.keys
  rw [hschema,List.map_append,List.map_cons] at hkeys
  exact (List.disjoint_of_nodup_append hkeys) (List.mem_map_of_mem hy) (by simp [hkey])

/-- If the values pass their checks, the walk over an array and the walk over the object
fill in the same fields, from any rows on. -/
theorem walks_agree (htidy : Tidy schema) (huniform : ∀ x ∈ schema, Uniform x.typeCmp) {nodes : List (Node φ)}
    {vs : List Value} {cs : List (Rose Label)} {ms : List (Label × Rose Label)} {i i' : ℕ}
    (hschema : schema = ps.map Prod.fst ++ nodes) (hcs : List.Forall₂ (Shown json) cs vs)
    (hms : List.Forall₂ (ShownMember json') ms ((nodes.map Node.key).zip vs)) (hlies : LiesAt toks i cs)
    (hlies' : LiesAt toks' i' (ms.map keyNode)) (hlen : vs.length ≤ nodes.length)
    (hpass : ∀ p ∈ nodes.zip vs, verdict p.1.typeCmp p.2 = true)
    (hsame : SameFields toks json toks' json' ps out out') :
    SameFields toks json toks' json' (ps ++ nodes.zip vs) (walkItems json nodes i cs out).2
      (walkPairs schema json' i' ms out').2 := by
  induction nodes generalizing ps vs cs ms i i' out out' with
  | nil =>
    obtain rfl := List.length_eq_zero_iff.mp (Nat.le_zero.mp hlen)
    cases hcs
    cases hms
    simpa [walkItems,walkPairs] using hsame
  | cons x nodes ih =>
    cases vs with
    | nil =>
      cases hcs
      cases hms
      simpa [walkItems,walkPairs] using hsame
    | cons v vs =>
      rw [List.map_cons,List.zip_cons_cons] at hms
      cases hcs with
      | cons hc hcs =>
      cases hms with
      | cons hm hms =>
      rename_i c cs m ms
      have hx : x ∈ schema := by simp [hschema]
      have hrow : findNode schema json' (Label.token (m.1,1)) = some x := by
        have hfound : rowFor schema x.key = some x := (rowFor_eq_some htidy.keys).mpr ⟨hx,rfl⟩
        rw [← rowOf_shown hm] at hfound
        exact hfound
      have hok : verdict x.typeCmp v = true := hpass (x,v) (by simp)
      have htype : x.typeCmp (rootToken c) json = true := (huniform x hx json c v hc).trans hok
      have htype' : x.typeCmp (rootToken m.2) json' = true := (huniform x hx json' m.2 v hm.value).trans hok
      have hnew : ∀ p ∈ ps, ∀ f, p.1.valueOffset = some f → x.valueOffset ≠ some f :=
        fun p hp f hf => htidy.new_field hschema (List.mem_map_of_mem hp) hf
      have hunseen : out'.seen x.valueOffset = false := by
        rw [Output.seen_eq_false]
        exact fun f hf => (hsame.unset f (fun p hp hpf => hnew p hp f hpf hf)).2
      have hsplit : LiesAt toks i ([c] ++ cs) := hlies
      have hsplit' : LiesAt toks' (i' + 1) ([m.2] ++ ms.map keyNode) := LiesAt.value hlies'
      have hpoints : PointsAt toks json i v := ⟨c,hsplit.left,hc⟩
      have hpoints' : PointsAt toks' json' (i' + 1) v := ⟨m.2,hsplit'.left,hm.value⟩
      have hnext := ih (by simp [hschema]) hcs hms hlies.tail hlies'.tail (by simpa using hlen)
        (fun p hp => hpass p (List.mem_cons_of_mem _ hp))
        (hsame.fill hnew hpoints hpoints' (hc.count.trans hm.value.count.symm))
      simpa [walkItems,walkPairs,htype,htype',hrow,hunseen] using hnext

/-- An array is accepted if it has no more values than there are rows, and these pass. -/
theorem items_accepted {nodes : List (Node φ)} {vs : List Value} {cs : List (Rose Label)} {i : ℕ}
    (hcs : List.Forall₂ (Shown json) cs vs) (huniform : ∀ x ∈ nodes, Uniform x.typeCmp) :
    (walkItems json nodes i cs out).1 = true ↔
      vs.length ≤ nodes.length ∧ ∀ p ∈ nodes.zip vs, verdict p.1.typeCmp p.2 = true := by
  induction nodes generalizing vs cs i out with
  | nil => cases hcs <;> simp [walkItems]
  | cons x nodes ih =>
    cases hcs with
    | nil => simp [walkItems]
    | cons hc hcs =>
      rename_i c v cs vs
      have htype := huniform x List.mem_cons_self json c v hc
      have hrest := fun out => @ih out vs cs (i + c.count) hcs (fun y hy => huniform y (List.mem_cons_of_mem _ hy))
      cases hv : verdict x.typeCmp v with
      | false => simp [walkItems,htype,hv]
      | true => simp [walkItems,htype,hv,hrest]

omit [DecidableEq φ] in
theorem map_fst_zip_take {α β : Type} (as : List α) (bs : List β) : (as.zip bs).map Prod.fst = as.take bs.length := by
  induction as generalizing bs with
  | nil => simp
  | cons a as ih => cases bs <;> simp [ih]

omit [DecidableEq φ] in
/-- The object with the same values is accepted if they pass and the other parameters are
optional. -/
theorem members_acceptable (htidy : Tidy schema) (hsome : ∀ x ∈ schema, x.valueOffset.isSome = true)
    (huniform : ∀ x ∈ schema, Uniform x.typeCmp) {vs : List Value} {ms : List (Label × Rose Label)}
    (hms : List.Forall₂ (ShownMember json') ms ((schema.map Node.key).zip vs)) :
    Acceptable schema json' ms ↔ (∀ p ∈ schema.zip vs, verdict p.1.typeCmp p.2 = true) ∧
      ∀ x ∈ schema.drop vs.length, x.optional = true := by
  have hkeys : ms.map (keyText json') = (schema.map Node.key).take vs.length := by
    rw [← map_fst_zip_take]
    generalize (schema.map Node.key).zip vs = es at hms
    induction hms with
    | nil => rfl
    | cons hm _ ih => exact congrArg₂ List.cons hm.key ih
  have htypes : (∀ m ∈ ms, ∀ x ∈ schema, x.key = keyText json' m → x.typeCmp (rootToken m.2) json' = true) ↔
      ∀ p ∈ schema.zip vs, verdict p.1.typeCmp p.2 = true := by
    rw [forall_mem_iff_of_forall₂ hms (q := fun e => ∀ x ∈ schema, x.key = e.1 → verdict x.typeCmp e.2 = true)]
    · rw [List.zip_map_left,List.forall_mem_map]
      refine forall₂_congr (fun p hp => ⟨fun hall => hall p.1 (List.of_mem_zip hp).1 rfl,fun hpass x hx hkey => ?_⟩)
      rw [htidy.row_unique hx (List.of_mem_zip hp).1 hkey]
      exact hpass
    · intro m e hm
      refine forall₂_congr (fun x hx => ?_)
      rw [keyText,hm.key,huniform x hx json' m.2 e.2 hm.value]
  have honce : ∀ x ∈ schema, x.valueOffset.isSome = true → (ms.map (keyText json')).count x.key ≤ 1 := by
    intro x _ _
    rw [hkeys]
    exact List.nodup_iff_count_le_one.mp (htidy.keys.sublist (List.take_sublist _ _)) x.key
  have hrequired : (∀ x ∈ schema, x.optional = false → x.valueOffset.isSome = true →
      ∃ m ∈ ms, keyText json' m = x.key) ↔
      ∀ x ∈ schema.drop vs.length, x.optional = true := by
    have hfound : ∀ x ∈ schema, (∃ m ∈ ms, keyText json' m = x.key) ↔ x ∈ schema.take vs.length := by
      intro x hx
      rw [← List.mem_map,hkeys,← List.map_take]
      refine ⟨fun hmem => ?_,List.mem_map_of_mem⟩
      obtain ⟨y,hy,hkey⟩ := List.mem_map.mp hmem
      rwa [htidy.row_unique hx (List.mem_of_mem_take hy) hkey.symm]
    constructor
    · intro hall x hx
      cases hopt : x.optional with
      | true => rfl
      | false =>
        have hmem := List.mem_of_mem_drop hx
        have htake := (hfound x hmem).mp (hall x hmem hopt (hsome x hmem))
        have hnodup : (schema.take vs.length ++ schema.drop vs.length).Nodup := by
          rw [List.take_append_drop]
          exact htidy.keys.of_map
        exact absurd hx (List.disjoint_of_nodup_append hnodup htake)
    · intro hall x hx hopt _
      rw [hfound x hx]
      have hmem : x ∈ schema.take vs.length ++ schema.drop vs.length := by rwa [List.take_append_drop]
      rcases List.mem_append.mp hmem with htake | hdrop
      · exact htake
      · exact absurd (hall x hdrop) (by simp [hopt])
  exact ⟨fun h => ⟨htypes.mp h.types,hrequired.mp h.required⟩,fun h => ⟨htypes.mpr h.1,honce,hrequired.mpr h.2⟩⟩

end Walks
section Params
variable {φ : Type} [DecidableEq φ] {schema : List (Node φ)} {toks toks' : List Token} {json json' rest : List UInt8}
  {base base' n n' pos : ℕ} {vs : List Value} {es : Entries} {space : List UInt8}

/-- There is an array of the given values at an index, with this number of tokens. -/
def IsArrayOf (toks : List Token) (json : List UInt8) (base n : ℕ) (vs : List Value) : Prop :=
  ∃ space items pos rest, (Value.array space items).Valid ∧ items.values = vs ∧
    json.drop pos = (Value.array space items).text ++ rest ∧
    LiesAt toks base [(Value.array space items).node pos] ∧ n = (Value.array space items).ntokens

/-- There is an object with the given members at an index, with this number of tokens. -/
def IsObjectOf (toks : List Token) (json : List UInt8) (base n : ℕ) (es : Entries) : Prop :=
  ∃ space members pos rest, (Value.object space members).Valid ∧ members.entries = es ∧
    json.drop pos = (Value.object space members).text ++ rest ∧
    LiesAt toks base [(Value.object space members).node pos] ∧ n = (Value.object space members).ntokens

theorem array_shown {items : Items} (hv : (Value.array space items).Valid)
    (hjson : json.drop pos = (Value.array space items).text ++ rest) :
    List.Forall₂ (Shown json) (items.nodes true (pos + 1 + space.length)) items.values := by
  rw [Value.Valid] at hv
  refine shown_items (r := rest) hv.2 ?_
  have hsplit : json.drop pos = (91 :: space) ++ (items.text true ++ 93 :: rest) := by
    simpa [Value.text] using hjson
  have hdrop := drop_of_drop hsplit
  rwa [List.length_cons,Nat.add_comm space.length,← Nat.add_assoc] at hdrop

/-- What is made of parameters that are given by position. -/
theorem params_array (h : IsArrayOf toks json base n vs) :
    ∃ cs, List.Forall₂ (Shown json) cs vs ∧ LiesAt toks (base + 1) cs ∧
      extractAndValidateParams schema toks json (some base) n = .ok (walkItems json schema (base + 1) cs {}) := by
  obtain ⟨space,items,pos,rest,hv,rfl,hjson,hlies,rfl⟩ := h
  have hshown := array_shown hv hjson
  rw [Value.node] at hlies
  have hchildren := hlies.children
  have hroot := hlies.read
  have hcount : (Value.array space items).ntokens = counts (items.nodes true (pos + 1 + space.length)) + 1 := by
    rw [Value.ntokens,Items.counts_nodes]
  have hshaped : ∀ c ∈ items.nodes true (pos + 1 + space.length), Shaped c := Items.shaped true _ items
  have hlimit : base + (Value.array space items).ntokens =
      base + 1 + counts (items.nodes true (pos + 1 + space.length)) := by omega
  have hwalk : arrayLoop toks json _ schema _ _ {} = _ := arrayLoop_items hchildren hshaped hlimit schema {}
  refine ⟨_,hshown,hchildren.left,?_⟩
  have hpos : (Value.array space items).ntokens ≠ 0 := by omega
  simp only [extractAndValidateParams,extractFromArray,if_neg hpos,hroot,bind,Except.bind]
  exact hwalk

/-- What is made of parameters that are given by name. -/
theorem params_object (h : IsObjectOf toks json base n es) :
    ∃ ms, List.Forall₂ (ShownMember json) ms es ∧ LiesAt toks (base + 1) (ms.map keyNode) ∧
      extractAndValidateParams schema toks json (some base) n =
        .ok ((walkPairs schema json (base + 1) ms {}).1 && complete schema (walkPairs schema json (base + 1) ms {}).2,
          (walkPairs schema json (base + 1) ms {}).2) := by
  obtain ⟨space,members,pos,rest,hv,rfl,hjson,hlies,rfl⟩ := h
  have hextract : extractFromDict schema toks json {} base (Value.object space members).ntokens = _ :=
    extractFromDict_alone hv hjson hlies {}
  have hroot := hlies.read
  have hpos : (Value.object space members).ntokens ≠ 0 := by
    rw [Value.ntokens]
    omega
  rw [object_node] at hlies hroot
  refine ⟨_,object_shown hv hjson,hlies.children.left,?_⟩
  rw [← hextract]
  simp only [extractAndValidateParams,if_neg hpos,hroot,bind,Except.bind]
  rfl

end Params

section Tables
variable {schema : List (Node ParamField)} {toks toks' : List Token} {json json' : List UInt8} {base base' n n' : ℕ}
  {vs : List Value}

/-- Every required parameter has been filled in. -/
def RequiredSet (schema : List (Node ParamField)) (out : Output ParamField) : Prop :=
  ∀ x ∈ schema, x.optional = false → ∃ f, x.valueOffset = some f ∧ (out.value f).isSome = true

theorem requiredSet_of_fields {out out' : Output ParamField} (hsome : ∀ x ∈ schema, x.valueOffset.isSome = true)
    (hfields : SameFields toks json toks' json' (schema.zip vs) out out')
    (hoptional : ∀ x ∈ schema.drop vs.length, x.optional = true) : RequiredSet schema out := by
  intro x hx hopt
  obtain ⟨f,hf⟩ := Option.isSome_iff_exists.mp (hsome x hx)
  have hmem : x ∈ schema.take vs.length ++ schema.drop vs.length := by rwa [List.take_append_drop]
  rcases List.mem_append.mp hmem with htake | hdrop
  · rw [← map_fst_zip_take] at htake
    obtain ⟨p,hp,rfl⟩ := List.mem_map.mp htake
    obtain ⟨i,j,hi,-⟩ := hfields.set p hp f hf
    exact ⟨f,hf,by rw [hi]; rfl⟩
  · rw [hoptional x hdrop] at hopt
    cases hopt

/-- Parameters by position and by name agree if there are too many of them or one of them
does not pass its check, and otherwise exactly if those that are left out are optional. -/
theorem positional_named_iff (hschema : schema ∈ paramSchemas) (ha : IsArrayOf toks json base n vs)
    (ho : IsObjectOf toks' json' base' n' ((schema.map Node.key).zip vs)) :
    ∃ ok out ok' out', extractAndValidateParams schema toks json (some base) n = .ok (ok,out) ∧
      extractAndValidateParams schema toks' json' (some base') n' = .ok (ok',out') ∧
      (((ok = true ↔ vs.length ≤ schema.length ∧ ok' = true) ∧
          (ok = true → SameFields toks json toks' json' (schema.zip vs) out out' ∧ RequiredSet schema out)) ↔
        schema.length < vs.length ∨ (∃ p ∈ schema.zip vs, verdict p.1.typeCmp p.2 = false) ∨
          ∀ x ∈ schema.drop vs.length, x.optional = true) := by
  have htidy := paramSchemas_tidy hschema
  have hsome := paramSchemas_filled hschema
  have huniform := uniform_params schema hschema
  obtain ⟨cs,hcs,hlies,hextract⟩ : ∃ cs, _ ∧ _ ∧ extractAndValidateParams schema toks json (some base) n = _ :=
    params_array ha
  obtain ⟨ms,hms,hlies',hextract'⟩ : ∃ ms, _ ∧ _ ∧ extractAndValidateParams schema toks' json' (some base') n' = _ :=
    params_object ho
  refine ⟨_,_,_,_,hextract,hextract',?_⟩
  rw [items_accepted hcs huniform,accepted_iff htidy,members_acceptable htidy hsome huniform hms]
  constructor
  · rintro ⟨hsame,-⟩
    rcases Nat.lt_or_ge schema.length vs.length with hlt | hle
    · exact .inl hlt
    · by_cases hpass : ∀ p ∈ schema.zip vs, verdict p.1.typeCmp p.2 = true
      · exact .inr (.inr (hsame.mp ⟨hle,hpass⟩).2.2)
      · exact .inr (.inl (by simpa using hpass))
  · intro hcases
    have hoptional : vs.length ≤ schema.length → (∀ p ∈ schema.zip vs, verdict p.1.typeCmp p.2 = true) →
        ∀ x ∈ schema.drop vs.length, x.optional = true := by
      intro hle hpass
      rcases hcases with hlt | ⟨p,hp,hno⟩ | hopt
      · exact absurd hle (not_le.mpr hlt)
      · exact absurd (hpass p hp) (by simp [hno])
      · exact hopt
    refine ⟨⟨fun h => ⟨h.1,h.2,hoptional h.1 h.2⟩,fun h => ⟨h.1,h.2.1⟩⟩,fun ⟨hle,hpass⟩ => ?_⟩
    have hempty : SameFields toks json toks' json' [] ({} : Output ParamField) {} :=
      ⟨fun _ => rfl,nofun,fun _ _ => ⟨rfl,rfl⟩⟩
    have hfields := walks_agree htidy huniform rfl hcs hms hlies hlies' hle hpass hempty
    exact ⟨hfields,requiredSet_of_fields hsome hfields (hoptional hle hpass)⟩

section Samples

def starsJson : List UInt8 := ascii "[\"*\"]"
def namedStarJson : List UInt8 := ascii "\x7b\"target\":\"*\"\x7d"

def starItems : Items := .cons [] (.string [42]) [] .nil
def starMembers : Members := .cons [] (ascii "target") [] [] (.string [42]) [] .nil

def starToks : List Token := tokensOf [(Value.array [] starItems).node 0]
def namedStarToks : List Token := tokensOf [(Value.object [] starMembers).node 0]

theorem starsJson_array : parseTokens starsJson = some starToks ∧ IsArrayOf starToks starsJson 0 2 [.string [42]] := by
  refine ⟨by decide +kernel,[],starItems,0,[],?_,rfl,by decide +kernel,.of_eq rfl,by decide +kernel⟩
  simp [starItems,Value.Valid,Items.Valid,Space,stringChars]

theorem namedStarJson_object : parseTokens namedStarJson = some namedStarToks ∧
    IsObjectOf namedStarToks namedStarJson 0 3 [(ascii "target",.string [42])] := by
  refine ⟨by decide +kernel,[],starMembers,0,[],?_,rfl,by decide +kernel,.of_eq rfl,by decide +kernel⟩
  simp only [starMembers,Value.Valid,Members.Valid,Space]
  decide +kernel

theorem positional_named_iff_target :
    ∃ ok out ok' out', extractAndValidateParams targetSchema starToks starsJson (some 0) 2 = .ok (ok,out) ∧
      extractAndValidateParams targetSchema namedStarToks namedStarJson (some 0) 3 = .ok (ok',out') ∧
      (((ok = true ↔ [Value.string [42]].length ≤ targetSchema.length ∧ ok' = true) ∧
          (ok = true → SameFields starToks starsJson namedStarToks namedStarJson
            (targetSchema.zip [Value.string [42]]) out out' ∧ RequiredSet targetSchema out)) ↔
        targetSchema.length < [Value.string [42]].length ∨
          (∃ p ∈ targetSchema.zip [Value.string [42]], verdict p.1.typeCmp p.2 = false) ∨
          ∀ x ∈ targetSchema.drop [Value.string [42]].length, x.optional = true) :=
  positional_named_iff (by simp [paramSchemas]) starsJson_array.2 namedStarJson_object.2

/-- A list of targets alone is enough where the colors are required, if it is given by
position; then the handler follows a null pointer. -/
theorem brief_array_accepted :
    (extractAndValidateParams setLightFromHsbkSchema starToks starsJson (some 0) 2).map
      (fun r => (r.1,r.2.value .hue)) = .ok (true,none) ∧
    (extractAndValidateParams setLightFromHsbkSchema namedStarToks namedStarJson (some 0) 3).map
      (fun r => r.1) = .ok false ∧
    (checkAndCallSetLightFromHsbk plainSetting starToks starsJson
      ⟨{},⟨some [],some [],some ⟨none,some 0,2,none,0⟩⟩⟩).map (fun _ => ()) = .error .nullToken := by
  refine ⟨?_,?_,?_⟩ <;> decide +kernel

end Samples

end Tables
end Lightsd.Core.Jsonrpc
