import Lightsd.Core.BatchParts
import Lightsd.Core.RequestGrammar

/-! # Objects and the values behind them

The walk over the members of an object that lies among other values, in terms of the trees
of tokens. It goes on behind the object with pairs of values, as long as the first of them
is a string. A request has the members of both kinds, and is taken to have a number of
tokens that is made up from them.
-/
namespace Lightsd.Core.Jsonrpc

open OrderedTree

/-- The values behind an object that are read as members: a string and the value behind it,
one pair after the other. A string may be left over at the end. -/
def readOn : List (Rose Label) → List (Label × Rose Label) × Bool
  | [] => ([],false)
  | [t] => ([],(rootToken t).type = .string)
  | t :: u :: ts =>
    if (rootToken t).type = .string then ((t.label,u) :: (readOn ts).1,(readOn ts).2) else ([],false)

/-- An object among tokens, with all the values behind it. -/
structure ObjectAt (toks : List Token) (base : ℕ) (a : Label) (ms : List (Label × Rose Label))
    (cs : List (Rose Label)) : Prop where
  type : a.type = .object
  keys : ∀ m ∈ ms, m.1.type = .string
  values : ∀ m ∈ ms, Shaped m.2
  behind : ∀ c ∈ cs, Shaped c
  tokens : toks.drop base = tokensOf (.node a (ms.map keyNode) :: cs)

theorem Shaped.string_leaf {t : Rose Label} (ht : Shaped t) (h : (rootToken t).type = .string) :
    t = .node t.label [] := by
  cases ht with
  | leaf a htype => rfl
  | array a cs htype hcs => simp [rootToken,Label.token,htype] at h
  | object a ms htype hkeys hvalues => simp [rootToken,Label.token,htype] at h

section Walk
variable {φ : Type} [DecidableEq φ] {schema : List (Node φ)} {json : List UInt8} {toks : List Token}

theorem walkPairs_append (i : ℕ) (ms ps : List (Label × Rose Label)) (out : Output φ) :
    walkPairs schema json i (ms ++ ps) out =
      if (walkPairs schema json i ms out).1 then
        walkPairs schema json (i + counts (ms.map keyNode)) ps (walkPairs schema json i ms out).2
      else walkPairs schema json i ms out := by
  induction ms generalizing i out with
  | nil => simp [walkPairs]
  | cons m ms ih =>
    simp only [List.cons_append,walkPairs,List.map_cons,counts_cons,← Nat.add_assoc]
    cases findNode schema json (Label.token (m.1,1)) with
    | none => exact ih _ out
    | some node =>
      simp only
      split
      · simp
      · split
        · simp
        · exact ih _ _

/-- The walk over the values behind an object is one over members, up to its end. -/
theorem dictWalk_readOn {cs : List (Rose Label)} (hcs : ∀ c ∈ cs, Shaped c) {i : ℕ}
    (hdrop : toks.drop i = tokensOf cs) (out : Output φ) :
    dictWalk schema json toks (i + counts cs) i out =
      if (walkPairs schema json i (readOn cs).1 out).1 then
        if (readOn cs).2 then .error (.tokenIndex toks.length)
        else .ok (true,(walkPairs schema json i (readOn cs).1 out).2)
      else .ok (walkPairs schema json i (readOn cs).1 out) := by
  fun_induction readOn cs generalizing i out with
  | case1 => simpa [walkPairs] using dictWalk_end (le_refl i) out
  | case2 t =>
    have hlen : toks.length = i + t.count := by
      have hlength := congrArg List.length hdrop
      have hpos := count_pos t
      rw [List.length_drop,Jsmn.tokensOf_length,counts_cons,counts_nil] at hlength
      omega
    by_cases htype : (rootToken t).type = .string
    · have hleaf := (hcs t List.mem_cons_self).string_leaf htype
      have hcount : t.count = 1 := by rw [hleaf,Jsmn.count_leaf]
      have hone : toks.drop i = [rootToken t] := by
        rw [hdrop,hleaf]
        rfl
      rw [hcount] at hlen
      have hfails : dictWalk schema json toks (i + 1) i out = _ := dictWalk_dangling hone htype out
      simpa [walkPairs,htype,counts_cons,hcount,hlen] using hfails
    · simpa [walkPairs,htype] using dictWalk_stop (LiesAt.of_eq hdrop).read htype out
  | case3 t u ts htype ih =>
    have hleaf := (hcs t List.mem_cons_self).string_leaf htype
    have hu := hcs u (List.mem_cons_of_mem _ List.mem_cons_self)
    have hcount : t.count = 1 := by rw [hleaf,Jsmn.count_leaf]
    have hdropu : toks.drop (i + 1) = tokensOf (u :: ts) := by
      have hnext := LiesAt.drop_tokensOf hdrop
      rwa [hcount] at hnext
    have hdropts : toks.drop (i + 1 + u.count) = tokensOf ts := LiesAt.drop_tokensOf hdropu
    have hnext : i + 1 + u.count = i + (keyNode (t.label,u)).count := by
      simp only [count_keyNode]
      omega
    have hlimit : i + counts (t :: u :: ts) = i + 1 + u.count + counts ts := by
      rw [counts_cons,counts_cons,hcount]
      omega
    have hrest := fun out => ih (fun c hc => hcs c (List.mem_cons_of_mem _ (List.mem_cons_of_mem _ hc)))
      hdropts out
    have hkey : findNode schema json (rootToken t) = findNode schema json (Label.token (t.label,1)) := by
      conv_lhs => rw [hleaf]
      rfl
    rw [hlimit,dictWalk_pair (LiesAt.of_eq hdrop).read htype (LiesAt.of_eq hdropu) hu (by omega) out,hkey]
    simp only [walkPairs,← hnext]
    cases findNode schema json (Label.token (t.label,1)) with
    | none => exact hrest out
    | some node =>
      simp only
      split
      · simp
      · split
        · simp
        · exact hrest _
  | case4 t u ts htype =>
    simpa [walkPairs] using dictWalk_stop (LiesAt.of_eq hdrop).read htype out

end Walk
section Object
variable {φ : Type} [DecidableEq φ] {schema : List (Node φ)} {json : List UInt8} {toks : List Token} {base : ℕ}
  {a : Label} {ms : List (Label × Rose Label)} {cs : List (Rose Label)}

namespace ObjectAt

theorem shaped (h : ObjectAt toks base a ms cs) : Shaped (.node a (ms.map keyNode)) :=
  .object a ms h.type h.keys h.values

theorem ntokens_eq (h : ObjectAt toks base a ms cs) :
    toks.length - base = 1 + counts (ms.map keyNode) + counts cs := by
  have hlength := congrArg List.length h.tokens
  rw [List.length_drop,Jsmn.tokensOf_length,counts_cons,count_node] at hlength
  omega

theorem drop_behind (h : ObjectAt toks base a ms cs) :
    toks.drop (base + 1 + counts (ms.map keyNode)) = tokensOf cs := by
  have hdrop := LiesAt.drop_tokensOf h.tokens
  rwa [count_node,Nat.add_comm (counts _),← Nat.add_assoc] at hdrop

/-- What is extracted from an object and the values behind it. -/
theorem extract (h : ObjectAt toks base a ms cs) :
    extractFromDict schema toks json {} base (toks.length - base) =
      if (walkPairs schema json (base + 1) (ms ++ (readOn cs).1) {}).1 then
        if (readOn cs).2 then .error (.tokenIndex toks.length)
        else .ok (complete schema (walkPairs schema json (base + 1) (ms ++ (readOn cs).1) {}).2,
          (walkPairs schema json (base + 1) (ms ++ (readOn cs).1) {}).2)
      else .ok (false,(walkPairs schema json (base + 1) (ms ++ (readOn cs).1) {}).2) := by
  have hlimit : base + (1 + counts (ms.map keyNode) + counts cs) =
      base + 1 + counts (ms.map keyNode) + counts cs := by omega
  rw [h.ntokens_eq,extractFromDict_object (LiesAt.of_eq h.tokens) h.type h.keys h.values (by omega),hlimit,
    dictWalk_readOn h.behind h.drop_behind,walkPairs_append]
  split
  · split
    · split <;> simp [Except.map]
    · rename_i hnot
      simp [Except.map,hnot]
  · simp

/-- The object is passed as a whole if it is refused. -/
theorem consume (h : ObjectAt toks base a ms cs) :
    consumeObjectOrArray toks base (base + (toks.length - base)) = .ok (base + (1 + counts (ms.map keyNode))) := by
  have hroot : isContainer (rootToken (.node a (ms.map keyNode))) = true := by
    simp [rootToken,Label.token,isContainer,h.type]
  have hcount : (Rose.node a (ms.map keyNode)).count = 1 + counts (ms.map keyNode) := by
    rw [count_node,Nat.add_comm]
  have hpass : consumeObjectOrArray toks base (base + (toks.length - base)) = _ :=
    passes_consumeObjectOrArray h.shaped base cs (LiesAt.of_eq h.tokens) (by rw [hcount,h.ntokens_eq]; omega) hroot
  rwa [hcount] at hpass

end ObjectAt
end Object

section Request
variable {json : List UInt8} {toks : List Token} {base : ℕ} {a : Label} {ms : List (Label × Rose Label)}
  {cs : List (Rose Label)}

/-- The key of a member, as it is written. -/
def keyText (json : List UInt8) (m : Label × Rose Label) : List UInt8 := tokenText json (Label.token (m.1,1))

/-- The number of tokens that a request with these members is taken to have: itself, a
version and a method, and its parameters and its id if it has them. -/
def requestTokens (json : List UInt8) (ms : List (Label × Rose Label)) : ℕ :=
  5 + (match ms.find? (fun m => keyText json m = ascii "params") with
    | some m => 1 + m.2.count
    | none => 0) +
    (if ms.any (fun m => keyText json m = ascii "id") then 2 else 0)

theorem fieldOf_request (m : Label × Rose Label) (f : RequestField) : fieldOf requestSchema json m = some f ↔
    keyText json m = match f with | .method => ascii "method" | .params => ascii "params" | .id => ascii "id" :=
  fieldFor_request (keyText json m) f

theorem fieldValue_isSome_key {f : RequestField} {key : List UInt8} (i : ℕ)
    (hkey : ∀ m, fieldOf requestSchema json m = some f ↔ keyText json m = key) :
    (fieldValue requestSchema json f i ms).isSome = ms.any (fun m => keyText json m = key) := by
  rw [Bool.eq_iff_iff,fieldValue_isSome]
  simp [hkey]

theorem rowOf_params (m : Label × Rose Label) :
    (rowOf requestSchema json m).bind Node.ntokensOffset = some .params ↔ keyText json m = ascii "params" := by
  have hrow : rowOf requestSchema json m = rowFor requestSchema (keyText json m) := rfl
  simp only [hrow,Option.bind_eq_some_iff,rowFor_eq_some requestSchema_keys,and_assoc]
  simp [requestSchema,eq_comm]

theorem fieldNtokens_params (ms : List (Label × Rose Label)) :
    fieldNtokens requestSchema json .params ms =
      (ms.find? (fun m => keyText json m = ascii "params")).map (fun m => m.2.count) := by
  induction ms with
  | nil => rfl
  | cons m ms ih =>
    by_cases hkey : keyText json m = ascii "params"
    · simp [fieldNtokens,(rowOf_params m).mpr hkey,hkey]
    · simp [fieldNtokens,rowOf_params,hkey,ih]

/-- The fields of a request whose members have been walked over. -/
theorem request_of_walk (base : ℕ) {r : Bool × Output RequestField} (h : Admissible requestSchema json ms)
    (hr : walkPairs requestSchema json (base + 1) ms {} = r) :
    (Request.ofOutput r.2).ntokens = requestTokens json ms ∧
      (r.2.value .id).isSome = ms.any (fun m => keyText json m = ascii "id") ∧
      complete requestSchema r.2 = ms.any (fun m => keyText json m = ascii "method") ∧
      r.2.value .method = fieldValue requestSchema json .method (base + 1) ms := by
  subst hr
  have hvalue := walkPairs_empty_value (base + 1) h
  have hid : (fieldValue requestSchema json .id (base + 1) ms).isSome = _ :=
    fieldValue_isSome_key _ (fieldOf_request · .id)
  have hparams : (fieldValue requestSchema json .params (base + 1) ms).isSome = _ :=
    fieldValue_isSome_key _ (fieldOf_request · .params)
  have hmethod : (fieldValue requestSchema json .method (base + 1) ms).isSome = _ :=
    fieldValue_isSome_key _ (fieldOf_request · .method)
  have hntokens : (walkPairs requestSchema json (base + 1) ms {}).2.ntokens .params = _ :=
    walkPairs_ntokens requestSchema_counts.once h (fresh_empty requestSchema json ms) .params
  rw [fieldNtokens_params] at hntokens
  refine ⟨?_,by rw [hvalue,hid],?_,hvalue .method⟩
  · simp only [Request.ntokens,Request.ofOutput,hvalue,hid,hparams,hntokens,requestTokens]
    cases hfind : ms.find? (fun m => keyText json m = ascii "params") with
    | none =>
      have hany : ms.any (fun m => keyText json m = ascii "params") = false := by
        simpa using List.find?_eq_none.mp hfind
      simp [hany]
    | some m =>
      have hany : ms.any (fun m => keyText json m = ascii "params") = true := by
        have hkey := List.find?_some hfind
        exact List.any_eq_true.mpr ⟨m,List.mem_of_find?_eq_some hfind,hkey⟩
      simp [hany]
  · rw [← hmethod,← hvalue]
    simp [complete,requestSchema,Output.seen]

end Request
section Indices
variable {φ : Type} [DecidableEq φ] {schema : List (Node φ)} {json : List UInt8} {toks : List Token} {f : φ}
  {ms : List (Label × Rose Label)}

theorem fieldValue_lt {i j : ℕ} (h : fieldValue schema json f i ms = some j) :
    j < i + counts (ms.map keyNode) := by
  induction ms generalizing i with
  | nil => cases h
  | cons m ms ih =>
    rw [List.map_cons,counts_cons,count_keyNode]
    have hpos := count_pos m.2
    simp only [fieldValue] at h
    split at h
    · cases h
      omega
    · have hlt := ih h
      rw [count_keyNode] at hlt
      omega

/-- A field is filled in with the value of the first member of its own. -/
theorem fieldValue_read {i j : ℕ} {ts : List (Rose Label)} (hlies : LiesAt toks i (ms.map keyNode ++ ts))
    (h : fieldValue schema json f i ms = some j) :
    ∃ m, ms.find? (fun m => fieldOf schema json m = some f) = some m ∧ readToken toks j = .ok (rootToken m.2) := by
  induction ms generalizing i with
  | nil => cases h
  | cons m ms ih =>
    simp only [fieldValue] at h
    split at h
    · cases h
      exact ⟨m,by simp [*],hlies.value.read⟩
    · obtain ⟨m',hm',hread⟩ := ih hlies.tail h
      exact ⟨m',by simp [*],hread⟩

theorem counts_readOn_le {cs : List (Rose Label)} (hcs : ∀ c ∈ cs, Shaped c) :
    counts ((readOn cs).1.map keyNode) ≤ counts cs := by
  fun_induction readOn cs with
  | case1 => simp
  | case2 t => simp
  | case3 t u ts htype ih =>
    have hle := ih (fun c hc => hcs c (List.mem_cons_of_mem _ (List.mem_cons_of_mem _ hc)))
    have hcount : t.count = 1 := by rw [(hcs t List.mem_cons_self).string_leaf htype,Jsmn.count_leaf]
    simp only [List.map_cons,counts_cons,count_keyNode,hcount]
    omega
  | case4 t u ts htype => simp

end Indices

section Parts
variable {json : List UInt8} {toks : List Token} {base : ℕ} {a : Label} {ms : List (Label × Rose Label)}
  {cs : List (Rose Label)}

theorem elementPart_other {e : Rose Label} {ti : ℕ} (he : Shaped e)
    (hdrop : toks.drop ti = tokensOf (e :: cs)) (hnot : (rootToken e).type ≠ .object) :
    elementPart toks json ti = .ok (.notObject,ti + e.count) := by
  have hread := (LiesAt.of_eq hdrop).read
  have hlength : toks.length - ti = e.count + counts cs := by
    have hlen := congrArg List.length hdrop
    rwa [List.length_drop,Jsmn.tokensOf_length,counts_cons] at hlen
  have hpos := count_pos e
  simp only [elementPart,hread,bind,Except.bind,if_neg hnot]
  by_cases harray : (rootToken e).type = .array
  · have hroot : isContainer (rootToken e) = true := by simp [isContainer,harray]
    have hpass : consumeObjectOrArray toks ti toks.length = _ :=
      passes_consumeObjectOrArray he ti cs (LiesAt.of_eq hdrop) (by omega) hroot
    simp [harray,hpass]
  · have hroot : isContainer (rootToken e) = false := by simp [isContainer,harray,hnot]
    simp [harray,he.count_eq_one hroot]

theorem elementPart_object {tok : Token} {ti : ℕ} (hread : readToken toks ti = .ok tok) (hobject : tok.type = .object) :
    elementPart toks json ti = (requestPart toks json ti (toks.length - ti)).map (fun r => (r.1,ti + r.2)) := by
  simp only [elementPart,hread,hobject,if_true,bind,Except.bind]
  cases requestPart toks json ti (toks.length - ti) <;> rfl

namespace ObjectAt

theorem requestPart_eq (h : ObjectAt toks base a ms cs) (json : List UInt8) :
    requestPart toks json base (toks.length - base) = (do
      let (ok,request) ← (extractFromDict requestSchema toks json {} base (toks.length - base)).map Request.ofResult
      if !ok then .ok (.invalid request,1 + counts (ms.map keyNode))
      else
        match ← requestMethod toks json request with
        | none => .ok (.unknown request,request.requestNtokens)
        | some m => .ok (.call m request,request.requestNtokens)) := by
  rw [requestPart,checkAndExtractRequest_eq]
  cases (extractFromDict requestSchema toks json {} base (toks.length - base)).map Request.ofResult with
  | error e => rfl
  | ok r =>
    obtain ⟨ok,request⟩ := r
    cases ok with
    | false => simp [h.consume,bind,Except.bind]
    | true => rfl

/-- An object with a member that is not allowed is refused. -/
theorem requestPart_refused (h : ObjectAt toks base a ms cs)
    (hnot : ¬ Admissible requestSchema json (ms ++ (readOn cs).1)) :
    ∃ request, requestPart toks json base (toks.length - base) =
      .ok (.invalid request,1 + counts (ms.map keyNode)) := by
  rw [← walkPairs_empty requestSchema json (base + 1)] at hnot
  rw [h.requestPart_eq,h.extract,if_neg hnot]
  exact ⟨_,rfl⟩

/-- A string that is left over is taken for a key, and its value is read past the end. -/
theorem requestPart_overrun (h : ObjectAt toks base a ms cs)
    (hyes : Admissible requestSchema json (ms ++ (readOn cs).1)) (hlast : (readOn cs).2 = true) :
    requestPart toks json base (toks.length - base) = .error (.tokenIndex toks.length) := by
  rw [← walkPairs_empty requestSchema json (base + 1)] at hyes
  rw [h.requestPart_eq,h.extract,if_pos hyes,if_pos hlast]
  rfl

/-- An object without a method is refused. -/
theorem requestPart_incomplete (h : ObjectAt toks base a ms cs)
    (hyes : Admissible requestSchema json (ms ++ (readOn cs).1)) (hlast : (readOn cs).2 = false)
    (hmethod : (ms ++ (readOn cs).1).any (fun m => keyText json m = ascii "method") = false) :
    ∃ request, requestPart toks json base (toks.length - base) =
      .ok (.invalid request,1 + counts (ms.map keyNode)) := by
  obtain ⟨-,-,hcomplete,-⟩ := request_of_walk base hyes rfl
  rw [← walkPairs_empty requestSchema json (base + 1)] at hyes
  rw [h.requestPart_eq,h.extract,if_pos hyes,hlast,hcomplete,hmethod]
  exact ⟨_,rfl⟩

/-- Any other object is a request. -/
theorem requestPart_taken (h : ObjectAt toks base a ms cs)
    (hyes : Admissible requestSchema json (ms ++ (readOn cs).1)) (hlast : (readOn cs).2 = false)
    (hmethod : (ms ++ (readOn cs).1).any (fun m => keyText json m = ascii "method") = true) :
    ∃ request i tok, fieldValue requestSchema json .method (base + 1) (ms ++ (readOn cs).1) = some i ∧
      readToken toks i = .ok tok ∧
      request.id.isSome = (ms ++ (readOn cs).1).any (fun m => keyText json m = ascii "id") ∧
      requestPart toks json base (toks.length - base) =
        .ok (match lookupMethod (tokenText json tok) with
          | none => .unknown request
          | some m => .call m request,requestTokens json (ms ++ (readOn cs).1)) := by
  obtain ⟨hntokens,hid,hcomplete,hvalue⟩ := request_of_walk base hyes rfl
  have hsome : (fieldValue requestSchema json .method (base + 1) (ms ++ (readOn cs).1)).isSome = true := by
    rw [fieldValue_isSome_key _ (fieldOf_request · .method)]
    exact hmethod
  obtain ⟨i,hi⟩ := Option.isSome_iff_exists.mp hsome
  have hlt : i < toks.length := by
    have hbound := fieldValue_lt hi
    have hle := counts_readOn_le h.behind
    have hn := h.ntokens_eq
    rw [List.map_append,counts_append] at hbound
    omega
  have hread : readToken toks i = .ok toks[i] := by simp [readToken,hlt]
  rw [← walkPairs_empty requestSchema json (base + 1)] at hyes
  generalize hwalk : walkPairs requestSchema json (base + 1) (ms ++ (readOn cs).1) {} = r
    at hyes hntokens hid hcomplete hvalue
  refine ⟨(Request.ofResult (true,r.2)).2,i,toks[i],hi,hread,hid,?_⟩
  have hnamed : requestMethod toks json (Request.ofResult (true,r.2)).2 =
      .ok (lookupMethod (tokenText json toks[i])) := by
    simp only [requestMethod,(ofResult_value (true,r.2)).1,hvalue,hi,hread]
    rfl
  rw [h.requestPart_eq,h.extract,hwalk,if_pos hyes,hlast,hcomplete,hmethod]
  simp only [Bool.false_eq_true,if_false,Except.map,bind,Except.bind,hnamed]
  have hstride : (Request.ofResult (true,r.2)).2.requestNtokens = requestTokens json (ms ++ (readOn cs).1) := hntokens
  cases lookupMethod (tokenText json toks[i]) <;> simp only [hstride] <;> rfl

end ObjectAt
end Parts
end Lightsd.Core.Jsonrpc
