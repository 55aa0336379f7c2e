import Lightsd.Core.PositionalParams

/-! # Lists of targets

How the list of targets is built: the tokens are gone through from the last one to the first,
each text is copied to the head of the list with a NUL byte behind it, and the list is cleared
when a token is no target. The tokens inside of nested values are among those that are gone
through, but so is the nested value itself, which ends it.
-/
namespace Lightsd.Core.Jsonrpc

open Json Jsmn Lifx OrderedTree

/-- A list that is being built, and the client that is told about errors. -/
structure TargetList where
  caller : Caller
  items : List (List UInt8)

section Building
variable (toks : List Token) (json : List UInt8)

/-- `lgtd_proto_target_list_clear`: the first item is removed until there is none. -/
def targetListClear : List (List UInt8) → List (List UInt8)
  | [] => []
  | _ :: items => targetListClear items

def insertTargets (first : ℕ) : ℕ → TargetList → Except Crash (Bool × TargetList)
  | 0, l => .ok (true,l)
  | ti + 1, l => do
    let tok ← readToken toks (first + ti)
    if typeStringOrNumber tok json then
      insertTargets first ti { l with items := (tokenText json tok ++ [0]) :: l.items }
    else .ok (false,⟨l.caller.sendError toks json .invalidParams "Invalid parameters",targetListClear l.items⟩)

/-- The list that `lgtd_jsonrpc_build_target_list` is given, and whether it succeeds. -/
def fillTargetList (l : TargetList) (target ntokens : ℕ) : Except Crash (Bool × TargetList) :=
  if ntokens < 1 then .ok (false,l)
  else do
    let tok ← readToken toks target
    if tok.type = .array then insertTargets toks json (target + 1) (ntokens - 1) l
    else if ntokens ≠ 1 then .ok (false,l)
    else insertTargets toks json target ntokens l

/-- What a caller sees of the result: the texts up to their NUL bytes. -/
def TargetList.result (r : Bool × TargetList) : Caller × Option (List TargetName) :=
  (r.2.caller,if r.1 then some (r.2.items.map cString) else none)

variable {toks json}

theorem targetListClear_eq (items : List (List UInt8)) : targetListClear items = [] := by
  induction items with
  | nil => rfl
  | cons item items ih => exact ih

theorem cString_append_nul (text : List UInt8) : cString (text ++ [0]) = cString text := by
  induction text with
  | nil => rfl
  | cons c cs ih =>
    simp only [cString,List.cons_append] at ih ⊢
    rw [List.takeWhile_cons,List.takeWhile_cons,ih]

theorem targetLoop_insert (first n : ℕ) (l : TargetList) :
    targetLoop toks json first l.caller n (l.items.map cString) =
      (insertTargets toks json first n l).map TargetList.result := by
  induction n generalizing l with
  | zero => rfl
  | succ n ih =>
    unfold targetLoop insertTargets
    cases readToken toks (first + n) with
    | error e => rfl
    | ok tok =>
      simp only [bind,Except.bind]
      split
      · rw [← ih,List.map_cons,cString_append_nul]
      · rfl

theorem buildTargetList_fill (c : Caller) (target ntokens : ℕ) :
    buildTargetList toks json c target ntokens =
      (fillTargetList toks json ⟨c,[]⟩ target ntokens).map TargetList.result := by
  unfold buildTargetList fillTargetList
  split
  · rfl
  · cases readToken toks target with
    | error e => rfl
    | ok tok =>
      simp only [bind,Except.bind]
      split
      · exact targetLoop_insert (target + 1) _ ⟨c,[]⟩
      · split
        · rfl
        · exact targetLoop_insert target _ ⟨c,[]⟩

/-- The tokens are all targets, or the list is cleared and the client is told. -/
theorem insertTargets_eq {first n : ℕ} {ts post : List Token} (h : toks.drop first = ts ++ post)
    (hn : n ≤ ts.length)
    (l : TargetList) : insertTargets toks json first n l =
      if (ts.take n).all (typeStringOrNumber · json) then
        .ok (true,{ l with items := (ts.take n).map (fun t => tokenText json t ++ [0]) ++ l.items })
      else .ok (false,⟨l.caller.sendError toks json .invalidParams "Invalid parameters",[]⟩) := by
  induction n generalizing l with
  | zero => simp [insertTargets]
  | succ n ih =>
    have hdrop : toks.drop (first + n) = ts[n] :: (ts.drop (n + 1) ++ post) := by
      rw [← List.drop_drop,h,List.drop_append_of_le_length (by omega),List.drop_eq_getElem_cons hn,List.cons_append]
    have hread := readToken_of_drop hdrop
    have htake : ts.take (n + 1) = ts.take n ++ [ts[n]] := (List.take_append_getElem hn).symm
    simp only [insertTargets,hread,bind,Except.bind,htake,List.all_append,List.map_append]
    by_cases htype : typeStringOrNumber ts[n] json = true
    · rw [if_pos htype,ih (by omega)]
      simp [htype]
    · simp [htype,targetListClear_eq]

end Building
section Values

/-- The text of a string or of a primitive, without quotes. -/
def rawText : Value → List UInt8
  | .string chars | .primitive chars => chars
  | .array .. | .object .. => []

def isTarget (v : Value) : Bool := v.isString || v.isNumber

/-- A target, or an array of targets. -/
def isTargets : Value → Bool
  | .array _ items => items.values.all isTarget
  | v => isTarget v

def targetTexts : Value → List (List UInt8)
  | .array _ items => items.values.map rawText
  | v => [rawText v]

variable {toks : List Token} {json rest : List UInt8} {pos target : ℕ} {v : Value} {c : Caller}

theorem tokensOf_leaf (a : Label) : tokensOf [.node a []] = [rootToken (.node a [])] := by
  rw [tokensOf_node]
  simp [tokensOf,rootToken]

theorem rawText_string {chars : List UInt8} (hjson : json.drop pos = (Value.string chars).text ++ rest) :
    tokenText json (rootToken ((Value.string chars).node pos)) = chars := by
  have hbehind : json.drop (pos + 1) = chars ++ (34 :: rest) := by
    rw [← List.drop_drop,hjson]
    simp [Value.text,quoted]
  simp [Value.node,rootToken,Label.token,tokenText,tokenLen,hbehind]

theorem rawText_primitive {chars : List UInt8} (hjson : json.drop pos = (Value.primitive chars).text ++ rest) :
    tokenText json (rootToken ((Value.primitive chars).node pos)) = chars := by
  rw [Value.text] at hjson
  simp [Value.node,rootToken,Label.token,tokenText,tokenLen,hjson]

/-- The tokens of a target are its own one, and it is taken for a target. -/
theorem target_tokens (hv : v.Valid) (hjson : json.drop pos = v.text ++ rest) (h : isTarget v = true) :
    tokensOf [v.node pos] = [rootToken (v.node pos)] ∧ typeStringOrNumber (rootToken (v.node pos)) json = true ∧
      tokenText json (rootToken (v.node pos)) = rawText v := by
  cases v with
  | string chars =>
    refine ⟨?_,?_,rawText_string hjson⟩
    · rw [Value.node]
      exact tokensOf_leaf _
    · simp [Value.node,rootToken,Label.token,typeStringOrNumber,typeString]
  | primitive chars =>
    rw [Value.Valid] at hv
    obtain ⟨d,ds,rfl⟩ := exists_first hv
    refine ⟨?_,?_,rawText_primitive hjson⟩
    · rw [Value.node]
      exact tokensOf_leaf _
    · have hfirst : byteAt json pos = d := by
        rw [Value.text,List.cons_append] at hjson
        exact byteAt_of_drop hjson
      simpa [Value.node,rootToken,Label.token,typeStringOrNumber,typeString,typeNumber,hfirst,isTarget,Value.isString,
        Value.isNumber] using h
  | array space items => cases h
  | object space members => cases h

/-- The first token of any other value is no target. -/
theorem other_tokens (hv : v.Valid) (hjson : json.drop pos = v.text ++ rest) (h : isTarget v = false) :
    typeStringOrNumber (rootToken (v.node pos)) json = false := by
  cases v with
  | string chars => cases h
  | primitive chars =>
    rw [Value.Valid] at hv
    obtain ⟨d,ds,rfl⟩ := exists_first hv
    have hfirst : byteAt json pos = d := by
      rw [Value.text,List.cons_append] at hjson
      exact byteAt_of_drop hjson
    simpa [Value.node,rootToken,Label.token,typeStringOrNumber,typeString,typeNumber,hfirst,isTarget,Value.isString,
      Value.isNumber] using h
  | array space items => simp [Value.node,rootToken,Label.token,typeStringOrNumber,typeString,typeNumber]
  | object space members => simp [Value.node,rootToken,Label.token,typeStringOrNumber,typeString,typeNumber]

/-- The tokens of the elements of an array are all targets if the elements are. -/
theorem items_tokens {cs : List (Rose Label)} {vs : List Value} (h : List.Forall₂ (Shown json) cs vs) :
    (tokensOf cs).all (typeStringOrNumber · json) = vs.all isTarget ∧
      (vs.all isTarget = true → (tokensOf cs).map (tokenText json) = vs.map rawText) := by
  induction h with
  | nil => simp [tokensOf]
  | @cons t v cs vs hshown _ ih =>
    obtain ⟨pos,rest,rfl,hv,hjson,-⟩ := hshown
    have hsplit : tokensOf (v.node pos :: cs) = tokensOf [v.node pos] ++ tokensOf cs := tokensOf_append [v.node pos] cs
    rw [hsplit,List.all_append,List.map_append,ih.1,List.all_cons,List.map_cons]
    cases htarget : isTarget v with
    | true =>
      obtain ⟨htokens,htype,htext⟩ := target_tokens hv hjson htarget
      refine ⟨by simp [htokens,htype],fun hall => ?_⟩
      rw [htokens,ih.2 (by simpa using hall)]
      simp [htext]
    | false =>
      obtain ⟨ts,hts⟩ := tokensOf_cons (v.node pos) []
      simp [hts,other_tokens hv hjson htarget]

/-- What a list of targets comes to, by what it should hold if it can be built. -/
structure Built (toks : List Token) (json : List UInt8) (c : Caller) (good : Bool) (texts : List (List UInt8))
    (r : Bool × TargetList) : Prop where
  verdict : r.1 = good
  filled : r.1 = true → r.2.items = texts.map (· ++ [0]) ∧ r.2.caller = c
  cleared : r.1 = false → r.2.items = [] ∧
    (r.2.caller = c ∨ r.2.caller = c.sendError toks json .invalidParams "Invalid parameters")

theorem built_of_insert (json : List UInt8) {first : ℕ} {ts post : List Token} (h : toks.drop first = ts ++ post)
    (c : Caller) :
    ∃ r, insertTargets toks json first ts.length ⟨c,[]⟩ = .ok r ∧
      Built toks json c (ts.all (typeStringOrNumber · json)) (ts.map (tokenText json)) r := by
  rw [insertTargets_eq h le_rfl,List.take_length]
  split
  next hall => exact ⟨_,rfl,hall.symm,fun _ => by simp,nofun⟩
  next hall => exact ⟨_,rfl,by simpa using hall,nofun,fun _ => ⟨rfl,.inr rfl⟩⟩

/-- The elements of an array are gone through with all that is in them. -/
theorem fill_array {space : List UInt8} {items : Items} (hv : (Value.array space items).Valid)
    (hjson : json.drop pos = (Value.array space items).text ++ rest)
    (hlies : LiesAt toks target [(Value.array space items).node pos]) (c : Caller) :
    ∃ r, fillTargetList toks json ⟨c,[]⟩ target (Value.array space items).ntokens = .ok r ∧
      Built toks json c (items.values.all isTarget) (items.values.map rawText) r := by
  have hshown := array_shown hv hjson
  obtain ⟨hall,htexts⟩ := items_tokens hshown
  have hroot := hlies.read
  rw [Value.node] at hlies
  obtain ⟨post,hdrop⟩ := hlies.children
  rw [List.append_nil] at hdrop
  have hlen : (Value.array space items).ntokens - 1 =
      (tokensOf (items.nodes true (pos + 1 + space.length))).length := by
    rw [tokensOf_length,Items.counts_nodes,Value.ntokens,Nat.add_sub_cancel]
  have hpos : ¬ (Value.array space items).ntokens < 1 := by
    rw [Value.ntokens]
    omega
  have htype : (rootToken ((Value.array space items).node pos)).type = .array := by
    rw [Value.node]
    rfl
  obtain ⟨r,hr,hbuilt⟩ := built_of_insert json hdrop c
  refine ⟨r,?_,?_⟩
  · simp only [fillTargetList,if_neg hpos,hroot,bind,Except.bind,htype,if_true,hlen]
    exact hr
  · rw [hall] at hbuilt
    refine ⟨hbuilt.verdict,fun hok => ?_,hbuilt.cleared⟩
    rw [← htexts (hbuilt.verdict.symm.trans hok)]
    exact hbuilt.filled hok

/-- A value that is no array is a target by itself, or none. -/
theorem fill_single (hv : v.Valid) (hjson : json.drop pos = v.text ++ rest)
    (hlies : LiesAt toks target [v.node pos]) (htype : (rootToken (v.node pos)).type ≠ .array) (c : Caller) :
    ∃ r, fillTargetList toks json ⟨c,[]⟩ target v.ntokens = .ok r ∧
      Built toks json c (isTarget v) [rawText v] r := by
  have hpos : ¬ v.ntokens < 1 := by
    rw [← Value.count_node pos]
    exact Nat.not_lt.mpr (count_pos _)
  simp only [fillTargetList,if_neg hpos,hlies.read,bind,Except.bind,if_neg htype]
  obtain ⟨post,hdrop⟩ := hlies
  by_cases hone : v.ntokens = 1
  · have hlen : (tokensOf [v.node pos]).length = 1 := by
      rw [tokensOf_length,counts_cons,counts_nil,Value.count_node,hone]
    obtain ⟨ts,hts⟩ := tokensOf_cons (v.node pos) []
    obtain rfl : ts = [] := by
      rw [hts,List.length_cons] at hlen
      exact List.length_eq_zero_iff.mp (by omega)
    rw [hts] at hdrop
    obtain ⟨r,hr,hbuilt⟩ := built_of_insert json hdrop c
    rw [if_neg (not_not.mpr hone),hone]
    refine ⟨r,hr,?_⟩
    cases htarget : isTarget v with
    | true =>
      obtain ⟨-,htoken,htext⟩ := target_tokens hv hjson htarget
      simpa [htoken,htext] using hbuilt
    | false =>
      have htoken := other_tokens hv hjson htarget
      simp only [List.all_cons,htoken,Bool.false_and] at hbuilt
      have hfailed : r.1 ≠ true := by simp [hbuilt.verdict]
      exact ⟨hbuilt.verdict,fun hok => absurd hok hfailed,hbuilt.cleared⟩
  · have hother : isTarget v = false := by
      by_contra htarget
      obtain ⟨htokens,-,-⟩ := target_tokens hv hjson (Bool.eq_true_of_not_eq_false htarget)
      have hlen := congrArg List.length htokens
      rw [tokensOf_length,counts_cons,counts_nil,Value.count_node] at hlen
      exact hone hlen
    rw [if_pos hone]
    exact ⟨_,rfl,hother.symm,nofun,fun _ => ⟨rfl,.inl rfl⟩⟩

/-- A list of targets is built from a string or a number, or from an array of these, and
holds their texts in their order. From anything else nothing is left in the list, and the
client is told at most once. -/
theorem targets_built (hv : v.Valid) (hjson : json.drop pos = v.text ++ rest)
    (hlies : LiesAt toks target [v.node pos]) (c : Caller) :
    ∃ r, fillTargetList toks json ⟨c,[]⟩ target v.ntokens = .ok r ∧
      Built toks json c (isTargets v) (targetTexts v) r ∧
      buildTargetList toks json c target v.ntokens = .ok (TargetList.result r) := by
  have hfill : ∃ r, fillTargetList toks json ⟨c,[]⟩ target v.ntokens = .ok r ∧
      Built toks json c (isTargets v) (targetTexts v) r := by
    cases v with
    | array space items => exact fill_array hv hjson hlies c
    | string chars => exact fill_single hv hjson hlies (by simp [Value.node,rootToken,Label.token]) c
    | primitive chars => exact fill_single hv hjson hlies (by simp [Value.node,rootToken,Label.token]) c
    | object space members => exact fill_single hv hjson hlies (by simp [Value.node,rootToken,Label.token]) c
  obtain ⟨r,hr,hbuilt⟩ := hfill
  exact ⟨r,hr,hbuilt,by rw [buildTargetList_fill,hr]; rfl⟩

theorem targets_built_star : ∃ r, fillTargetList starToks starsJson ⟨{},[]⟩ 0 2 = .ok r ∧
    Built starToks starsJson {} true [[42]] r ∧
    buildTargetList starToks starsJson {} 0 2 = .ok (TargetList.result r) := by
  have hv : (Value.array [] starItems).Valid := by simp [starItems,Value.Valid,Items.Valid,Space,stringChars]
  have hjson : starsJson.drop 0 = (Value.array [] starItems).text ++ [] := by decide +kernel
  exact targets_built hv hjson (.of_eq rfl) {}

end Values
end Lightsd.Core.Jsonrpc
