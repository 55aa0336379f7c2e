import Lightsd.Core.Primitives
import Lightsd.Core.ReadOn

/-! # Elements and what is read of them

The part that an object is to the dispatcher, compared with the one it would be if there were
no tokens behind it. They are the same unless a value behind the object is taken for a member
that changes the request.
-/
namespace Lightsd.Core.Jsonrpc

open OrderedTree Jsmn

section Own
variable {json : List UInt8} {toks : List Token} {base : ℕ} {a : Label} {ms : List (Label × Rose Label)}
  {cs : List (Rose Label)}

/-- A member that is refused behind others: it has the wrong type, or its field comes a second
time. -/
def RefusedAfter (json : List UInt8) (ms : List (Label × Rose Label)) (m : Label × Rose Label) : Prop :=
  passesType requestSchema json m = false ∨
    ∃ f, fieldOf requestSchema json m = some f ∧ ∃ m' ∈ ms, fieldOf requestSchema json m' = some f

/-- The values behind an object do not change what it is: it is refused for its own members, or
all that is read on changes nothing, or it is refused for its missing method and the first
member that would change something is refused as well. -/
def Unaffected (json : List UInt8) (ms : List (Label × Rose Label)) (cs : List (Rose Label)) : Prop :=
  ¬ Admissible requestSchema json ms ∨
    ((readOn cs).2 = false ∧ ∀ m ∈ (readOn cs).1, idleMember requestSchema json m = true) ∨
    (ms.any (fun m => keyText json m = ascii "method") = false ∧
      ∃ m, (readOn cs).1.find? (!idleMember requestSchema json ·) = some m ∧ RefusedAfter json ms m)

/-- What the walk over the members of an object gives if there is nothing behind it. -/
def ownResult (json : List UInt8) (base : ℕ) (ms : List (Label × Rose Label)) : Bool × Output RequestField :=
  ((walkPairs requestSchema json (base + 1) ms {}).1 &&
      complete requestSchema (walkPairs requestSchema json (base + 1) ms {}).2,
    (walkPairs requestSchema json (base + 1) ms {}).2)

/-- The verdict on an object and its fields tell what the walk has filled in. -/
theorem value_of_ofResult {r r' : Bool × Output RequestField} (h : Request.ofResult r = Request.ofResult r')
    (f : RequestField) : r.2.value f = r'.2.value f := by
  obtain ⟨hmethod,hparams,hid⟩ := ofResult_value r
  obtain ⟨hmethod',hparams',hid'⟩ := ofResult_value r'
  cases f with
  | method => rw [← hmethod,← hmethod',h]
  | params => rw [← hparams,← hparams',h]
  | id => rw [← hid,← hid',h]

/-- A field is filled in for the members that come before. -/
theorem blocked_iff (hms : Admissible requestSchema json ms) (i : ℕ) (m : Label × Rose Label) :
    Blocked requestSchema json (walkPairs requestSchema json i ms {}).2 m ↔ RefusedAfter json ms m := by
  simp only [Blocked,RefusedAfter,walkPairs_empty_value i hms,fieldValue_isSome]

/-- The values behind an object, read on from what its own members have filled in. -/
theorem readOn_same_iff (hms : Admissible requestSchema json ms) {out : Output RequestField}
    (hout : (walkPairs requestSchema json (base + 1) ms {}).2 = out) (i n : ℕ) :
    ((if (walkPairs requestSchema json i (readOn cs).1 out).1 then
          if (readOn cs).2 then .error (.tokenIndex n)
          else .ok (complete requestSchema (walkPairs requestSchema json i (readOn cs).1 out).2,
            (walkPairs requestSchema json i (readOn cs).1 out).2)
        else .ok (false,(walkPairs requestSchema json i (readOn cs).1 out).2) : Except Crash _).map Request.ofResult =
        .ok (Request.ofResult (complete requestSchema out,out))) ↔
      ((readOn cs).2 = false ∧ ∀ m ∈ (readOn cs).1, idleMember requestSchema json m = true) ∨
        (complete requestSchema out = false ∧
          ∃ m, (readOn cs).1.find? (!idleMember requestSchema json ·) = some m ∧ RefusedAfter json ms m) := by
  rcases walkPairs_idleMembers requestSchema_counts i out (readOn cs).1 with
    ⟨hfind,hwalk⟩ | ⟨m,ps,i',hfind,hidle,hwalk⟩
  · have hall : ∀ m ∈ (readOn cs).1, idleMember requestSchema json m = true := by simpa using hfind
    simp only [hwalk,if_true]
    cases (readOn cs).2 with
    | true => simp [hfind,Except.map]
    | false => exact iff_of_true rfl (Or.inl ⟨rfl,hall⟩)
  · have hnot : ¬ ∀ m ∈ (readOn cs).1, idleMember requestSchema json m = true := by
      intro hall
      rw [hall m (List.mem_of_find?_eq_some hfind)] at hidle
      cases hidle
    have hrefused : (∃ m, (readOn cs).1.find? (!idleMember requestSchema json ·) = some m ∧
        RefusedAfter json ms m) ↔ RefusedAfter json ms m := by simp [hfind]
    rw [hrefused,hwalk,← blocked_iff hms (base + 1),hout]
    rcases walkPairs_activeMember i' out ps hidle with ⟨hblocked,hres⟩ | ⟨hblocked,f,hnone,hsome⟩
    · simp only [hres,hnot,and_false,false_or,hblocked,and_true,Bool.false_eq_true,if_false,Except.map,
        Except.ok.injEq]
      constructor
      · exact fun h => (congrArg Prod.fst h).symm
      · intro h
        rw [h]
    · simp only [hnot,hblocked,and_false,or_false,iff_false]
      intro h
      have hvalue : (walkPairs requestSchema json i' (m :: ps) out).2.value f = out.value f := by
        split at h
        · split at h
          · cases h
          · exact value_of_ofResult (Except.ok.inj h) f
        · exact value_of_ofResult (Except.ok.inj h) f
      rw [hvalue,hnone] at hsome
      cases hsome

theorem drop_take_element {ti : ℕ} {e : Rose Label} (hdrop : toks.drop ti = tokensOf (e :: cs)) :
    (toks.take (ti + e.count)).drop ti = tokensOf [e] := by
  have hcount : (tokensOf [e]).length = e.count := by rw [Jsmn.tokensOf_length,counts_cons,counts_nil,Nat.add_zero]
  have hsplit : tokensOf (e :: cs) = tokensOf [e] ++ tokensOf cs := Jsmn.tokensOf_append [e] cs
  rw [List.drop_take,hdrop,Nat.add_sub_cancel_left,hsplit,← hcount,List.take_left]

namespace ObjectAt

/-- The object alone. -/
theorem cut (h : ObjectAt toks base a ms cs) :
    ObjectAt (toks.take (base + (1 + counts (ms.map keyNode)))) base a ms [] where
  type := h.type
  keys := h.keys
  values := h.values
  behind := fun c hc => (List.not_mem_nil hc).elim
  tokens := by
    have hcut := drop_take_element h.tokens
    rwa [count_node,Nat.add_comm (counts _)] at hcut

/-- What is found in an object by itself. -/
theorem result_alone (h : ObjectAt toks base a ms []) (json : List UInt8) :
    (extractFromDict requestSchema toks json {} base (toks.length - base)).map Request.ofResult =
      .ok (Request.ofResult (ownResult json base ms)) := by
  rw [h.extract]
  simp only [readOn,List.append_nil,Bool.false_eq_true,if_false,ownResult]
  split
  · rename_i hok
    simp [Except.map,hok]
  · rename_i hok
    simp [Except.map,hok]

/-- What is found in an object is what is found in it by itself exactly if the values behind it
do not change it. -/
theorem result_iff (h : ObjectAt toks base a ms cs) (json : List UInt8) :
    (extractFromDict requestSchema toks json {} base (toks.length - base)).map Request.ofResult =
        .ok (Request.ofResult (ownResult json base ms)) ↔ Unaffected json ms cs := by
  rw [h.extract,walkPairs_append]
  by_cases hms : Admissible requestSchema json ms
  · have hok : (walkPairs requestSchema json (base + 1) ms {}).1 = true := (walkPairs_empty _ _ _ _).mpr hms
    obtain ⟨-,-,hcomplete,-⟩ := request_of_walk base hms rfl
    have hsame := @readOn_same_iff json base ms cs hms _ rfl (base + 1 + counts (ms.map keyNode)) toks.length
    simp only [hok,if_true,ownResult,Bool.true_and]
    rw [hsame,hcomplete,Unaffected]
    simp [hms]
  · have hok : ¬ (walkPairs requestSchema json (base + 1) ms {}).1 = true := by rwa [walkPairs_empty]
    simp only [hok,if_false,ownResult,Bool.false_and,Bool.false_eq_true]
    exact iff_of_true rfl (Or.inl hms)

end ObjectAt

/-- The text of the method of an object. -/
def methodText (json : List UInt8) (ms : List (Label × Rose Label)) : List UInt8 :=
  match ms.find? (fun m => keyText json m = ascii "method") with
  | some m => tokenText json (rootToken m.2)
  | none => []

/-- What an object is by its own members, and the number of tokens it is taken to have. -/
def ownPart (json : List UInt8) (base : ℕ) (ms : List (Label × Rose Label)) : Part × ℕ :=
  let (ok,request) := Request.ofResult (ownResult json base ms)
  if ok then
    match lookupMethod (methodText json ms) with
    | none => (.unknown request,requestTokens json ms)
    | some m => (.call m request,requestTokens json ms)
  else (.invalid request,1 + counts (ms.map keyNode))

/-- The verdict on an object that is a part, and its fields. -/
def Part.verdict : Part → Option (Bool × Request)
  | notObject => none
  | invalid request => some (false,request)
  | unknown request | call _ request => some (true,request)

theorem ofResult_fst (r : Bool × Output RequestField) : (Request.ofResult r).1 = r.1 := rfl

/-- An object is taken for a request by itself. -/
theorem ownResult_ok (json : List UInt8) (base : ℕ) (ms : List (Label × Rose Label)) :
    (ownResult json base ms).1 = true ↔
      Admissible requestSchema json ms ∧ ms.any (fun m => keyText json m = ascii "method") = true := by
  rw [ownResult,Bool.and_eq_true,walkPairs_empty]
  refine and_congr_right (fun hms => ?_)
  obtain ⟨-,-,hcomplete,-⟩ := request_of_walk base hms rfl
  rw [hcomplete]

theorem verdict_ownPart (json : List UInt8) (base : ℕ) (ms : List (Label × Rose Label)) :
    (ownPart json base ms).1.verdict = some (Request.ofResult (ownResult json base ms)) := by
  unfold ownPart
  cases hr : Request.ofResult (ownResult json base ms) with
  | mk ok request =>
    cases ok with
    | false => rfl
    | true =>
      simp only [if_true]
      cases lookupMethod (methodText json ms) <;> rfl

theorem ownPart_snd (json : List UInt8) (base : ℕ) (ms : List (Label × Rose Label)) :
    (ownPart json base ms).2 =
      if (ownResult json base ms).1 then requestTokens json ms else 1 + counts (ms.map keyNode) := by
  unfold ownPart
  rw [← ofResult_fst]
  cases hr : Request.ofResult (ownResult json base ms) with
  | mk ok request =>
    cases ok with
    | false => rfl
    | true =>
      simp only [if_true]
      cases lookupMethod (methodText json ms) <;> rfl

theorem ownResult_ntokens (json : List UInt8) (base : ℕ) (ms : List (Label × Rose Label))
    (hown : (ownResult json base ms).1 = true) :
    (Request.ofResult (ownResult json base ms)).2.requestNtokens = requestTokens json ms := by
  obtain ⟨hms,-⟩ := (ownResult_ok json base ms).mp hown
  obtain ⟨hntokens,-⟩ := request_of_walk base hms rfl
  rw [Request.ofResult,hown]
  exact hntokens

namespace ObjectAt

/-- The method of an object that is taken for a request by itself. -/
theorem requestMethod_own (h : ObjectAt toks base a ms cs) (hown : (ownResult json base ms).1 = true) :
    requestMethod toks json (Request.ofResult (ownResult json base ms)).2 =
      .ok (lookupMethod (methodText json ms)) := by
  obtain ⟨hms,hmethod⟩ := (ownResult_ok json base ms).mp hown
  have hvalue : (ownResult json base ms).2.value .method = _ := walkPairs_empty_value (base + 1) hms .method
  rw [← fieldValue_isSome_key (base + 1) (fieldOf_request · .method)] at hmethod
  obtain ⟨i,hi⟩ := Option.isSome_iff_exists.mp hmethod
  obtain ⟨m,hfind,hread⟩ := fieldValue_read (LiesAt.of_eq h.tokens).children hi
  simp only [fieldOf_request] at hfind
  simp only [requestMethod,(ofResult_value (ownResult json base ms)).1,hvalue,hi,hread,methodText,hfind]
  rfl

theorem requestPart_of_result (h : ObjectAt toks base a ms cs)
    (hresult : (extractFromDict requestSchema toks json {} base (toks.length - base)).map Request.ofResult =
      .ok (Request.ofResult (ownResult json base ms))) :
    requestPart toks json base (toks.length - base) = .ok (ownPart json base ms) := by
  have hmethod := @h.requestMethod_own json
  have hntokens := ownResult_ntokens json base ms
  rw [← ofResult_fst] at hmethod hntokens
  rw [h.requestPart_eq,hresult,ownPart]
  cases hr : Request.ofResult (ownResult json base ms) with
  | mk ok request =>
    rw [hr] at hmethod hntokens
    cases ok with
    | false => rfl
    | true =>
      have hstride : request.requestNtokens = requestTokens json ms := hntokens rfl
      have hnamed : requestMethod toks json request = _ := hmethod rfl
      simp only [bind,Except.bind,hnamed,Bool.not_true,Bool.false_eq_true,if_false,if_true]
      cases lookupMethod (methodText json ms) <;> simp only [hstride]

/-- The verdict on an object is the one of the part it is. -/
theorem verdict_of_requestPart (h : ObjectAt toks base a ms cs) {part : Part} {n : ℕ}
    (hpart : requestPart toks json base (toks.length - base) = .ok (part,n)) :
    ∃ r, (extractFromDict requestSchema toks json {} base (toks.length - base)).map Request.ofResult = .ok r ∧
      part.verdict = some r := by
  rw [h.requestPart_eq] at hpart
  obtain ⟨⟨ok,request⟩,hresult,hrest⟩ := exists_of_bind_ok hpart
  refine ⟨(ok,request),hresult,?_⟩
  cases ok with
  | false =>
    cases hrest
    rfl
  | true =>
    obtain ⟨m,-,hm⟩ := exists_of_bind_ok hrest
    cases m <;> cases hm <;> rfl

/-- An object is dispatched as what it is by itself exactly if the values behind it do not
change it. -/
theorem requestPart_own_iff (h : ObjectAt toks base a ms cs) (json : List UInt8) (n : ℕ) :
    requestPart toks json base (toks.length - base) = .ok ((ownPart json base ms).1,n) ↔
      Unaffected json ms cs ∧ n = (ownPart json base ms).2 := by
  constructor
  · intro hpart
    obtain ⟨r,hresult,hverdict⟩ := h.verdict_of_requestPart hpart
    rw [verdict_ownPart,Option.some.injEq] at hverdict
    rw [← hverdict] at hresult
    have hown := h.requestPart_of_result hresult
    rw [hpart,Except.ok.injEq] at hown
    exact ⟨(h.result_iff json).mp hresult,congrArg Prod.snd hown⟩
  · rintro ⟨hsame,rfl⟩
    exact h.requestPart_of_result ((h.result_iff json).mpr hsame)

/-- An object without values behind it is what it is by itself. -/
theorem requestPart_alone (h : ObjectAt toks base a ms []) (json : List UInt8) :
    requestPart toks json base (toks.length - base) = .ok (ownPart json base ms) :=
  h.requestPart_of_result (h.result_alone json)

end ObjectAt
end Own
end Lightsd.Core.Jsonrpc
