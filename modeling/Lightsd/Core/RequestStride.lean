import Lightsd.Core.BatchElements
import Lightsd.Core.JsonHandlers

/-! # The number of tokens of a request

For an object that is refused, the dispatcher goes on behind its last token. For one that
is taken for a request it goes on behind the number of tokens that a version, a method, the
parameters and an id would have, so that the number is right only if the other members have
as many tokens as a version and an id.
-/
namespace Lightsd.Core.Jsonrpc

open OrderedTree

/-- The members that are neither the method nor the parameters. -/
def otherMembers (json : List UInt8) (ms : List (Label × Rose Label)) : List (Label × Rose Label) :=
  ms.filter (fun m => keyText json m ≠ ascii "method" && keyText json m ≠ ascii "params")

/-- These have two tokens, and two more if there is an id. -/
def OwnStride (json : List UInt8) (ms : List (Label × Rose Label)) : Prop :=
  counts ((otherMembers json ms).map keyNode) =
    2 + (if ms.any (fun m => keyText json m = ascii "id") then 2 else 0)

instance (json : List UInt8) (ms : List (Label × Rose Label)) : Decidable (OwnStride json ms) :=
  inferInstanceAs (Decidable (_ = _))

section Counts
variable {json : List UInt8} {ms : List (Label × Rose Label)}

theorem counts_filter (p : Label × Rose Label → Bool) (ms : List (Label × Rose Label)) :
    counts (ms.map keyNode) =
      counts ((ms.filter p).map keyNode) + counts ((ms.filter (fun m => !p m)).map keyNode) := by
  induction ms with
  | nil => rfl
  | cons m ms ih =>
    cases hp : p m <;> simp [hp,counts_cons,ih] <;> omega

theorem filter_eq_toList_find? {α : Type} {p : α → Bool} {as : List α}
    (h : as.Pairwise (fun a b => p a = true → p b = false)) : as.filter p = (as.find? p).toList := by
  induction h with
  | nil => rfl
  | @cons a as ha _ ih =>
    cases hp : p a with
    | false => simp [hp,ih]
    | true =>
      have hnone : as.filter p = [] := List.filter_eq_nil_iff.mpr (fun b hb => by simp [ha b hb hp])
      simp [hp,hnone]

/-- A key of the table occurs once at most. -/
theorem once_of_admissible {f : RequestField} {key : List UInt8} (h : Admissible requestSchema json ms)
    (hkey : ∀ m, fieldOf requestSchema json m = some f ↔ keyText json m = key) :
    ms.Pairwise (fun m m' => decide (keyText json m = key) = true → decide (keyText json m' = key) = false) := by
  refine h.distinct.imp (fun {m m'} hd hm => ?_)
  rw [decide_eq_true_eq,← hkey] at hm
  exact decide_eq_false (fun hm' => hd f hm ((hkey m').mpr hm'))

/-- The name of the method is one token. -/
theorem method_count {m : Label × Rose Label} (h : Admissible requestSchema json ms) (hm : m ∈ ms)
    (hvalues : ∀ m ∈ ms, Shaped m.2) (hkey : keyText json m = ascii "method") : m.2.count = 1 := by
  have hpass := h.types m hm
  have hrow : rowOf requestSchema json m = rowFor requestSchema (ascii "method") := by
    rw [← hkey]
    rfl
  have hfind : ∃ node, rowFor requestSchema (ascii "method") = some node ∧ node.typeCmp = typeString := ⟨_,rfl,rfl⟩
  obtain ⟨node,hnode,htype⟩ := hfind
  have hstring : (rootToken m.2).type = .string := by
    rw [passesType,hrow,hnode] at hpass
    simpa [htype,typeString] using hpass
  exact (hvalues m hm).count_eq_one (by simp [isContainer,hstring])

theorem params_ne_method : ascii "params" ≠ ascii "method" := by decide

/-- The tokens of the members, by what they are to a request. -/
theorem counts_members (h : Admissible requestSchema json ms) (hvalues : ∀ m ∈ ms, Shaped m.2)
    (hmethod : ms.any (fun m => keyText json m = ascii "method") = true) :
    counts (ms.map keyNode) = 2 +
      (ms.find? (fun m => keyText json m = ascii "params")).elim 0 (fun m => 1 + m.2.count) +
        counts ((otherMembers json ms).map keyNode) := by
  have hothers : (ms.filter (fun m => !decide (keyText json m = ascii "method"))).filter
      (fun m => !decide (keyText json m = ascii "params")) = otherMembers json ms := by
    rw [List.filter_filter,otherMembers]
    congr 1
    funext m
    simp [Bool.and_comm]
  have hparams : (ms.filter (fun m => !decide (keyText json m = ascii "method"))).filter
      (fun m => decide (keyText json m = ascii "params")) =
        (ms.find? (fun m => keyText json m = ascii "params")).toList := by
    rw [← filter_eq_toList_find? (once_of_admissible h (fieldOf_request · .params)),List.filter_filter]
    congr 1
    funext m
    by_cases hkey : keyText json m = ascii "params" <;> simp [hkey,params_ne_method]
  have hname : counts ((ms.filter (fun m => decide (keyText json m = ascii "method"))).map keyNode) = 2 := by
    obtain ⟨m,hfind⟩ : ∃ m, ms.find? (fun m => decide (keyText json m = ascii "method")) = some m := by
      rwa [List.any_eq_true,← List.find?_isSome,Option.isSome_iff_exists] at hmethod
    have hcount := method_count h (List.mem_of_find?_eq_some hfind) hvalues (by simpa using List.find?_some hfind)
    rw [filter_eq_toList_find? (once_of_admissible h (fieldOf_request · .method)),hfind]
    simp [counts_cons,count_keyNode,hcount]
  rw [counts_filter (fun m => decide (keyText json m = ascii "method")),hname,
    counts_filter (fun m => decide (keyText json m = ascii "params")) (ms.filter _),hparams,hothers]
  cases ms.find? (fun m => decide (keyText json m = ascii "params")) with
  | none => simp
  | some m =>
    simp [counts_cons,count_keyNode]
    omega

/-- The number that a request is taken to have is its own exactly in that case. -/
theorem requestTokens_own_iff (h : Admissible requestSchema json ms) (hvalues : ∀ m ∈ ms, Shaped m.2)
    (hmethod : ms.any (fun m => keyText json m = ascii "method") = true) :
    requestTokens json ms = 1 + counts (ms.map keyNode) ↔ OwnStride json ms := by
  rw [counts_members h hvalues hmethod,requestTokens,OwnStride]
  cases ms.find? (fun m => decide (keyText json m = ascii "params")) with
  | none =>
    simp only [Option.elim]
    omega
  | some m =>
    simp only [Option.elim]
    omega

end Counts

section Dispatch
variable {toks : List Token} {json : List UInt8} {base : ℕ} {a : Label} {ms : List (Label × Rose Label)}

/-- Whatever the handlers do, an object among its own tokens is served as one part, and the
number of tokens that is returned for it is its own unless it is taken for a request whose
other members do not have as many tokens as a version and an id. -/
theorem own_tokens_iff (h : ObjectAt toks base a ms []) : ∃ part n,
    (∀ {W : Type} (handlers : Method → Handler W) (batchSent : Option ℕ) (s : Session W),
      dispatchOne handlers toks json base (toks.length - base) batchSent s =
        (servePart handlers toks json part (batchSent.map (· + 1)) s).map (fun r => (r.1,r.2,n))) ∧
    (n = (Rose.node a (ms.map keyNode)).count ↔
      (Taken json (.node a (ms.map keyNode)) → OwnStride json ms)) := by
  refine ⟨(ownPart json base ms).1,(ownPart json base ms).2,fun {W} handlers batchSent s => ?_,?_⟩
  · rw [dispatchOne_eq,h.requestPart_alone]
    change (servePart handlers toks json (ownPart json base ms).1 (batchSent.map (· + 1)) s >>= _) = _
    cases servePart handlers toks json (ownPart json base ms).1 (batchSent.map (· + 1)) s <;> rfl
  · rw [h.taken_iff,ownPart_snd,count_node,Nat.add_comm (counts _)]
    cases hown : (ownResult json base ms).1 with
    | false => simp
    | true =>
      obtain ⟨hms,hmethod⟩ := (ownResult_ok json base ms).mp hown
      rw [if_pos rfl,requestTokens_own_iff hms h.values hmethod]
      simp

theorem own_tokens_iff_plain : ∃ part n,
    (∀ {W : Type} (handlers : Method → Handler W) (batchSent : Option ℕ) (s : Session W),
      dispatchOne handlers (tokensOf [plainRequest 1]) plainJson 0 ((tokensOf [plainRequest 1]).length - 0)
          batchSent s =
        (servePart handlers (tokensOf [plainRequest 1]) plainJson part (batchSent.map (· + 1)) s).map
          (fun r => (r.1,r.2,n))) ∧
    (n = (plainRequest 1).count ↔ (Taken plainJson (plainRequest 1) → OwnStride plainJson (plainMembers 1))) := by
  have hat : ObjectAt (tokensOf [plainRequest 1]) 0 ⟨.object,1,1 + 39⟩ (plainMembers 1) [] := by
    refine ⟨rfl,by simp [plainMembers],?_,nofun,rfl⟩
    intro m hm
    simp only [plainMembers,List.mem_cons,List.not_mem_nil,or_false] at hm
    rcases hm with rfl | rfl | rfl
    · exact .leaf _ (.inl rfl)
    · exact .leaf _ (.inl rfl)
    · exact .leaf _ (.inr rfl)
  exact own_tokens_iff hat

/-- A request of three tokens. -/
def briefJson : List UInt8 := ascii "\x7b\"method\":\"blink\"\x7d"

def briefToks : List Token := (parseTokens briefJson).getD []

/-- Five tokens are returned for it. -/
theorem brief_request_overcounted :
    briefToks = tokensOf [.node ⟨.object,0,18⟩ [.node ⟨.string,2,8⟩ [.node ⟨.string,11,16⟩ []]]] ∧
    (dispatchOne (methodHandlers plainSetting briefToks briefJson) briefToks briefJson 0 briefToks.length none
      ⟨{},⟨some [],some [],none⟩⟩).map (fun r => r.2.2) = .ok 5 ∧ briefToks.length = 3 := by
  refine ⟨?_,?_,?_⟩ <;> decide +kernel

end Dispatch
end Lightsd.Core.Jsonrpc
