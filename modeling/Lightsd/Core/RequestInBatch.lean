import Lightsd.Core.OwnParts

/-! # Requests with other values behind them

The walk over the members of a request does not end with the object. It goes on with the
elements of the batch that follow, for as long as it finds a string where it expects a key,
and reads them as if they were further members of the object.
-/
namespace Lightsd.Core.Jsonrpc

open OrderedTree Json

/-- The elements behind an object that are read as members, and whether the last of them is
a string that is taken for a key without a value. -/
def runOn : List Value → Entries × Bool
  | .string key :: v :: vs => ((key,v) :: (runOn vs).1,(runOn vs).2)
  | [.string _] => ([],true)
  | _ => ([],false)

section Walk
variable {json : List UInt8}

theorem shown_string {t : Rose Label} {key : List UInt8} (h : Shown json t (.string key)) :
    ∃ a, t = .node a [] ∧ a.type = .string ∧ tokenText json (Label.token (a,1)) = key := by
  obtain ⟨pos,rest,rfl,-,hdrop,-⟩ := h
  rw [Value.node]
  refine ⟨_,rfl,rfl,?_⟩
  have hkey : json.drop (pos + 1) = key ++ (34 :: rest) := by
    have hsplit : json.drop pos = [34] ++ (key ++ (34 :: rest)) := by simpa [Value.text,quoted] using hdrop
    exact drop_of_drop hsplit
  have hlen : tokenLen (Label.token ((⟨.string,pos + 1,pos + 1 + key.length⟩ : Label),1)) = key.length := by
    simp only [tokenLen,Label.token]
    omega
  rw [tokenText,hlen]
  simp only [Label.token,hkey,List.take_left]

/-- The trees that are read on are those of the members that are. -/
theorem readOn_shown {vs : List Value} {cs : List (Rose Label)} (h : List.Forall₂ (Shown json) cs vs) :
    List.Forall₂ (ShownMember json) (readOn cs).1 (runOn vs).1 ∧ (readOn cs).2 = (runOn vs).2 := by
  have hroot : ∀ {t : Rose Label} {v : Value}, Shown json t v →
      ((rootToken t).type = .string ↔ ∃ key, v = .string key) := by
    rintro t v ⟨pos,rest,rfl,-⟩
    cases v <;> simp [Value.node,rootToken,Label.token]
  fun_induction runOn vs generalizing cs with
  | case1 key v vs ih =>
    cases h with
    | cons hc h =>
      cases h with
      | cons ht h =>
        obtain ⟨a,rfl,ha,htext⟩ := shown_string hc
        obtain ⟨hms,hlast⟩ := ih h
        simp only [readOn,(hroot hc).mpr ⟨key,rfl⟩,if_true]
        exact ⟨.cons ⟨ha,htext,ht⟩ hms,hlast⟩
  | case2 key =>
    cases h with
    | cons hc h =>
      cases h with
      | nil => exact ⟨.nil,by simp [readOn,(hroot hc).mpr ⟨key,rfl⟩]⟩
  | case3 vs hne hne' =>
    cases h with
    | nil => exact ⟨.nil,rfl⟩
    | @cons c v cs vs hc h =>
      have hother : ¬ (rootToken c).type = .string := by
        rw [hroot hc]
        rintro ⟨key,rfl⟩
        cases vs with
        | nil => exact hne' key rfl
        | cons v vs => exact hne key v vs rfl
      cases h with
      | nil => simp [readOn,hother]
      | cons => simp [readOn,hother]

end Walk

/-- The members are checked without a failure, if required ones are not asked for. -/
def MembersTaken (es : Entries) : Prop :=
  (∀ e ∈ es, EntryTaken e) ∧
    es.Pairwise (fun e e' => e.1 ∈ [ascii "method",ascii "params",ascii "id"] → e.1 ≠ e'.1)

/-- A member that changes nothing. -/
def idle (e : List UInt8 × Value) : Bool :=
  e.1 ∉ [ascii "method",ascii "params",ascii "id"] && (e.1 ≠ ascii "jsonrpc" || e.2.isString)

/-- A member that has the wrong type, or comes a second time. -/
def Refused (es : Entries) (e : List UInt8 × Value) : Prop :=
  ¬ EntryTaken e ∨ e.1 ∈ [ascii "method",ascii "params",ascii "id"] ∧ ∃ e' ∈ es, e'.1 = e.1

/-- What follows does not change the meaning of an object: it is refused for its own
members, or all that is read on changes nothing, or it is refused for its missing method
and the first member that would change something is refused as well. -/
def SameInBatch (es : Entries) (vs : List Value) : Prop :=
  ¬ MembersTaken es ∨ ((runOn vs).2 = false ∧ ∀ e ∈ (runOn vs).1, idle e = true) ∨
    ((∀ v, (ascii "method",v) ∉ es) ∧ ∃ e, (runOn vs).1.find? (!idle ·) = some e ∧ Refused es e)

section Members
variable {json : List UInt8} {e : List UInt8 × Value} {m : Label × Rose Label} {ms : List (Label × Rose Label)}
  {es : Entries}

theorem fieldFor_eq_none (key : List UInt8) : fieldFor requestSchema key = none ↔
    key ∉ [ascii "method",ascii "params",ascii "id"] := by
  constructor
  · intro hnone hkey
    obtain ⟨f,hf⟩ := exists_field hkey
    rw [hnone] at hf
    cases hf
  · intro hkey
    cases hf : fieldFor requestSchema key with
    | none => rfl
    | some f =>
      rw [fieldFor_request] at hf
      cases f <;> simp [hf] at hkey

theorem idleMember_shown (h : ShownMember json m e) : idleMember requestSchema json m = idle e := by
  rw [Bool.eq_iff_iff,idleMember,Bool.and_eq_true,passesType_request h,fieldOf_shown h,Option.isNone_iff_eq_none,
    fieldFor_eq_none]
  simp only [idle,EntryTaken,Bool.and_eq_true,Bool.or_eq_true,decide_eq_true_eq,List.mem_cons,List.not_mem_nil,
    or_false,not_or,imp_iff_not_or]
  tauto

theorem refusedAfter_shown (hms : List.Forall₂ (ShownMember json) ms es) (h : ShownMember json m e) :
    RefusedAfter json ms m ↔ Refused es e := by
  rw [RefusedAfter,Refused,← Bool.not_eq_true,passesType_request h,fieldOf_shown h]
  refine or_congr_right ?_
  have hmem (f : RequestField) : (∃ m' ∈ ms, fieldOf requestSchema json m' = some f) ↔
      ∃ e' ∈ es, fieldFor requestSchema e'.1 = some f :=
    exists_mem_iff_of_forall₂ hms (fun _ _ hme => by rw [fieldOf_shown hme])
  simp only [hmem]
  constructor
  · rintro ⟨f,hf,e',he',hf'⟩
    rw [fieldFor_request] at hf hf'
    exact ⟨by cases f <;> simp [hf],e',he',hf'.trans hf.symm⟩
  · rintro ⟨hkey,e',he',heq⟩
    obtain ⟨f,hf⟩ := exists_field hkey
    exact ⟨f,hf,e',he',by rw [heq,hf]⟩

/-- What does not change an object is told by the members and the values alone. -/
theorem unaffected_shown (hms : List.Forall₂ (ShownMember json) ms es) {cs : List (Rose Label)} {vs : List Value}
    (hcs : List.Forall₂ (Shown json) cs vs) : Unaffected json ms cs ↔ SameInBatch es vs := by
  obtain ⟨hps,hlast⟩ := readOn_shown hcs
  have htaken : Admissible requestSchema json ms ↔ MembersTaken es := by
    rw [admissible_shown hms (fun m e hme => passesType_request hme),distinct_request,MembersTaken]
  have hidle : (∀ m ∈ (readOn cs).1, idleMember requestSchema json m = true) ↔ ∀ e ∈ (runOn vs).1, idle e = true :=
    forall_mem_iff_of_forall₂ hps (fun m e hme => by rw [idleMember_shown hme])
  have hmethod : ms.any (fun m => keyText json m = ascii "method") = false ↔ ∀ v, (ascii "method",v) ∉ es := by
    have hkey : (∃ m ∈ ms, keyText json m = ascii "method") ↔ ∃ e ∈ es, e.1 = ascii "method" :=
      exists_mem_iff_of_forall₂ hms (fun m e hme => by rw [keyText,hme.key])
    rw [← Bool.not_eq_true,List.any_eq_true]
    simp only [decide_eq_true_eq,hkey,not_exists,not_and]
    exact ⟨fun h v hv => h _ hv rfl,fun h e he hkey => h e.2 (hkey ▸ he)⟩
  have hfirst : (∃ m, (readOn cs).1.find? (!idleMember requestSchema json ·) = some m ∧ RefusedAfter json ms m) ↔
      ∃ e, (runOn vs).1.find? (!idle ·) = some e ∧ Refused es e :=
    exists_find?_iff_of_forall₂ hps (fun m e hme => by rw [idleMember_shown hme])
      (fun m e hme => refusedAfter_shown hms hme)
  rw [Unaffected,SameInBatch,htaken,hlast,hidle,hmethod,hfirst]

end Members

/-- Both calls return, with the same verdict and the same fields. -/
def SameRequest (x y : Except Crash (Bool × Request)) : Prop :=
  ∃ ok req req', x = .ok (ok,req) ∧ y = .ok (ok,req') ∧ req.method = req'.method ∧
    req.params = req'.params ∧ req.paramsNtokens = req'.paramsNtokens ∧ req.id = req'.id

/-- A verdict and fields that come from a walk are the same only if they are equal. -/
theorem sameRequest_iff {x : Except Crash (Bool × Output RequestField)} {r : Bool × Output RequestField} :
    SameRequest (x.map Request.ofResult) (.ok (Request.ofResult r)) ↔
      x.map Request.ofResult = .ok (Request.ofResult r) := by
  constructor
  · rintro ⟨ok,req,req',hx,hr,hmethod,hparams,hntokens,hid⟩
    cases x with
    | error c => cases hx
    | ok r' =>
      have hok : r'.1 = r.1 := (congrArg Prod.fst (Except.ok.inj hx)).trans (congrArg Prod.fst (Except.ok.inj hr)).symm
      obtain rfl : (Request.ofResult r').2 = req := congrArg Prod.snd (Except.ok.inj hx)
      obtain rfl : (Request.ofResult r).2 = req' := congrArg Prod.snd (Except.ok.inj hr)
      obtain ⟨hm,hp,hi⟩ := ofResult_value r
      obtain ⟨hm',hp',hi'⟩ := ofResult_value r'
      rw [hm,hm'] at hmethod
      rw [hp,hp'] at hparams
      rw [hi,hi'] at hid
      rw [ofResult_paramsNtokens,ofResult_paramsNtokens] at hntokens
      have hfields : Request.ofOutput r'.2 = Request.ofOutput r.2 := by
        simp only [Request.ofOutput,hmethod,hparams,hntokens,hid]
      rw [Except.map,Except.ok.injEq,Request.ofResult,Request.ofResult,hfields,hok]
  · intro h
    rw [h]
    exact ⟨_,_,_,rfl,rfl,rfl,rfl,rfl,rfl⟩

section Batch
variable {toks : List Token} {json space after r : List UInt8} {base pos : ℕ} {members : Members} {items : Items}

/-- An object and the elements behind it, as they lie among the tokens. -/
theorem objectAt_of_text (hv : (Value.object space members).Valid) (hitems : items.Valid)
    (hjson : json.drop pos = (Value.object space members).text ++ (after ++ (items.text false ++ 93 :: r)))
    (htoks : toks.drop base = tokensOf ((Value.object space members).node pos ::
      items.nodes false (pos + (Value.object space members).text.length + after.length))) :
    ObjectAt toks base ⟨.object,pos,pos + (Value.object space members).text.length⟩ (memberTrees pos space members)
        (items.nodes false (pos + (Value.object space members).text.length + after.length)) ∧
      List.Forall₂ (Shown json) (items.nodes false (pos + (Value.object space members).text.length + after.length))
        items.values := by
  have hshown := shown_items hitems (drop_of_drop (drop_of_drop hjson))
  rw [object_node] at htoks
  refine ⟨⟨rfl,memberTrees_string hv hjson,memberTrees_shaped hv hjson,?_,htoks⟩,hshown⟩
  exact (forall_mem_iff_of_forall₂ hshown (fun _ _ hc => iff_of_true hc.shaped trivial)).mpr (fun _ _ => trivial)

/-- A request means the same with other elements behind it exactly if those are not taken
for members that change it. -/
theorem checkAndExtractRequest_same_iff (hv : (Value.object space members).Valid)
    (hitems : items.Valid)
    (hjson : json.drop pos = (Value.object space members).text ++ (after ++ (items.text false ++ 93 :: r)))
    (htoks : toks.drop base = tokensOf ((Value.object space members).node pos ::
      items.nodes false (pos + (Value.object space members).text.length + after.length))) :
    SameRequest
        (checkAndExtractRequest toks json base ((Value.object space members).ntokens + items.ntokens))
        (checkAndExtractRequest toks json base (Value.object space members).ntokens) ↔
      SameInBatch members.entries items.values := by
  obtain ⟨hat,hshown⟩ := objectAt_of_text hv hitems hjson htoks
  have hn : toks.length - base = (Value.object space members).ntokens + items.ntokens := by
    rw [hat.ntokens_eq,object_ntokens pos,Items.counts_nodes]
  have halone : extractFromDict requestSchema toks json {} base (Value.object space members).ntokens =
      .ok (ownResult json base (memberTrees pos space members)) :=
    extractFromDict_alone hv hjson (LiesAt.of_eq htoks) {}
  have hall := hat.result_iff json
  rw [hn,← sameRequest_iff] at hall
  rw [checkAndExtractRequest_eq,checkAndExtractRequest_eq,halone]
  exact hall.trans (unaffected_shown (object_shown hv hjson) hshown)

end Batch

section Trailing

/-- The members of a notification. -/
def notification : Members :=
  .cons [] (ascii "jsonrpc") [] [] (.string (ascii "2.0")) []
    (.cons [] (ascii "method") [] [] (.string (ascii "power_on")) [] .nil)

/-- A string and a number that look like a member. -/
def trailingId : Items :=
  .cons [] (.string (ascii "id")) [] (.cons [] (.primitive (ascii "1")) [] .nil)

def trailedBatch : Value := .array [] (.cons [] (.object [] notification) [] trailingId)

theorem checkAndExtractRequest_same_iff_trailed :
    ((Value.object [] notification).Valid ∧ trailingId.Valid) ∧
    (SameRequest
        (checkAndExtractRequest (tokensOf [trailedBatch.node 0]) trailedBatch.text 1
          ((Value.object [] notification).ntokens + trailingId.ntokens))
        (checkAndExtractRequest (tokensOf [trailedBatch.node 0]) trailedBatch.text 1
          (Value.object [] notification).ntokens) ↔
      SameInBatch notification.entries trailingId.values) := by
  have hv : (Value.object [] notification).Valid := by
    simp only [Value.Valid,notification,Members.Valid]
    refine ⟨nofun,nofun,by decide +kernel,nofun,nofun,by decide +kernel,nofun,nofun,by decide +kernel,nofun,
      nofun,by decide +kernel,nofun,trivial⟩
  have hitems : trailingId.Valid := by
    simp only [trailingId,Items.Valid,Value.Valid]
    refine ⟨nofun,by decide +kernel,nofun,nofun,by decide +kernel,nofun,trivial⟩
  have hjson : trailedBatch.text.drop 1 =
      (Value.object [] notification).text ++ ([] ++ (trailingId.text false ++ 93 :: [])) := rfl
  exact ⟨⟨hv,hitems⟩,checkAndExtractRequest_same_iff hv hitems hjson rfl⟩

/-- A notification with a string and a number behind it is taken for a request with an id. -/
theorem notification_gets_id :
    ∃ req req', checkAndExtractRequest (tokensOf [trailedBatch.node 0]) trailedBatch.text 1
        ((Value.object [] notification).ntokens + trailingId.ntokens) = .ok (true,req) ∧
      checkAndExtractRequest (tokensOf [trailedBatch.node 0]) trailedBatch.text 1
        (Value.object [] notification).ntokens = .ok (true,req') ∧
      req.id = some 7 ∧ req'.id = none :=
  ⟨_,_,rfl,rfl,rfl,rfl⟩

end Trailing
end Lightsd.Core.Jsonrpc
