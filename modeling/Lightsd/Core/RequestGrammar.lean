import Lightsd.Core.JsonRequests
import Lightsd.Core.SchemaEntries

/-! # The grammar of requests

Which objects are taken for requests, compared with what a request should be. They differ
in two of the four members: the version may be missing, as nothing is filled in for it,
and the id may be an object or an array but not null.
-/
namespace Lightsd.Core

open OrderedTree Jsonrpc

namespace Json.Value

def isString : Value → Bool
  | .string _ => true
  | _ => false

def isContainer : Value → Bool
  | .array .. | .object .. => true
  | _ => false

/-- An object or an array with something in it. -/
def isFilled : Value → Bool
  | .array _ (.cons ..) | .object _ (.cons ..) => true
  | _ => false

def isNumber : Value → Bool
  | .primitive (c :: _) => c = 45 || isDigit c
  | _ => false

def isNull : Value → Bool
  | .primitive chars => chars = ascii "null"
  | _ => false

theorem other_of_isFilled {v : Value} (h : v.isFilled = true) :
    ¬ v.isString = true ∧ ¬ v.isNumber = true ∧ ¬ v.isNull = true := by
  cases v <;> simp_all [isFilled,isString,isNumber,isNull]

theorem other_of_isNull {v : Value} (h : v.isNull = true) :
    ¬ v.isString = true ∧ ¬ v.isNumber = true ∧ ¬ v.isFilled = true := by
  cases v with
  | primitive chars =>
    obtain rfl : chars = ascii "null" := by simpa [isNull] using h
    decide
  | string chars => simp [isNull] at h
  | array space items => simp [isNull] at h
  | object space members => simp [isNull] at h

end Json.Value

namespace Jsonrpc

open Json

section Types
variable {json : List UInt8} {t : Rose Label} {v : Value}

theorem typeString_shown (h : Shown json t v) : typeString (rootToken t) json = v.isString := by
  obtain ⟨pos,rest,rfl,-,-,-⟩ := h
  cases v <;> simp [Value.node,rootToken,Label.token,typeString,Value.isString]

theorem typeObjectOrArray_shown (h : Shown json t v) :
    typeObjectOrArray (rootToken t) json = v.isContainer := by
  obtain ⟨pos,rest,rfl,-,-,-⟩ := h
  cases v <;> simp [Value.node,rootToken,Label.token,typeObjectOrArray,Value.isContainer]

theorem typeNumber_shown (h : Shown json t v) : typeNumber (rootToken t) json = v.isNumber := by
  obtain ⟨pos,rest,rfl,hv,hdrop,-⟩ := h
  cases v with
  | primitive chars =>
    cases chars with
    | nil => simp [Value.Valid,primitiveChars] at hv
    | cons c cs =>
      rw [Value.text,List.cons_append] at hdrop
      simp [Value.node,rootToken,Label.token,typeNumber,Value.isNumber,byteAt_of_drop hdrop]
  | string chars => simp [Value.node,rootToken,Label.token,typeNumber,Value.isNumber]
  | array space items => simp [Value.node,rootToken,Label.token,typeNumber,Value.isNumber]
  | object space members => simp [Value.node,rootToken,Label.token,typeNumber,Value.isNumber]

/-- A token with children differs from null in its first byte. -/
theorem typeNull_of_byte {tok : Token} {c : UInt8} (hc : byteAt json tok.start = c) (hne : c ≠ 110) :
    typeNull tok json = decide (0 < tok.size) := by
  have hfirst : (ascii "null").getD 0 0 = 110 := by decide
  unfold typeNull
  cases hsize : tok.size with
  | zero => simp
  | succ n =>
    have hmin : min (n + 1) 5 = min n 4 + 1 := by omega
    have hbyte : byteAt json (tok.start + 0) ≠ (ascii "null").getD 0 0 := by
      rw [Nat.add_zero,hc,hfirst]
      exact hne
    simp only [hmin,List.range_succ_eq_map,List.any_cons]
    simp only [decide_eq_true hbyte,Bool.true_or]
    simp

theorem typeNull_shown (h : Shown json t v) : typeNull (rootToken t) json = v.isFilled := by
  obtain ⟨pos,rest,rfl,-,hdrop,-⟩ := h
  cases v with
  | string chars => simp [Value.node,rootToken,Label.token,typeNull,Value.isFilled]
  | primitive chars => simp [Value.node,rootToken,Label.token,typeNull,Value.isFilled]
  | array space items =>
    rw [Value.text,List.cons_append] at hdrop
    have hbyte : byteAt json (rootToken ((Value.array space items).node pos)).start = 91 := by
      simpa [Value.node,rootToken,Label.token] using byteAt_of_drop hdrop
    rw [typeNull_of_byte hbyte (by decide)]
    cases items <;> simp [Value.node,rootToken,Label.token,Items.nodes,Value.isFilled]
  | object space members =>
    rw [Value.text,List.cons_append] at hdrop
    have hbyte : byteAt json (rootToken ((Value.object space members).node pos)).start = 123 := by
      simpa [Value.node,rootToken,Label.token] using byteAt_of_drop hdrop
    rw [typeNull_of_byte hbyte (by decide)]
    cases members <;> simp [Value.node,rootToken,Label.token,Members.nodes,Value.isFilled]

theorem typeStringNumberOrNull_shown (h : Shown json t v) :
    typeStringNumberOrNull (rootToken t) json = (v.isNumber || v.isFilled || v.isString) := by
  rw [typeStringNumberOrNull,typeNumber_shown h,typeNull_shown h,typeString_shown h]

end Types

abbrev Entries := List (List UInt8 × Value)

/-- What the members of a request should be. -/
structure IsRequest (es : Entries) : Prop where
  version : ∃ v, (ascii "jsonrpc",v) ∈ es ∧ v.isString
  method : ∃ v, (ascii "method",v) ∈ es ∧ v.isString
  params : ∀ v, (ascii "params",v) ∈ es → v.isContainer
  id : ∀ v, (ascii "id",v) ∈ es → v.isString ∨ v.isNumber ∨ v.isNull
  unique : es.Pairwise (fun e e' => e.1 ∈ [ascii "method",ascii "params",ascii "id"] → e.1 ≠ e'.1)

/-- The members are those of a request, its version and its id apart. -/
structure Callable (es : Entries) : Prop where
  method : ∃ v, (ascii "method",v) ∈ es ∧ v.isString
  params : ∀ v, (ascii "params",v) ∈ es → v.isContainer
  unique : es.Pairwise (fun e e' => e.1 ∈ [ascii "method",ascii "params",ascii "id"] → e.1 ≠ e'.1)

/-- Nothing but strings for versions, and an id that is checked as the source does it. -/
def VersionAndIdTaken (es : Entries) : Prop :=
  (∀ v, (ascii "jsonrpc",v) ∈ es → v.isString) ∧
    ∀ v, (ascii "id",v) ∈ es → v.isString ∨ v.isNumber ∨ v.isFilled

/-- There is no version, or the id is an object or an array with something in it. -/
def TakenByMistake (es : Entries) : Prop :=
  VersionAndIdTaken es ∧ ((∀ v, (ascii "jsonrpc",v) ∉ es) ∨ ∃ v, (ascii "id",v) ∈ es ∧ v.isFilled)

/-- The id is null, or there is another version that is no string. -/
def RefusedByMistake (es : Entries) : Prop :=
  (∃ v, (ascii "jsonrpc",v) ∈ es ∧ v.isString) ∧
    (∀ v, (ascii "id",v) ∈ es → v.isString ∨ v.isNumber ∨ v.isNull) ∧
    ((∃ v, (ascii "jsonrpc",v) ∈ es ∧ ¬ v.isString) ∨ ∃ v, (ascii "id",v) ∈ es ∧ v.isNull)

section Check
variable {json : List UInt8} {e : List UInt8 × Value} {m : Label × Rose Label}

theorem requestSchema_keys : (requestSchema.map Node.key).Nodup := by decide

theorem requestSchema_counts : CountsValues requestSchema := by
  intro node hnode f
  simp only [requestSchema,List.mem_cons,List.not_mem_nil,or_false] at hnode
  rcases hnode with rfl | rfl | rfl | rfl <;> simp

theorem fieldFor_request (key : List UInt8) (f : RequestField) : fieldFor requestSchema key = some f ↔
    key = match f with | .method => ascii "method" | .params => ascii "params" | .id => ascii "id" := by
  rw [fieldFor_eq_some requestSchema_keys]
  cases f <;> simp [requestSchema,eq_comm]

theorem exists_field {key : List UInt8} (h : key ∈ [ascii "method",ascii "params",ascii "id"]) :
    ∃ f, fieldFor requestSchema key = some f := by
  simp only [List.mem_cons,List.not_mem_nil,or_false] at h
  rcases h with hkey | hkey | hkey
  · exact ⟨.method,(fieldFor_request _ _).mpr hkey⟩
  · exact ⟨.params,(fieldFor_request _ _).mpr hkey⟩
  · exact ⟨.id,(fieldFor_request _ _).mpr hkey⟩

/-- The value of a member passes the check of the source. -/
def EntryTaken (e : List UInt8 × Value) : Prop :=
  (e.1 = ascii "jsonrpc" → e.2.isString) ∧ (e.1 = ascii "method" → e.2.isString) ∧
    (e.1 = ascii "params" → e.2.isContainer) ∧
    (e.1 = ascii "id" → e.2.isString ∨ e.2.isNumber ∨ e.2.isFilled)

theorem passesType_request (h : ShownMember json m e) :
    passesType requestSchema json m = true ↔ EntryTaken e := by
  rw [passesType_shown requestSchema_keys h]
  simp [EntryTaken,requestSchema,typeString_shown h.value,typeObjectOrArray_shown h.value,
    typeStringNumberOrNull_shown h.value]
  tauto

/-- What the code takes for a request. -/
def RequestTaken (es : Entries) : Prop := Callable es ∧ VersionAndIdTaken es

theorem distinct_request (es : Entries) :
    es.Pairwise (fun e e' => ∀ f, fieldFor requestSchema e.1 = some f →
      fieldFor requestSchema e'.1 ≠ some f) ↔
    es.Pairwise (fun e e' => e.1 ∈ [ascii "method",ascii "params",ascii "id"] → e.1 ≠ e'.1) := by
  refine iff_of_eq (congrArg (es.Pairwise ·) ?_)
  funext e e'
  refine propext ⟨fun h hmem heq => ?_,fun h f hf hf' => ?_⟩
  · obtain ⟨f,hf⟩ := exists_field hmem
    exact h f hf (heq ▸ hf)
  · rw [fieldFor_request] at hf hf'
    refine h ?_ (hf.trans hf'.symm)
    cases f <;> simp [hf]

theorem forall_entries {es : Entries} {key : List UInt8} {p : Value → Prop} :
    (∀ e ∈ es, e.1 = key → p e.2) ↔ ∀ v, (key,v) ∈ es → p v := by
  constructor
  · exact fun h v hv => h (key,v) hv rfl
  · rintro h ⟨k,v⟩ he rfl
    exact h v he

theorem taken_request (es : Entries) :
    ((∀ e ∈ es, EntryTaken e) ∧ ∃ e ∈ es, e.1 = ascii "method") ↔
    (∃ v, (ascii "method",v) ∈ es) ∧ (∀ v, (ascii "method",v) ∈ es → v.isString) ∧
      (∀ v, (ascii "params",v) ∈ es → v.isContainer) ∧ VersionAndIdTaken es := by
  have hmethod : (∃ e ∈ es, e.1 = ascii "method") ↔ ∃ v, (ascii "method",v) ∈ es := by
    constructor
    · rintro ⟨⟨k,v⟩,he,rfl⟩
      exact ⟨v,he⟩
    · rintro ⟨v,hv⟩
      exact ⟨_,hv,rfl⟩
  simp only [EntryTaken,forall_and,hmethod,VersionAndIdTaken,
    ← forall_entries (p := fun v => v.isString = true),← forall_entries (p := fun v => v.isContainer = true),
    ← forall_entries (p := fun v => v.isString = true ∨ v.isNumber = true ∨ v.isFilled = true)]
  tauto

/-- A member that may not occur twice occurs with one value. -/
theorem unique_entry {keys : List (List UInt8)} {es : Entries}
    (h : es.Pairwise (fun e e' => e.1 ∈ keys → e.1 ≠ e'.1)) {key : List UInt8} (hkey : key ∈ keys)
    {v v' : Value} (hv : (key,v) ∈ es) (hv' : (key,v') ∈ es) : v = v' := by
  induction h with
  | nil => cases hv
  | cons hhead _ ih =>
    rcases List.mem_cons.mp hv with rfl | htail
    · rcases List.mem_cons.mp hv' with heq | htail'
      · exact (Prod.ext_iff.mp heq).2.symm
      · exact (hhead _ htail' hkey rfl).elim
    · rcases List.mem_cons.mp hv' with rfl | htail'
      · exact (hhead _ htail hkey rfl).elim
      · exact ih htail htail'

theorem requestTaken_iff (es : Entries) : RequestTaken es ↔
    ((∃ v, (ascii "method",v) ∈ es) ∧ (∀ v, (ascii "method",v) ∈ es → v.isString) ∧
      (∀ v, (ascii "params",v) ∈ es → v.isContainer) ∧ VersionAndIdTaken es) ∧
    es.Pairwise (fun e e' => e.1 ∈ [ascii "method",ascii "params",ascii "id"] → e.1 ≠ e'.1) := by
  constructor
  · rintro ⟨⟨⟨v,hv,hstring⟩,hparams,hunique⟩,htaken⟩
    refine ⟨⟨⟨v,hv⟩,fun v' hv' => ?_,hparams,htaken⟩,hunique⟩
    rwa [← unique_entry hunique (by simp) hv hv']
  · rintro ⟨⟨⟨v,hv⟩,hmethod,hparams,htaken⟩,hunique⟩
    exact ⟨⟨⟨v,hv,hmethod v hv⟩,hparams,hunique⟩,htaken⟩

theorem isRequest_iff (es : Entries) : IsRequest es ↔ Callable es ∧
    (∃ v, (ascii "jsonrpc",v) ∈ es ∧ v.isString) ∧
    ∀ v, (ascii "id",v) ∈ es → v.isString ∨ v.isNumber ∨ v.isNull :=
  ⟨fun ⟨h1,h2,h3,h4,h5⟩ => ⟨⟨h2,h3,h5⟩,h1,h4⟩,fun ⟨⟨h2,h3,h5⟩,h1,h4⟩ => ⟨h1,h2,h3,h4,h5⟩⟩

theorem taken_not_request (es : Entries) : TakenByMistake es ↔ VersionAndIdTaken es ∧
    ¬ ((∃ v, (ascii "jsonrpc",v) ∈ es ∧ v.isString) ∧
      ∀ v, (ascii "id",v) ∈ es → v.isString ∨ v.isNumber ∨ v.isNull) := by
  refine and_congr_right (fun htaken => ?_)
  constructor
  · rintro (hnone | ⟨v,hv,hfilled⟩) ⟨⟨w,hw,-⟩,hid⟩
    · exact hnone w hw
    · have hother := Value.other_of_isFilled hfilled
      have := hid v hv
      tauto
  · intro h
    by_contra hcon
    simp only [not_or,not_forall,not_not,not_exists,not_and] at hcon
    obtain ⟨⟨w,hw⟩,hfilled⟩ := hcon
    refine h ⟨⟨w,hw,htaken.1 w hw⟩,fun v hv => ?_⟩
    have := htaken.2 v hv
    have := hfilled v hv
    tauto

theorem refused_request (es : Entries) : RefusedByMistake es ↔
    ((∃ v, (ascii "jsonrpc",v) ∈ es ∧ v.isString) ∧
      ∀ v, (ascii "id",v) ∈ es → v.isString ∨ v.isNumber ∨ v.isNull) ∧ ¬ VersionAndIdTaken es := by
  rw [RefusedByMistake,← and_assoc]
  refine and_congr_right (fun hrequest => ?_)
  constructor
  · rintro (⟨v,hv,hstring⟩ | ⟨v,hv,hnull⟩) htaken
    · exact hstring (htaken.1 v hv)
    · have hother := Value.other_of_isNull hnull
      have := htaken.2 v hv
      tauto
  · intro h
    by_contra hcon
    simp only [not_or,not_exists,not_and,not_not] at hcon
    refine h ⟨hcon.1,fun v hv => ?_⟩
    have := hrequest.2 v hv
    have := hcon.2 v hv
    tauto

theorem taken_iff_request (es : Entries) : (RequestTaken es ↔ IsRequest es) ↔
    (Callable es → ¬ TakenByMistake es ∧ ¬ RefusedByMistake es) := by
  rw [isRequest_iff,taken_not_request,refused_request,RequestTaken]
  generalize ((∃ v, (ascii "jsonrpc",v) ∈ es ∧ v.isString) ∧
    ∀ v, (ascii "id",v) ∈ es → v.isString ∨ v.isNumber ∨ v.isNull) = allowed
  tauto

end Check

section Request
variable {toks : List Token} {json space rest : List UInt8} {base pos : ℕ} {ts : List (Rose Label)}
  {members : Members}

theorem complete_request {ms : List (Label × Rose Label)} {es : Entries} (h : List.Forall₂ (ShownMember json) ms es)
    {out : Output RequestField} (i : ℕ)
    (hout : ∀ f, out.value f = fieldValue requestSchema json f i ms) :
    complete requestSchema out = true ↔ ∃ e ∈ es, e.1 = ascii "method" := by
  have hvalue := fieldValue_shown h (fieldFor_request · .method) i
  rw [← valueIndex_isSome i,← hvalue,← hout .method]
  simp [complete,requestSchema,Output.seen]

theorem walk_accepts_request {ms : List (Label × Rose Label)} {es : Entries}
    (h : List.Forall₂ (ShownMember json) ms es) (i : ℕ) :
    ((walkPairs requestSchema json i ms {}).1 && complete requestSchema (walkPairs requestSchema json i ms {}).2) =
      true ↔ RequestTaken es := by
  have hwalk := walkPairs_empty requestSchema json i ms
  have hadmissible := admissible_shown h (fun m e hme => passesType_request hme)
  rw [Bool.and_eq_true,requestTaken_iff,← taken_request es,← distinct_request]
  constructor
  · rintro ⟨hok,hcomplete⟩
    have hms := hwalk.mp hok
    have hmethod := (complete_request h i (walkPairs_empty_value i hms)).mp hcomplete
    obtain ⟨htypes,hdistinct⟩ := hadmissible.mp hms
    exact ⟨⟨htypes,hmethod⟩,hdistinct⟩
  · rintro ⟨⟨htypes,hmethod⟩,hdistinct⟩
    have hms := hadmissible.mpr ⟨htypes,hdistinct⟩
    exact ⟨hwalk.mpr hms,(complete_request h i (walkPairs_empty_value i hms)).mpr hmethod⟩

/-- The verdict on an object that is all there is, and what is filled in. -/
theorem checkAndExtractRequest_alone (hv : (Value.object space members).Valid)
    (hjson : json.drop pos = (Value.object space members).text ++ rest)
    (h : LiesAt toks base ((Value.object space members).node pos :: ts)) :
    ∃ ok req, checkAndExtractRequest toks json base (Value.object space members).ntokens = .ok (ok,req) ∧
      (ok = true ↔ RequestTaken members.entries) ∧ (ok = true →
        req.method = valueIndex (ascii "method") (base + 1) members.entries ∧
        req.params = valueIndex (ascii "params") (base + 1) members.entries ∧
        req.id = valueIndex (ascii "id") (base + 1) members.entries) := by
  have hshown := object_shown hv hjson
  have haccepts := walk_accepts_request hshown (base + 1)
  have hwalk := walkPairs_empty requestSchema json (base + 1) (memberTrees pos space members)
  simp only [checkAndExtractRequest,extractFromDict_alone hv hjson h,bind,Except.bind]
  cases hok : (walkPairs requestSchema json (base + 1) (memberTrees pos space members) {}).1 &&
      complete requestSchema (walkPairs requestSchema json (base + 1) (memberTrees pos space members) {}).2 with
  | false => exact ⟨false,_,rfl,by rw [← haccepts,hok],nofun⟩
  | true =>
    have hvalue := walkPairs_empty_value (base + 1) (hwalk.mp (Bool.and_eq_true_iff.mp hok).1)
    refine ⟨true,_,rfl,by rw [← haccepts,hok],fun _ => ⟨?_,?_,?_⟩⟩
    · exact (hvalue .method).trans (fieldValue_shown hshown (fieldFor_request · .method) _)
    · exact (hvalue .params).trans (fieldValue_shown hshown (fieldFor_request · .params) _)
    · exact (hvalue .id).trans (fieldValue_shown hshown (fieldFor_request · .id) _)

/-- An object is taken for a request exactly if it is one, unless it is one of those whose
version or id is misjudged. -/
theorem checkAndExtractRequest_right_iff (hv : (Value.object space members).Valid)
    (hjson : json.drop pos = (Value.object space members).text ++ rest)
    (h : LiesAt toks base [(Value.object space members).node pos]) :
    (∃ ok req, checkAndExtractRequest toks json base (Value.object space members).ntokens = .ok (ok,req) ∧
      (ok = true ↔ IsRequest members.entries) ∧ (ok = true →
        req.method = valueIndex (ascii "method") (base + 1) members.entries ∧
        req.params = valueIndex (ascii "params") (base + 1) members.entries ∧
        req.id = valueIndex (ascii "id") (base + 1) members.entries)) ↔
      (Callable members.entries → ¬ TakenByMistake members.entries ∧ ¬ RefusedByMistake members.entries) := by
  obtain ⟨ok,req,heq,hok,hfields⟩ := checkAndExtractRequest_alone hv hjson h
  rw [← taken_iff_request,← hok]
  constructor
  · rintro ⟨ok',req',heq',hok',-⟩
    have hsame : (ok,req) = (ok',req') := Except.ok.inj (heq.symm.trans heq')
    obtain ⟨rfl,rfl⟩ := Prod.mk.inj hsame
    exact hok'
  · exact fun hright => ⟨ok,req,heq,hright,hfields⟩

end Request

section Misjudged

/-- The members of an object without a version. -/
def unversioned : Members :=
  .cons [] (ascii "method") [] [32] (.string (ascii "power_on")) [] .nil

/-- The members of a request with null for its id. -/
def nullIdentified : Members :=
  .cons [] (ascii "jsonrpc") [] [] (.string (ascii "2.0")) []
    (.cons [32] (ascii "method") [] [] (.string (ascii "power_on")) []
      (.cons [32] (ascii "id") [] [] (.primitive (ascii "null")) [] .nil))

def tokensOfObject (members : Members) : List Token := tokensOf [(Value.object [] members).node 0]

theorem checkAndExtractRequest_right_iff_unversioned :
    (Value.object [] unversioned).Valid ∧
    ((∃ ok req, checkAndExtractRequest (tokensOfObject unversioned) (Value.object [] unversioned).text 0
        (Value.object [] unversioned).ntokens = .ok (ok,req) ∧
        (ok = true ↔ IsRequest unversioned.entries) ∧ (ok = true →
          req.method = valueIndex (ascii "method") (0 + 1) unversioned.entries ∧
          req.params = valueIndex (ascii "params") (0 + 1) unversioned.entries ∧
          req.id = valueIndex (ascii "id") (0 + 1) unversioned.entries)) ↔
      (Callable unversioned.entries → ¬ TakenByMistake unversioned.entries ∧
        ¬ RefusedByMistake unversioned.entries)) := by
  have hv : (Value.object [] unversioned).Valid := by
    simp only [Value.Valid,unversioned,Members.Valid]
    refine ⟨nofun,nofun,by decide +kernel,nofun,by decide +kernel,by decide +kernel,nofun,trivial⟩
  exact ⟨hv,checkAndExtractRequest_right_iff hv (List.append_nil _).symm ⟨[],(List.append_nil _).symm⟩⟩

/-- An object without a version is taken for a request, and one with null for its id is not. -/
theorem unversioned_taken_null_refused :
    (∃ req, checkAndExtractRequest (tokensOfObject unversioned) (Value.object [] unversioned).text 0
      (Value.object [] unversioned).ntokens = .ok (true,req)) ∧ ¬ IsRequest unversioned.entries ∧
    (∃ req, checkAndExtractRequest (tokensOfObject nullIdentified) (Value.object [] nullIdentified).text 0
      (Value.object [] nullIdentified).ntokens = .ok (false,req)) ∧ IsRequest nullIdentified.entries := by
  refine ⟨⟨_,rfl⟩,?_,⟨_,rfl⟩,?_⟩
  · rintro ⟨⟨v,hv,-⟩,-⟩
    simp only [unversioned,Members.entries,List.mem_singleton,Prod.mk.injEq] at hv
    exact absurd hv.1 (by decide)
  · simp only [nullIdentified,Members.entries]
    refine ⟨⟨.string (ascii "2.0"),by simp,rfl⟩,⟨.string (ascii "power_on"),by simp,rfl⟩,?_,?_,?_⟩
    · have h1 : ascii "params" ≠ ascii "jsonrpc" := by decide
      have h2 : ascii "params" ≠ ascii "method" := by decide
      have h3 : ascii "params" ≠ ascii "id" := by decide
      simp [h1,h2,h3]
    · have h1 : ascii "id" ≠ ascii "jsonrpc" := by decide
      have h2 : ascii "id" ≠ ascii "method" := by decide
      simp [h1,h2,Value.isNull]
    · have h1 : ascii "jsonrpc" ∉ [ascii "method",ascii "params",ascii "id"] := by decide
      have h2 : ascii "method" ≠ ascii "id" := by decide
      simp only [List.pairwise_cons,List.forall_mem_cons]
      simp [h1,h2]

end Misjudged
end Jsonrpc
end Lightsd.Core
