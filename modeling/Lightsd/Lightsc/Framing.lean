import Lightsd.Library.JsonGrammar

/-! # The framing of the Python client

Responses reach the client as bytes without any marks between them. The listener decodes what
has arrived once it is whole characters, and tries where the first response could end: at
the end of the text, or at a bracket that closes right before one that opens. What it cannot
take apart waits for more bytes.
-/
namespace Lightsd.Lightsc
open JsonGrammar

/-- `json.loads`, of which it is known which texts it takes. -/
structure Loads (V : Type) where
  loads : List Char → Option V
  takes : ∀ cs, (loads cs).isSome ↔ Document cs

/-- Two characters of which the first ends a response and the second starts one. -/
abbrev Delim := Char × Char

def delims : List Delim := [('}','{'),('}','['),(']','{'),(']','[')]

variable {V : Type}

/-- The place of a delimiter. -/
def At (sbuf : List Char) (delim : Delim) (i : ℕ) : Prop := sbuf[i]? = some delim.1 ∧ sbuf[i + 1]? = some delim.2

instance (sbuf : List Char) (delim : Delim) (i : ℕ) : Decidable (At sbuf delim i) := inferInstanceAs (Decidable (_ ∧ _))

/-- `str.find`: the first place of a delimiter from a start on. -/
def find (sbuf : List Char) (delim : Delim) (start : ℕ) : Option ℕ :=
  (List.range sbuf.length).find? (fun i => start ≤ i ∧ At sbuf delim i)

theorem find_eq_some {sbuf : List Char} {delim : Delim} {start offset : ℕ} (h : find sbuf delim start = some offset) :
    start ≤ offset ∧ At sbuf delim offset ∧ ∀ i, start ≤ i → At sbuf delim i → offset ≤ i := by
  rw [find,List.find?_range_eq_some] at h
  obtain ⟨hoffset,-,hfirst⟩ := h
  simp only [decide_eq_true_eq] at hoffset
  refine ⟨hoffset.1,hoffset.2,?_⟩
  intro i hi hat
  by_contra hlt
  have hnot := hfirst i (by omega)
  simp [hi,hat] at hnot

theorem At.lt_length {sbuf : List Char} {delim : Delim} {i : ℕ} (h : At sbuf delim i) : i + 1 < sbuf.length := by
  obtain ⟨hi,-⟩ := List.getElem?_eq_some_iff.mp h.2
  exact hi

theorem find_eq_none {sbuf : List Char} {delim : Delim} {start : ℕ} (h : find sbuf delim start = none) :
    ∀ i, start ≤ i → ¬ At sbuf delim i := by
  intro i hi hat
  rw [find,List.find?_eq_none] at h
  have hnot := h i (List.mem_range.mpr (by have := hat.lt_length; omega))
  simp [hi,hat] at hnot

/-- `find_response`, from a start on. -/
def findResponse (json : Loads V) (sbuf : List Char) (delim : Delim) (start : ℕ) : Option (V × List Char) :=
  match _hfind : find sbuf delim start with
  | none => none
  | some offset =>
    match json.loads (sbuf.take (offset + 1)) with
    | some response => some (response,sbuf.drop (offset + 1))
    | none => findResponse json sbuf delim (offset + 2)
termination_by sbuf.length - start
decreasing_by
  obtain ⟨hstart,hat,-⟩ := find_eq_some _hfind
  have := hat.lt_length
  omega

/-- The first response of a text and what is behind it, with the delimiters in an order. -/
def nextResponse (json : Loads V) (order : List Delim) (sbuf : List Char) : Option (V × List Char) :=
  match json.loads sbuf with
  | some response => some (response,[])
  | none => order.findSome? (fun delim => findResponse json sbuf delim 0)

theorem findResponse_eq_some {json : Loads V} {sbuf : List Char} {delim : Delim} {start : ℕ} {response : V}
    {rest : List Char} (h : findResponse json sbuf delim start = some (response,rest)) :
    ∃ n, 0 < n ∧ n ≤ sbuf.length ∧ json.loads (sbuf.take n) = some response ∧ rest = sbuf.drop n := by
  fun_induction findResponse json sbuf delim start with
  | case1 start hfind => cases h
  | case2 start offset hfind response' hloads =>
    obtain ⟨-,hat,-⟩ := find_eq_some hfind
    cases h
    exact ⟨offset + 1,by omega,hat.lt_length.le,hloads,rfl⟩
  | case3 start offset hfind hloads ih => exact ih h

/-- A step of the search that finds a response makes the text shorter. -/
theorem nextResponse_length {json : Loads V} {order : List Delim} {sbuf : List Char} {response : V}
    {rest : List Char} (hne : sbuf ≠ []) (h : nextResponse json order sbuf = some (response,rest)) :
    rest.length < sbuf.length := by
  have hpos := List.length_pos_iff.mpr hne
  unfold nextResponse at h
  split at h
  · cases h
    simpa using hpos
  · obtain ⟨delim,-,hfind⟩ := List.exists_of_findSome?_eq_some h
    obtain ⟨n,hn,-,-,rfl⟩ := findResponse_eq_some hfind
    rw [List.length_drop]
    omega

/-- `while sbuf`: the responses that are taken off a text, and what is left of it. The set of
delimiters may be gone through in another order each time. -/
def takeResponses (json : Loads V) (order : List Char → List Delim) (sbuf : List Char) : List V × List Char :=
  if _hne : sbuf = [] then ([],[])
  else
    match _hnext : nextResponse json (order sbuf) sbuf with
    | none => ([],sbuf)
    | some (response,rest) =>
      let (responses,left) := takeResponses json order rest
      (response :: responses,left)
termination_by sbuf.length
decreasing_by exact nextResponse_length _hne _hnext

/-- The bytes that are not decoded, the text that is not taken apart, and the responses. -/
structure Listener (V : Type) where
  buf : ByteArray := .empty
  sbuf : List Char := []
  responses : List V := []
  eof : Bool := false

/-- What is done with a chunk: the bytes stay where they are if they are no whole characters. -/
def readChunk (json : Loads V) (order : List Char → List Delim) (s : Listener V) (chunk : ByteArray) : Listener V :=
  let buf := s.buf ++ chunk
  match buf.utf8Decode? with
  | none => { s with buf := buf }
  | some text =>
    let (responses,sbuf) := takeResponses json order (s.sbuf ++ text.toList)
    { s with buf := .empty, sbuf := sbuf, responses := s.responses ++ responses }

/-- `_listen`, over the chunks that are read. -/
def listen (json : Loads V) (order : List Char → List Delim) (s : Listener V) : List ByteArray → Listener V
  | [] => s
  | chunk :: chunks =>
    if chunk.size = 0 then { s with eof := true } else listen json order (readChunk json order s chunk) chunks

/-- The bytes of chunks that follow each other. -/
def joined : List ByteArray → ByteArray
  | [] => .empty
  | chunk :: chunks => chunk ++ joined chunks

theorem readChunk_of_none {json : Loads V} {order : List Char → List Delim} {s : Listener V} {chunk : ByteArray}
    (h : (s.buf ++ chunk).utf8Decode? = none) : readChunk json order s chunk = { s with buf := s.buf ++ chunk } := by
  simp [readChunk,h]

theorem readChunk_of_some {json : Loads V} {order : List Char → List Delim} {s : Listener V} {chunk : ByteArray}
    {text : Array Char} (h : (s.buf ++ chunk).utf8Decode? = some text) : readChunk json order s chunk =
      { s with buf := .empty, sbuf := (takeResponses json order (s.sbuf ++ text.toList)).2,
               responses := s.responses ++ (takeResponses json order (s.sbuf ++ text.toList)).1 } := by
  simp [readChunk,h]

section Search
variable {json : Loads V}

/-- No place of a delimiter is passed over, although the search goes on two characters behind
the last one. -/
theorem findResponse_isSome {sbuf : List Char} {delim : Delim} (hdiff : delim.1 ≠ delim.2) {k : ℕ}
    (hat : At sbuf delim k) (hloads : (json.loads (sbuf.take (k + 1))).isSome) {start : ℕ} (hstart : start ≤ k) :
    (findResponse json sbuf delim start).isSome := by
  fun_induction findResponse json sbuf delim start with
  | case1 start hfind => exact (find_eq_none hfind k hstart hat).elim
  | case2 => rfl
  | case3 start offset hfind hnone ih =>
    obtain ⟨-,hoffset,hfirst⟩ := find_eq_some hfind
    have hle := hfirst k hstart hat
    have hne : offset ≠ k := by
      rintro rfl
      simp [hnone] at hloads
    have hnext : offset + 1 ≠ k := by
      rintro rfl
      exact hdiff (Option.some.inj (hat.1.symm.trans hoffset.2))
    exact ih (by omega)

variable {t : List Char} {texts : List (List Char)} (ht : Container t) (htexts : ∀ t' ∈ texts, Container t')
include ht htexts

variable (json) in
theorem loads_isSome_iff {cs : List Char} (hcs : cs <+: t ++ texts.flatten) :
    (json.loads cs).isSome ↔ cs = t :=
  (json.takes cs).trans (document_start_iff ht htexts hcs)

theorem nextResponse_eq_none {sbuf : List Char} (hsbuf : sbuf <+: t ++ texts.flatten) (hpart : ¬ t <+: sbuf)
    (order : List Delim) : nextResponse json order sbuf = none := by
  have hloads : ∀ cs, cs <+: sbuf → json.loads cs = none := by
    intro cs hcs
    rw [← Option.not_isSome_iff_eq_none,loads_isSome_iff json ht htexts (hcs.trans hsbuf)]
    rintro rfl
    exact hpart hcs
  simp only [nextResponse,hloads sbuf (List.prefix_refl sbuf)]
  rw [List.findSome?_eq_none_iff]
  intro delim _
  rw [Option.eq_none_iff_forall_ne_some]
  rintro ⟨response,rest⟩ h
  obtain ⟨n,-,-,hn,-⟩ := findResponse_eq_some h
  rw [hloads _ (List.take_prefix n sbuf)] at hn
  cases hn

theorem findResponse_first {rest : List Char} (hrest : rest <+: texts.flatten) {delim : Delim} {response : V}
    {left : List Char} (h : findResponse json (t ++ rest) delim 0 = some (response,left)) :
    json.loads t = some response ∧ left = rest := by
  obtain ⟨n,-,hn,hloads,rfl⟩ := findResponse_eq_some h
  have hstream : t ++ rest <+: t ++ texts.flatten := (List.prefix_append_right_inj t).mpr hrest
  have hfirst : (t ++ rest).take n = t := by
    rw [← loads_isSome_iff json ht htexts ((List.take_prefix n _).trans hstream),hloads]
    rfl
  have hlength : n = t.length := by
    have := congrArg List.length hfirst
    rw [List.length_take] at this
    omega
  refine ⟨hfirst ▸ hloads,?_⟩
  rw [hlength,List.drop_left]

variable (json) in
theorem delim_found {c : Char} {rest : List Char} (hrest : c :: rest <+: texts.flatten) :
    ∃ delim ∈ delims, (findResponse json (t ++ c :: rest) delim 0).isSome := by
  have hopens := opens_of_flatten htexts hrest
  obtain ⟨opening,inside,closing,-,hcloses,-,hform⟩ := ht.brackets
  have hlast : t = (opening :: inside) ++ [closing] := hform
  refine ⟨(closing,c),?_,?_⟩
  · rcases hcloses with rfl | rfl <;> rcases hopens with rfl | rfl <;> simp [delims]
  · have hlength : t.length = inside.length + 1 + 1 := by simp [hlast]
    have hdiff : closing ≠ c := by
      rcases hcloses with rfl | rfl <;> rcases hopens with rfl | rfl <;> decide
    have hat : At (t ++ c :: rest) (closing,c) (inside.length + 1) := by
      constructor
      · rw [hlast,List.append_assoc,List.getElem?_append_right (by simp)]
        simp
      · rw [List.getElem?_append_right (by omega)]
        simp [hlength]
    refine findResponse_isSome hdiff hat ?_ (Nat.zero_le _)
    have htake : (t ++ c :: rest).take (inside.length + 1 + 1) = t := by
      rw [← hlength,List.take_left]
    rw [htake,loads_isSome_iff json ht htexts (List.prefix_append t _)]

variable (json) in
theorem nextResponse_eq_some {rest : List Char} (hrest : rest <+: texts.flatten) {order : List Delim}
    (horder : order.Perm delims) : ∃ response, json.loads t = some response ∧
      nextResponse json order (t ++ rest) = some (response,rest) := by
  obtain ⟨response,hresponse⟩ := Option.isSome_iff_exists.mp
    ((loads_isSome_iff json ht htexts (List.prefix_append t _)).mpr rfl)
  refine ⟨response,hresponse,?_⟩
  cases rest with
  | nil => simp [nextResponse,hresponse]
  | cons c rest =>
    have hstream : t ++ c :: rest <+: t ++ texts.flatten := (List.prefix_append_right_inj t).mpr hrest
    have hnone : json.loads (t ++ c :: rest) = none := by
      rw [← Option.not_isSome_iff_eq_none,loads_isSome_iff json ht htexts hstream]
      simp
    obtain ⟨delim,hdelim,hfound⟩ := delim_found json ht htexts hrest
    simp only [nextResponse,hnone]
    have hsome : (order.findSome? (fun delim => findResponse json (t ++ c :: rest) delim 0)).isSome := by
      rw [List.findSome?_isSome_iff]
      exact ⟨delim,horder.mem_iff.mpr hdelim,hfound⟩
    obtain ⟨⟨response',left⟩,hfind⟩ := Option.isSome_iff_exists.mp hsome
    obtain ⟨delim',-,hdelim'⟩ := List.exists_of_findSome?_eq_some hfind
    obtain ⟨hresponse',rfl⟩ := findResponse_first ht htexts hrest hdelim'
    obtain rfl := Option.some.inj (hresponse.symm.trans hresponse')
    exact hfind

end Search

section Runs
variable {json : Loads V} {order : List Char → List Delim}

/-- How far a text has been taken apart: the first responses are taken, and the next one is not
whole. -/
structure Taken (json : Loads V) (texts : List (List Char)) (taken : List (List Char)) (responses : List V)
    (left : List Char) : Prop where
  values : taken.map json.loads = responses.map some
  rest : ∃ rest, texts = taken ++ rest ∧ left <+: rest.flatten ∧ ∀ t ∈ rest.head?, ¬ t <+: left

theorem takeResponses_of_some {sbuf rest : List Char} {response : V} (hne : sbuf ≠ [])
    (h : nextResponse json (order sbuf) sbuf = some (response,rest)) : takeResponses json order sbuf =
      (response :: (takeResponses json order rest).1,(takeResponses json order rest).2) := by
  rw [takeResponses,dif_neg hne]
  split
  · rename_i hnone
    rw [hnone] at h
    cases h
  · rename_i hsome
    rw [hsome] at h
    cases h
    rfl

theorem takeResponses_of_none {sbuf : List Char} (h : nextResponse json (order sbuf) sbuf = none) :
    takeResponses json order sbuf = ([],sbuf) := by
  rw [takeResponses]
  split
  · rename_i hnil
    rw [hnil]
  · split
    · rfl
    · rename_i hsome
      rw [hsome] at h
      cases h

variable (json) in
theorem takeResponses_taken (horder : ∀ sbuf, (order sbuf).Perm delims) {texts : List (List Char)}
    (htexts : ∀ t ∈ texts, Container t) {sbuf : List Char} (hsbuf : sbuf <+: texts.flatten) :
    ∃ taken, sbuf = taken.flatten ++ (takeResponses json order sbuf).2 ∧
      Taken json texts taken (takeResponses json order sbuf).1 (takeResponses json order sbuf).2 := by
  induction texts generalizing sbuf with
  | nil =>
    obtain rfl : sbuf = [] := by simpa using hsbuf
    refine ⟨[],by simp [takeResponses],by simp [takeResponses],[],rfl,by simp [takeResponses],by simp⟩
  | cons t texts ih =>
    have ht := htexts t List.mem_cons_self
    have hrest := fun t' ht' => htexts t' (List.mem_cons_of_mem t ht')
    rw [List.flatten_cons] at hsbuf
    by_cases hwhole : t <+: sbuf
    · obtain ⟨rest,rfl⟩ := hwhole
      have hrest' := (List.prefix_append_right_inj t).mp hsbuf
      obtain ⟨response,hresponse,hnext⟩ := nextResponse_eq_some json ht hrest hrest' (horder (t ++ rest))
      have hne : t ++ rest ≠ [] := by simp [ht.1.ne_nil]
      obtain ⟨taken,hflat,hvalues,remaining,hsplit,hleft,hpart⟩ := ih hrest hrest'
      rw [takeResponses_of_some hne hnext]
      refine ⟨t :: taken,?_,?_,remaining,?_,hleft,hpart⟩
      · rw [List.flatten_cons,List.append_assoc,← hflat]
      · simp [hresponse,hvalues]
      · rw [List.cons_append,← hsplit]
    · rw [takeResponses_of_none (nextResponse_eq_none ht hrest hsbuf hwhole _)]
      refine ⟨[],rfl,rfl,t :: texts,rfl,hsbuf,?_⟩
      simpa using hwhole

theorem Taken.append {texts taken rest taken' : List (List Char)} {responses responses' : List V}
    {left : List Char} (hvalues : taken.map json.loads = responses.map some) (hsplit : texts = taken ++ rest)
    (h : Taken json rest taken' responses' left) :
    Taken json texts (taken ++ taken') (responses ++ responses') left := by
  obtain ⟨hvalues',remaining,hsplit',hleft,hpart⟩ := h
  refine ⟨by simp [hvalues,hvalues'],remaining,?_,hleft,hpart⟩
  rw [hsplit,hsplit',List.append_assoc]

/-- The bytes that were received are those of the responses taken, of the text left and of the
characters that are not whole. -/
def Follows (json : Loads V) (texts : List (List Char)) (received : ByteArray) (s : Listener V) : Prop :=
  ∃ taken, Taken json texts taken s.responses s.sbuf ∧ received = (taken.flatten ++ s.sbuf).utf8Encode ++ s.buf ∧
    (s.buf = .empty ∨ s.buf.utf8Decode? = none) ∧ s.eof = false

theorem Follows.readChunk (horder : ∀ sbuf, (order sbuf).Perm delims) {texts : List (List Char)}
    (htexts : ∀ t ∈ texts, Container t) {received : ByteArray} {s : Listener V}
    (h : Follows json texts received s) {chunk future : ByteArray}
    (hstream : received ++ chunk ++ future = texts.flatten.utf8Encode) :
    Follows json texts (received ++ chunk) (readChunk json order s chunk) := by
  obtain ⟨taken,htaken,hreceived,hbuf,heof⟩ := h
  cases hdecode : (s.buf ++ chunk).utf8Decode? with
  | none =>
    rw [readChunk_of_none hdecode]
    refine ⟨taken,htaken,?_,.inr hdecode,heof⟩
    rw [hreceived,ByteArray.append_assoc]
  | some text =>
    have hbytes : s.buf ++ chunk = text.toList.utf8Encode := by
      have hget := @ByteArray.utf8Encode_get_utf8Decode? (s.buf ++ chunk) (by simp [hdecode])
      simpa [hdecode] using hget.symm
    have hall : received ++ chunk = (taken.flatten ++ (s.sbuf ++ text.toList)).utf8Encode := by
      rw [hreceived,ByteArray.append_assoc,hbytes,← List.utf8Encode_append,List.append_assoc]
    obtain ⟨hvalues,rest,hsplit,-,-⟩ := htaken
    have hsbuf : s.sbuf ++ text.toList <+: rest.flatten := by
      rw [hall] at hstream
      have hstart := List.isPrefix_of_utf8Encode_append_eq_utf8Encode future hstream
      rwa [hsplit,List.flatten_append,List.prefix_append_right_inj] at hstart
    have hrest : ∀ t ∈ rest, Container t := fun t ht => htexts t (by simp [hsplit,ht])
    obtain ⟨taken',hflat,htaken'⟩ := takeResponses_taken json horder hrest hsbuf
    rw [readChunk_of_some hdecode]
    refine ⟨taken ++ taken',Taken.append hvalues hsplit htaken',?_,.inl rfl,heof⟩
    rw [hall,List.flatten_append,List.append_assoc,← hflat]
    exact ByteArray.append_empty.symm

theorem Follows.listen (horder : ∀ sbuf, (order sbuf).Perm delims) {texts : List (List Char)}
    (htexts : ∀ t ∈ texts, Container t) {chunks : List ByteArray} (hne : ∀ c ∈ chunks, c.size ≠ 0)
    {received : ByteArray} {s : Listener V} (h : Follows json texts received s)
    (hstream : received ++ joined chunks = texts.flatten.utf8Encode) :
    Follows json texts texts.flatten.utf8Encode (listen json order s chunks) := by
  induction chunks generalizing received s with
  | nil =>
    rw [← hstream,joined,ByteArray.append_empty]
    exact h
  | cons chunk chunks ih =>
    rw [Lightsc.listen,if_neg (hne chunk List.mem_cons_self)]
    rw [joined,← ByteArray.append_assoc] at hstream
    exact ih (fun c hc => hne c (List.mem_cons_of_mem chunk hc)) (h.readChunk horder htexts hstream) hstream

/-- When all bytes have been received nothing is left over. -/
theorem Follows.complete {texts : List (List Char)} {s : Listener V}
    (h : Follows json texts texts.flatten.utf8Encode s) :
    s.buf = .empty ∧ s.sbuf = [] ∧ s.responses.map some = texts.map json.loads := by
  obtain ⟨taken,⟨hvalues,rest,hsplit,-,hpart⟩,hreceived,hbuf,-⟩ := h
  obtain ⟨more,hmore⟩ := List.isPrefix_of_utf8Encode_append_eq_utf8Encode s.buf hreceived.symm
  rw [← hmore,List.utf8Encode_append,ByteArray.append_right_inj] at hreceived
  have hempty : s.buf = .empty := by
    rcases hbuf with hbuf | hbuf
    · exact hbuf
    · rw [← hreceived,List.utf8Decode?_utf8Encode] at hbuf
      cases hbuf
  rw [hempty,List.utf8Encode_eq_empty] at hreceived
  rw [hreceived,List.append_nil,hsplit,List.flatten_append,List.append_cancel_left_eq] at hmore
  cases rest with
  | nil =>
    rw [List.append_nil] at hsplit
    exact ⟨hempty,hmore,by rw [hsplit,hvalues]⟩
  | cons t rest =>
    refine (hpart t rfl ?_).elim
    rw [hmore]
    exact List.prefix_append t _

/-- The listener takes exactly the responses that were sent, in their order, however their bytes
arrive, and has nothing left over. -/
theorem listen_decodes {texts : List (List Char)} (htexts : ∀ t ∈ texts, Container t) {chunks : List ByteArray}
    (hne : ∀ c ∈ chunks, c.size ≠ 0) (hstream : joined chunks = texts.flatten.utf8Encode)
    (horder : ∀ sbuf, (order sbuf).Perm delims) :
    (listen json order {} chunks).responses.map some = texts.map json.loads ∧
      (listen json order {} chunks).buf = .empty ∧ (listen json order {} chunks).sbuf = [] := by
  have hbegin : Follows json texts .empty ({} : Listener V) := by
    refine ⟨[],⟨rfl,texts,rfl,List.nil_prefix,?_⟩,by simp,.inl rfl,rfl⟩
    intro t ht hstart
    exact (htexts t (List.mem_of_mem_head? ht)).1.ne_nil (List.prefix_nil.mp hstart)
  rw [← ByteArray.empty_append (b := joined chunks)] at hstream
  obtain ⟨hbuf,hsbuf,hresponses⟩ := (hbegin.listen horder htexts hne hstream).complete
  exact ⟨hresponses,hbuf,hsbuf⟩

open Classical in
/-- A `json.loads` that gives back the text it is given. -/
noncomputable def loadsItself : Loads (List Char) where
  loads cs := if Document cs then some cs else none
  takes cs := by
    by_cases h : Document cs
    · simp [h]
    · simp [h]

/-- An object whose key is not ASCII and whose value looks like the end of a response, and an
array. -/
def twoResponses : List (List Char) := [['{','"','é','"',':','"','}','{','"','}'],['[',']']]

/-- Their bytes, taken apart inside of a character and inside of the array. -/
def twoResponsesChunks : List ByteArray :=
  [⟨#[123,34,195]⟩,⟨#[169,34,58,34,125,123,34,125,91]⟩,⟨#[93]⟩]

theorem container_twoResponses : ∀ t ∈ twoResponses, Container t := by
  have hkey : StringChars ['é'] := .plain (by decide) (by decide) (by decide) .nil
  have hvalue : StringChars ['}','{'] :=
    .plain (by decide) (by decide) (by decide) (.plain (by decide) (by decide) (by decide) .nil)
  have hobject := @Text.object [⟨[],['é'],[],[],quoted ['}','{'],[]⟩] (by simp)
    (by simpa [Member.Spaced,Element.Spaced,Ws] using hkey) (by simpa using Text.string hvalue)
  have harray := @Text.emptyArray [] (by simp [Ws])
  intro t ht
  rcases List.mem_cons.mp ht with rfl | ht
  · exact ⟨hobject,_,_,rfl,.inl rfl⟩
  · obtain rfl := List.mem_singleton.mp ht
    exact ⟨harray,_,_,rfl,.inr rfl⟩

theorem listen_decodes_twoResponses : joined twoResponsesChunks = twoResponses.flatten.utf8Encode ∧
    (listen loadsItself (fun _ => delims) {} twoResponsesChunks).responses.map some =
      twoResponses.map loadsItself.loads ∧
    (listen loadsItself (fun _ => delims) {} twoResponsesChunks).buf = .empty ∧
    (listen loadsItself (fun _ => delims) {} twoResponsesChunks).sbuf = [] := by
  have hstream : joined twoResponsesChunks = twoResponses.flatten.utf8Encode := by decide +kernel
  exact ⟨hstream,listen_decodes container_twoResponses (by decide) hstream (fun _ => List.Perm.refl delims)⟩

end Runs
end Lightsd.Lightsc
