import Lightsd.Library.JsonReader

/-! # Texts that are read as values

A text prints a value if the value is read off it wherever it stands. Texts of members and
items print their lists if reading them leads to reading on behind the comma, and to nothing
else. Texts put together from parts that print are read part by part.
-/
namespace JsonReader

open JsonStrings

section Bytes

variable {b c : UInt8} {cs rest : List UInt8}

theorem skipWs_cons (h : isWs c = false) : skipWs (c :: cs) = c :: cs := by
  simp [skipWs,h]

theorem takeByte_cons (h : isWs c = false) : takeByte b (c :: cs) = if c = b then some cs else none := by
  rw [takeByte,skipWs_cons h]

/-- The key of a member with its colon. -/
def memberKey (key : List UInt8) : List UInt8 := 34 :: (key ++ [34,58])

theorem takeByte_self (h : isWs b = false) : takeByte b (b :: cs) = some cs := by
  rw [takeByte_cons h,if_pos rfl]

theorem readsKey_memberKey {key : List UInt8} (hkey : Plain key) : ReadsKey (memberKey key ++ cs) key cs := by
  have htext : memberKey key ++ cs = 34 :: (key ++ 34 :: 58 :: cs) := by simp [memberKey]
  rw [htext]
  exact ⟨_,_,takeByte_self (by decide),readString_plain hkey _,takeByte_self (by decide)⟩

end Bytes

section Lists

variable {cs cs' rest : List UInt8} {v : Json}

theorem readsItems_comma (h : Reads cs v (44 :: cs')) {vs : List Json} :
    ReadsItems cs vs rest ↔ ∃ vs', ReadsItems cs' vs' rest ∧ vs = v :: vs' := by
  have hcomma : takeByte 44 (44 :: cs') = some cs' := takeByte_self (by decide)
  refine ⟨fun h' => h'.of_comma h.only hcomma,?_⟩
  rintro ⟨vs',hread,rfl⟩
  exact .more h hcomma hread

theorem readsItems_close (h : Reads cs v (93 :: cs')) : ReadsItems cs [v] cs' :=
  .last h (takeByte_self (by decide))

theorem readsMembers_comma {key : List UInt8} (hkey : Plain key) (h : Reads cs v (44 :: cs'))
    {ms : List (List UInt8 × Json)} :
    ReadsMembers (memberKey key ++ cs) ms rest ↔ ∃ ms', ReadsMembers cs' ms' rest ∧ ms = (key,v) :: ms' := by
  have hcomma : takeByte 44 (44 :: cs') = some cs' := takeByte_self (by decide)
  refine ⟨fun h' => h'.of_comma (readsKey_memberKey hkey) h.only hcomma,?_⟩
  rintro ⟨ms',hread,rfl⟩
  exact .more (readsKey_memberKey hkey) h hcomma hread

theorem readsMembers_close {key : List UInt8} (hkey : Plain key) (h : Reads cs v (125 :: cs')) :
    ReadsMembers (memberKey key ++ cs) [(key,v)] cs' :=
  .last (readsKey_memberKey hkey) h (takeByte_self (by decide))

end Lists

section Printing

/-- No number or name of a constant goes on here. -/
def Stops (rest : List UInt8) : Prop := ∀ c ∈ rest.head?, isWordByte c = false

def Prints (v : Json) (text : List UInt8) : Prop := ∀ rest, Stops rest → Reads (text ++ rest) v rest

structure PrintsItems (vs : List Json) (text : List UInt8) : Prop where
  more : ∀ rest all left, ReadsItems (text ++ 44 :: rest) all left ↔ ∃ vs', ReadsItems rest vs' left ∧ all = vs ++ vs'
  last : ∀ rest, ReadsItems (text ++ 93 :: rest) vs rest

structure PrintsMembers (ms : List (List UInt8 × Json)) (text : List UInt8) : Prop where
  more : ∀ rest all left,
    ReadsMembers (text ++ 44 :: rest) all left ↔ ∃ ms', ReadsMembers rest ms' left ∧ all = ms ++ ms'
  last : ∀ rest, ReadsMembers (text ++ 125 :: rest) ms rest

theorem stops_cons {c : UInt8} (h : isWordByte c = false) (rest : List UInt8) : Stops (c :: rest) := by
  simpa [Stops] using h

/-- Bytes between quotes, as they are. -/
def literal (bytes : List UInt8) : List UInt8 := 34 :: (bytes ++ [34])

theorem takeByte_literal (bytes rest : List UInt8) :
    takeByte 34 (literal bytes ++ rest) = some (bytes ++ 34 :: rest) := by
  simp [literal,takeByte_self (show isWs 34 = false by decide)]

theorem prints_string {bytes : List UInt8} (h : Plain bytes) : Prints (.string bytes) (literal bytes) :=
  fun rest _ => .string (takeByte_literal bytes rest) (readString_plain h rest)

theorem isWs_of_isWordByte : ∀ c, isWordByte c = true → isWs c = false := by decide +kernel

theorem prints_scalar {v : Json} {word : List UInt8} (hword : ∀ c ∈ word, isWordByte c = true)
    (h : scalarOf word = some v) : Prints v word := by
  intro rest hrest
  cases word with
  | nil => cases h
  | cons c cs =>
    have hws := isWs_of_isWordByte c (hword c (by simp))
    have htake : ((c :: cs) ++ rest).takeWhile isWordByte = c :: cs := by
      rw [List.takeWhile_append_of_pos hword]
      cases rest with
      | nil => simp
      | cons c' rest => simp [hrest c' rfl]
    have hdrop : ((c :: cs) ++ rest).dropWhile isWordByte = rest := by
      rw [List.dropWhile_append_of_pos hword]
      cases rest with
      | nil => simp
      | cons c' rest => simp [hrest c' rfl]
    apply Reads.scalar
    rw [show skipWs (c :: cs ++ rest) = c :: cs ++ rest from skipWs_cons hws,readScalar,htake,hdrop,h]
    rfl

theorem prints_null : Prints .null nullText := prints_scalar (by decide +kernel) (by simp [scalarOf])

theorem prints_bool (b : Bool) : Prints (.bool b) (boolText b) := by
  cases b
  · exact prints_scalar (by decide +kernel) (by simp [scalarOf,nullText,boolText])
  · exact prints_scalar (by decide +kernel) (by simp [scalarOf,nullText,boolText])

theorem prints_number {text : List UInt8} (h : isNumberText text = true) (hword : ∀ c ∈ text, isWordByte c = true) :
    Prints (.number text) text := by
  apply prints_scalar hword
  have hne {word : List UInt8} (hword : isNumberText word = false) : text ≠ word := by
    rintro rfl
    simp [hword] at h
  rw [scalarOf,if_neg (hne (by decide)),if_neg (hne (by decide)),if_neg (hne (by decide)),if_pos h]

theorem PrintsItems.single {v : Json} {text : List UInt8} (h : Prints v text) : PrintsItems [v] text where
  more rest all left := by
    rw [readsItems_comma (h (44 :: rest) (stops_cons (by decide) rest))]
    rfl
  last rest := readsItems_close (h (93 :: rest) (stops_cons (by decide) rest))

theorem PrintsItems.append {vs vs' : List Json} {text text' : List UInt8} (h : PrintsItems vs text)
    (h' : PrintsItems vs' text') : PrintsItems (vs ++ vs') (text ++ 44 :: text') where
  more rest all left := by
    simp only [List.append_assoc,List.cons_append,h.more,h'.more]
    constructor
    · rintro ⟨_,⟨more,hread,rfl⟩,rfl⟩
      exact ⟨more,hread,rfl⟩
    · rintro ⟨more,hread,rfl⟩
      exact ⟨_,⟨more,hread,rfl⟩,rfl⟩
  last rest := by
    simp only [List.append_assoc,List.cons_append,h.more]
    exact ⟨vs',h'.last rest,rfl⟩

theorem reads_array_of_items {cs rest : List UInt8} {vs : List Json} (h : ReadsItems cs vs rest) :
    Reads (91 :: cs) (.array vs) rest :=
  .array (takeByte_self (by decide)) h

theorem reads_object_of_members {cs rest : List UInt8} {ms : List (List UInt8 × Json)}
    (h : ReadsMembers cs ms rest) : Reads (123 :: cs) (.object ms) rest :=
  .object (takeByte_self (by decide)) h

theorem PrintsItems.array {vs : List Json} {text : List UInt8} (h : PrintsItems vs text) :
    Prints (.array vs) (91 :: (text ++ [93])) := by
  intro rest _
  simpa using reads_array_of_items (h.last rest)

theorem PrintsMembers.object {ms : List (List UInt8 × Json)} {text : List UInt8} (h : PrintsMembers ms text) :
    Prints (.object ms) (123 :: (text ++ [125])) := by
  intro rest _
  simpa using reads_object_of_members (h.last rest)

theorem PrintsMembers.single {key : List UInt8} {v : Json} {text : List UInt8} (hkey : Plain key)
    (h : Prints v text) : PrintsMembers [(key,v)] (memberKey key ++ text) where
  more rest all left := by
    rw [List.append_assoc,readsMembers_comma hkey (h (44 :: rest) (stops_cons (by decide) rest))]
    rfl
  last rest := by
    rw [List.append_assoc]
    exact readsMembers_close hkey (h (125 :: rest) (stops_cons (by decide) rest))

theorem PrintsMembers.append {ms ms' : List (List UInt8 × Json)} {text text' : List UInt8}
    (h : PrintsMembers ms text) (h' : PrintsMembers ms' text') :
    PrintsMembers (ms ++ ms') (text ++ 44 :: text') where
  more rest all left := by
    simp only [List.append_assoc,List.cons_append,h.more,h'.more]
    constructor
    · rintro ⟨_,⟨more,hread,rfl⟩,rfl⟩
      exact ⟨more,hread,rfl⟩
    · rintro ⟨more,hread,rfl⟩
      exact ⟨_,⟨more,hread,rfl⟩,rfl⟩
  last rest := by
    simp only [List.append_assoc,List.cons_append,h.more]
    exact ⟨ms',h'.last rest,rfl⟩

end Printing

section Strings

variable {bytes rest left : List UInt8} {v : Json}

/-- Bytes between quotes are read as they are only if they are plain. -/
theorem reads_literal_self (hrest : Tail rest) (h : Reads (literal bytes ++ rest) (.string bytes) left) :
    Plain bytes ∧ left = rest := by
  obtain ⟨s,hs,hread⟩ := h.of_quote (takeByte_literal bytes rest)
  cases hs
  exact plain_of_readString_self hrest hread

theorem ReadsItems.of_array {cs : List UInt8} {vs : List Json} (hne : vs ≠ [])
    (h : Reads (91 :: cs) (.array vs) rest) : ReadsItems cs vs rest := by
  rcases h.of_bracket (takeByte_self (by decide)) with ⟨hempty,-⟩ | ⟨vs',hvs,hread⟩
  · exact absurd (Json.array.inj hempty) hne
  · rwa [Json.array.inj hvs]

theorem ReadsMembers.of_object {cs : List UInt8} {ms : List (List UInt8 × Json)} (hne : ms ≠ [])
    (h : Reads (123 :: cs) (.object ms) rest) : ReadsMembers cs ms rest := by
  rcases h.of_brace (takeByte_self (by decide)) with ⟨hempty,-⟩ | ⟨ms',hms,hread⟩
  · exact absurd (Json.object.inj hempty) hne
  · rwa [Json.object.inj hms]

/-- Strings between quotes with commas between them. -/
def stringsText : List (List UInt8) → List UInt8
  | [] => []
  | [bytes] => literal bytes
  | bytes :: bytes' :: more => literal bytes ++ 44 :: stringsText (bytes' :: more)

theorem stringsText_start (bytes : List UInt8) (more : List (List UInt8)) :
    ∃ text, stringsText (bytes :: more) = 34 :: text := by
  cases more with
  | nil => exact ⟨_,rfl⟩
  | cons => exact ⟨_,rfl⟩

theorem tail_comma (text : List UInt8) : Tail (44 :: 34 :: text) :=
  ⟨[44],by simp,by simp [Plain,PlainByte],.inr ⟨text,rfl⟩⟩

/-- A list of strings is read as it is if and only if all of them are plain. -/
theorem readsItems_strings {strings : List (List UInt8)} (hne : strings ≠ []) (hrest : Tail (93 :: rest)) :
    ReadsItems (stringsText strings ++ 93 :: rest) (strings.map Json.string) left ↔
      (∀ s ∈ strings, Plain s) ∧ left = rest := by
  have hclose : takeByte 93 (93 :: rest) = some rest := takeByte_self (by decide)
  induction strings with
  | nil => exact absurd rfl hne
  | cons s strings ih =>
    cases strings with
    | nil =>
      simp only [stringsText,List.map_cons,List.map_nil,List.forall_mem_cons,List.not_mem_nil,false_imp_iff,
        implies_true,and_true]
      constructor
      · intro h
        cases h with
        | more hvalue hcomma hread =>
          obtain ⟨-,rfl⟩ := reads_literal_self hrest hvalue
          cases takeByte_unique hclose hcomma
        | last hvalue hclose' =>
          obtain ⟨hplain,rfl⟩ := reads_literal_self hrest hvalue
          cases hclose.symm.trans hclose'
          exact ⟨hplain,rfl⟩
      · rintro ⟨hplain,rfl⟩
        exact (PrintsItems.single (prints_string hplain)).last left
    | cons s' strings =>
      obtain ⟨text,htext⟩ := stringsText_start s' strings
      have hmore := ih (List.cons_ne_nil s' strings)
      have hcs : stringsText (s :: s' :: strings) ++ 93 :: rest =
          literal s ++ 44 :: (stringsText (s' :: strings) ++ 93 :: rest) := by
        simp [stringsText]
      have htail : Tail (44 :: (stringsText (s' :: strings) ++ 93 :: rest)) := by
        rw [htext]
        exact tail_comma _
      have hcomma : takeByte 44 (44 :: (stringsText (s' :: strings) ++ 93 :: rest)) =
          some (stringsText (s' :: strings) ++ 93 :: rest) := takeByte_self (by decide)
      rw [hcs,List.map_cons,List.forall_mem_cons,and_assoc]
      constructor
      · intro h
        cases h with
        | more hvalue hcomma' hread =>
          obtain ⟨hplain,rfl⟩ := reads_literal_self htail hvalue
          cases hcomma.symm.trans hcomma'
          exact ⟨hplain,hmore.mp hread⟩
      · rintro ⟨hplain,hread⟩
        exact ((PrintsItems.single (prints_string hplain)).more _ _ _).mpr ⟨_,hmore.mpr hread,rfl⟩

theorem reads_strings {strings : List (List UInt8)} (hrest : Tail (93 :: rest)) :
    Reads (91 :: (stringsText strings ++ 93 :: rest)) (.array (strings.map Json.string)) left ↔
      (∀ s ∈ strings, Plain s) ∧ left = rest := by
  cases strings with
  | nil =>
    have hempty : Reads (91 :: 93 :: rest) (.array []) rest :=
      .emptyArray (takeByte_self (by decide)) (takeByte_self (by decide))
    constructor
    · intro h
      exact ⟨by simp,(hempty.unique h).2.symm⟩
    · rintro ⟨-,rfl⟩
      exact hempty
  | cons s strings =>
    rw [← readsItems_strings (by simp) hrest]
    exact ⟨ReadsItems.of_array (by simp),reads_array_of_items⟩

end Strings
end JsonReader
