import Lightsd.Core.LightStateParts
import Lightsd.Library.Utf8Texts

/-! # The states of bulbs as JSON

The answer to a request for light states is read as an array with an object for each bulb,
whose label and tags are strings for the labels that the daemon has, if and only if all of
these labels stand for themselves between quotes and no bulb is without a label. A label
with a quote, a backslash or a control byte, or one that is not UTF-8, breaks the answer.
-/
namespace Lightsd.Lifx.Daemon

open Lightsd.Core Jsonrpc JsonStrings JsonReader Utf8Texts

variable {set : Setting} {d : Daemon} {b : BulbRef} {bs : List BulbRef}

/-- The labels of the tags of a bulb that its gateway knows. -/
def tagLabels (d : Daemon) (b : BulbRef) : List (List UInt8) :=
  (d.knownTagIds b).map (d.tagLabelText (d.bulb b).gw)

def bulbLabelText (d : Daemon) (b : BulbRef) : List UInt8 := cString (d.bulb b).state.label.toList

/-- An object for a bulb: no key twice, its label, and its tags. -/
structure Describes (d : Daemon) (b : BulbRef) (ms : List (List UInt8 × Json)) : Prop where
  keys : (ms.map Prod.fst).Nodup
  label : (ascii "label",.string (d.bulbLabelText b)) ∈ ms
  tags : (ascii "tags",.array ((d.tagLabels b).map .string)) ∈ ms

/-- A text in UTF-8 that is an array of JSON with one object for each bulb. -/
def AnswersStates (d : Daemon) (bs : List BulbRef) (text : List UInt8) : Prop :=
  Utf8 text ∧ ∃ objects, Parses text (.array (objects.map .object)) ∧ List.Forall₂ d.Describes bs objects

/-- The instants that are printed for a bulb. -/
def printedInstants (b : Bulb) : List UInt64 :=
  [(b.ips .mcu).fwInfo.builtAt,(b.ips .mcu).fwInfo.installedAt,(b.ips .wifi).fwInfo.builtAt,
    (b.ips .wifi).fwInfo.installedAt,b.runtimeInfo.time]

/-- A bulb whose fields are those of a bulb: finite floats and instants that do not overflow
where these are printed, a gateway on the Internet, the names of a product, and tags that are
there. -/
structure Reportable (set : Setting) (d : Daemon) (b : BulbRef) : Prop where
  finite : set.debug = true → ∀ ip, isFinite ((d.bulb b).ips ip).state.signalStrength = true
  instants : set.debug = true → ∀ t ∈ printedInstants (d.bulb b), nsecsToSecs t * 1000000000 < 2 ^ 63
  peer : Internet (d.gw (d.bulb b).gw).peer
  named : Named (d.bulb b)
  tags : ∀ id ∈ d.knownTagIds b, ((d.gw (d.bulb b).gw).tags id).isSome = true

/-- The labels of a bulb stand for themselves between quotes, and it has one. -/
structure PlainLabels (d : Daemon) (b : BulbRef) : Prop where
  named : d.bulbLabelText b ≠ []
  label : Plain (d.bulbLabelText b)
  tags : ∀ label ∈ d.tagLabels b, Plain label

/-- The labels of a bulb are text. -/
structure Utf8Labels (d : Daemon) (b : BulbRef) : Prop where
  label : Utf8 (d.bulbLabelText b)
  tags : ∀ label ∈ d.tagLabels b, Utf8 label

/-- The object of a bulb. -/
def objectText (set : Setting) (d : Daemon) (b : BulbRef) : List UInt8 :=
  bulbText set (d.gw (d.bulb b).gw) (d.bulb b) ++ d.tagsText b ++ ascii "]\x7d"

def objectsText (set : Setting) (d : Daemon) : List BulbRef → List UInt8
  | [] => []
  | [b] => d.objectText set b
  | b :: b' :: bs => d.objectText set b ++ 44 :: d.objectsText set (b' :: bs)

theorem tagsText_eq (d : Daemon) (b : BulbRef) : d.tagsText b = stringsText (d.tagLabels b) := by
  have hquote : ascii "\"" = [34] := rfl
  have hquoted : (fun id => ascii "\"" ++ d.tagLabelText (d.bulb b).gw id ++ ascii "\"") =
      literal ∘ d.tagLabelText (d.bulb b).gw := by
    funext id
    simp [hquote,literal]
  rw [tagsText,hquoted,tagLabels,← List.map_map]
  generalize (d.knownTagIds b).map (d.tagLabelText (d.bulb b).gw) = labels
  induction labels with
  | nil => rfl
  | cons label labels ih =>
    cases labels with
    | nil => simp [stringsText,List.intercalate]
    | cons label' labels =>
      rw [stringsText,← ih]
      simp [List.intercalate]

section Text

variable (hset : set.printer.Sound)
include hset

/-- No bulb is left out. -/
theorem lightStates_eq (hbs : ∀ b ∈ bs, Reportable set d b) : d.lightStates set bs = d.objectsText set bs := by
  have hcomma : ascii "]\x7d," = ascii "]\x7d" ++ [44] := rfl
  induction bs with
  | nil => rfl
  | cons b bs ih =>
    have hb := hbs b (by simp)
    have hfits := bulbText_fits hset hb.peer hb.finite hb.named
    have ih := ih (fun b' hb' => hbs b' (by simp [hb']))
    rw [lightStates,if_neg (by omega),ih]
    cases bs with
    | nil => simp [objectsText,objectText]
    | cons b' bs => simp [objectsText,objectText,hcomma]

theorem answer_eq (hbs : ∀ b ∈ bs, Reportable set d b) :
    ascii "[" ++ d.lightStates set bs ++ ascii "]" = 91 :: (d.objectsText set bs ++ [93]) := by
  rw [lightStates_eq hset hbs]
  rfl

theorem objectText_piece (hb : Reportable set d b) : ∃ known, MembersPiece knownKeys 1600 known ∧ ∀ rest,
    d.objectText set b ++ rest = 123 :: (known ++ 44 :: (memberKey (ascii "label") ++ (literal (bulbLabel (d.bulb b)) ++
      44 :: (memberKey (ascii "tags") ++ 91 :: (stringsText (d.tagLabels b) ++ 93 :: 125 :: rest))))) := by
  obtain ⟨known,htext,hpiece⟩ := bulbText_piece hset hb.peer hb.finite hb.named
  have hclose : ascii "]\x7d" = [93,125] := rfl
  refine ⟨known,hpiece,fun rest => ?_⟩
  simp [objectText,htext,tagsText_eq,hclose]

omit hset in
theorem bulbLabel_of_ne (h : d.bulbLabelText b ≠ []) : bulbLabel (d.bulb b) = d.bulbLabelText b := by
  rw [bulbLabel]
  split
  · exact absurd ‹_› h
  · rfl

omit hset in
theorem label_word : WordPiece 5 (ascii "label") ∧ WordPiece 4 (ascii "tags") := ⟨.of_check rfl,.of_check rfl⟩

/-- Plain labels are read back. -/
theorem object_read (hb : Reportable set d b) (hplain : d.PlainLabels b) {rest : List UInt8}
    (hrest : Tail (93 :: 125 :: rest)) :
    ∃ ms, Reads (d.objectText set b ++ rest) (.object ms) rest ∧ d.Describes b ms := by
  obtain ⟨known,hpiece,htext⟩ := objectText_piece hset hb
  obtain ⟨ms,hkeys,hms⟩ := hpiece.prints
  have htags : Reads (91 :: (stringsText (d.tagLabels b) ++ 93 :: 125 :: rest))
      (.array ((d.tagLabels b).map .string)) (125 :: rest) := (reads_strings hrest).mpr ⟨hplain.tags,rfl⟩
  have hlast := readsMembers_close label_word.2.plain htags
  have hlabel := (PrintsMembers.single label_word.1.plain (prints_string hplain.label)).more _ _ _ |>.mpr ⟨_,hlast,rfl⟩
  have hmembers := reads_object_of_members ((hms.more _ _ _).mpr ⟨_,hlabel,rfl⟩)
  refine ⟨ms ++ [(ascii "label",.string (d.bulbLabelText b)),(ascii "tags",.array ((d.tagLabels b).map .string))],
    ?_,?_,List.mem_append_right ms List.mem_cons_self,
    List.mem_append_right ms (List.mem_cons_of_mem _ List.mem_cons_self)⟩
  · rw [htext,bulbLabel_of_ne hplain.named]
    simpa using hmembers
  · rw [List.map_append,hkeys]
    exact (show (knownKeys ++ [ascii "label",ascii "tags"]).Nodup by decide +kernel)

omit hset in
/-- The member with a key is the one with its value. -/
theorem value_unique {ms : List (List UInt8 × Json)} (hkeys : (ms.map Prod.fst).Nodup) {key : List UInt8} {v v' : Json}
    (h : (key,v) ∈ ms) (h' : (key,v') ∈ ms) : v = v' :=
  congrArg Prod.snd (List.inj_on_of_nodup_map hkeys h h' rfl)

omit hset in
/-- A label is read back from between its quotes only if it is plain and not empty. -/
theorem label_plain {v : Json} {rest left : List UInt8} (hrest : Tail rest)
    (hread : Reads (literal (bulbLabel (d.bulb b)) ++ rest) v left) (hv : v = .string (d.bulbLabelText b)) :
    d.bulbLabelText b ≠ [] ∧ Plain (d.bulbLabelText b) ∧ left = rest := by
  by_cases hne : d.bulbLabelText b = []
  · have haddr : bulbLabel (d.bulb b) = (d.bulb b).addr.toList.flatMap hexByte := by
      rw [bulbLabel,show cString (d.bulb b).state.label.toList = [] from hne]
    have hword := bulbId_word (d.bulb b).addr
    obtain ⟨s,hs,hstring⟩ := hread.of_quote (takeByte_literal _ rest)
    rw [haddr,readString_plain hword.plain] at hstring
    have hread : (d.bulb b).addr.toList.flatMap hexByte = s := congrArg Prod.fst (Option.some.inj hstring)
    have hempty := (hread.trans (Json.string.inj (hs.symm.trans hv))).trans hne
    obtain ⟨b₀,b₁,b₂,b₃,b₄,b₅,hbytes⟩ := exists_bytes (d.bulb b).addr
    simp [hbytes,hexByte] at hempty
  · rw [bulbLabel_of_ne hne] at hread
    rw [hv] at hread
    exact ⟨hne,reads_literal_self hrest hread⟩

/-- Only plain labels are read back. -/
theorem object_plain (hb : Reportable set d b) {rest left : List UInt8} (hrest : Tail (93 :: 125 :: rest))
    {ms : List (List UInt8 × Json)} (hread : Reads (d.objectText set b ++ rest) (.object ms) left)
    (h : d.Describes b ms) : d.PlainLabels b ∧ left = rest := by
  obtain ⟨known,hpiece,htext⟩ := objectText_piece hset hb
  obtain ⟨knownMembers,-,hknown⟩ := hpiece.prints
  rw [htext] at hread
  have hmembers := ReadsMembers.of_object (List.ne_nil_of_mem h.label) hread
  obtain ⟨ms',hmore,rfl⟩ := (hknown.more _ _ _).mp hmembers
  obtain ⟨v,cs,hv,hnext⟩ := hmore.of_key (readsKey_memberKey label_word.1.plain)
  have hmem : (ascii "label",v) ∈ knownMembers ++ ms' := by
    rcases hnext with ⟨_,_,_,_,rfl⟩ | ⟨_,rfl⟩ <;> simp
  obtain ⟨hne,hlabel,rfl⟩ := label_plain (tail_comma _) hv (value_unique h.keys hmem h.label)
  have hcomma : takeByte 44
      (44 :: (memberKey (ascii "tags") ++ 91 :: (stringsText (d.tagLabels b) ++ 93 :: 125 :: rest))) =
      some (memberKey (ascii "tags") ++ 91 :: (stringsText (d.tagLabels b) ++ 93 :: 125 :: rest)) :=
    takeByte_self (by decide)
  rcases hnext with ⟨cs',ms'',hcomma',htags,rfl⟩ | ⟨hclose,-⟩
  · cases hcomma.symm.trans hcomma'
    obtain ⟨v',cs'',hv',hend⟩ := htags.of_key (readsKey_memberKey label_word.2.plain)
    have hmem' : (ascii "tags",v') ∈ knownMembers ++ (ascii "label",v) :: ms'' := by
      rcases hend with ⟨_,_,_,_,rfl⟩ | ⟨_,rfl⟩ <;> simp
    rw [value_unique h.keys hmem' h.tags,reads_strings hrest] at hv'
    obtain ⟨hplain,rfl⟩ := hv'
    have hbrace : takeByte 125 (125 :: rest) = some rest := takeByte_self (by decide)
    rcases hend with ⟨_,_,hcomma,_⟩ | ⟨hclose,-⟩
    · cases takeByte_unique hbrace hcomma
    · cases hbrace.symm.trans hclose
      exact ⟨⟨hne,hlabel,hplain⟩,rfl⟩
  · cases takeByte_unique hcomma hclose

omit hset in
theorem objectsText_start (set : Setting) (d : Daemon) (b : BulbRef) (bs : List BulbRef) :
    ∃ text, d.objectsText set (b :: bs) = 123 :: 34 :: text := by
  obtain ⟨text,htext⟩ := bulbText_start set (d.gw (d.bulb b).gw) (d.bulb b)
  cases bs with
  | nil => exact ⟨text ++ d.tagsText b ++ ascii "]\x7d",by simp [objectsText,objectText,htext]⟩
  | cons b' bs =>
    exact ⟨text ++ d.tagsText b ++ ascii "]\x7d" ++ 44 :: d.objectsText set (b' :: bs),
      by simp [objectsText,objectText,htext]⟩

omit hset in
theorem tail_last : Tail [93,125,93] := ⟨[93,125,93],by simp,by simp [Plain,PlainByte],.inl rfl⟩

omit hset in
theorem tail_next (b : BulbRef) (bs : List BulbRef) (rest : List UInt8) :
    Tail (93 :: 125 :: 44 :: (d.objectsText set (b :: bs) ++ rest)) := by
  obtain ⟨text,htext⟩ := objectsText_start set d b bs
  exact ⟨[93,125,44,123],by simp,by simp [Plain,PlainByte],.inr ⟨text ++ rest,by simp [htext]⟩⟩

/-- The objects of bulbs with plain labels are read one by one. -/
theorem objects_read (hne : bs ≠ []) (hbs : ∀ b ∈ bs, Reportable set d b) (hplain : ∀ b ∈ bs, d.PlainLabels b) :
    ∃ objects, ReadsItems (d.objectsText set bs ++ [93]) (objects.map .object) [] ∧
      List.Forall₂ d.Describes bs objects := by
  induction bs with
  | nil => exact absurd rfl hne
  | cons b bs ih =>
    have hb := hbs b (by simp)
    have hlabels := hplain b (by simp)
    cases bs with
    | nil =>
      obtain ⟨ms,hread,hms⟩ := object_read hset hb hlabels tail_last
      exact ⟨[ms],readsItems_close hread,.cons hms .nil⟩
    | cons b' bs =>
      obtain ⟨objects,hitems,hobjects⟩ := ih (by simp) (fun c hc => hbs c (by simp [hc]))
        (fun c hc => hplain c (by simp [hc]))
      obtain ⟨ms,hread,hms⟩ := object_read hset hb hlabels (tail_next b' bs [93])
      refine ⟨ms :: objects,?_,.cons hms hobjects⟩
      rw [objectsText,List.append_assoc,List.cons_append]
      exact (readsItems_comma hread).mpr ⟨_,hitems,rfl⟩

/-- Objects that are read one by one are those of bulbs with plain labels. -/
theorem objects_plain (hbs : ∀ b ∈ bs, Reportable set d b) {objects : List (List (List UInt8 × Json))}
    {left : List UInt8}
    (hread : ReadsItems (d.objectsText set bs ++ [93]) (objects.map .object) left)
    (h : List.Forall₂ d.Describes bs objects) : ∀ b ∈ bs, d.PlainLabels b := by
  induction h with
  | nil => simp
  | @cons b ms bs objects hms h ih =>
    have hb := hbs b (by simp)
    cases bs with
    | nil =>
      cases h
      obtain ⟨cs,hvalue,-⟩ := hread.of_cons
      simpa using (object_plain hset hb tail_last hvalue hms).1
    | cons b' bs =>
      rw [objectsText,List.append_assoc,List.cons_append] at hread
      obtain ⟨cs,hvalue,hnext⟩ := hread.of_cons
      obtain ⟨hlabels,rfl⟩ := object_plain hset hb (tail_next b' bs [93]) hvalue hms
      have hcomma : takeByte 44 (44 :: (d.objectsText set (b' :: bs) ++ [93])) = some _ := takeByte_self (by decide)
      rcases hnext with ⟨cs',hcomma',hmore⟩ | ⟨hclose,-⟩
      · cases hcomma.symm.trans hcomma'
        have hrest := ih (fun c hc => hbs c (by simp [hc])) hmore
        simpa using ⟨hlabels,by simpa using hrest⟩
      · cases takeByte_unique hcomma hclose

omit hset in
theorem utf8_literal (label : List UInt8) : Utf8 (literal label) ↔ Utf8 label := by
  rw [literal,utf8_cons_ascii_iff (by decide),utf8_append_ascii_iff (by decide)]
  simp [utf8_nil]

omit hset in
theorem utf8_strings (labels : List (List UInt8)) : Utf8 (stringsText labels) ↔ ∀ label ∈ labels, Utf8 label := by
  induction labels with
  | nil => simp [stringsText,utf8_nil]
  | cons label labels ih =>
    cases labels with
    | nil => simp [stringsText,utf8_literal]
    | cons label' labels =>
      rw [stringsText,utf8_append_ascii_iff (by decide),utf8_literal,ih]
      simp

/-- The object of a bulb is in UTF-8 if and only if its labels are. -/
theorem utf8_object (hb : Reportable set d b) :
    Utf8 (d.objectText set b) ↔ Utf8 (bulbLabel (d.bulb b)) ∧ ∀ label ∈ d.tagLabels b, Utf8 label := by
  obtain ⟨known,hpiece,htext⟩ := objectText_piece hset hb
  have hknown : Utf8 known := utf8_of_ascii hpiece.ascii
  have hlabel : Utf8 (ascii "label") := utf8_of_ascii label_word.1.ascii
  have htags : Utf8 (ascii "tags") := utf8_of_ascii label_word.2.ascii
  have hobject := htext []
  rw [List.append_nil] at hobject
  rw [hobject]
  simp (disch := decide) only [memberKey,literal,List.cons_append,List.append_assoc,List.nil_append,utf8_cons_ascii_iff,
    utf8_append_ascii_iff,utf8_strings,hknown,hlabel,htags,utf8_nil,true_and,and_true]

theorem utf8_objects (hbs : ∀ b ∈ bs, Reportable set d b) : Utf8 (d.objectsText set bs) ↔
    ∀ b ∈ bs, Utf8 (bulbLabel (d.bulb b)) ∧ ∀ label ∈ d.tagLabels b, Utf8 label := by
  induction bs with
  | nil => simp [objectsText,utf8_nil]
  | cons b bs ih =>
    have hb := hbs b (by simp)
    cases bs with
    | nil => simp [objectsText,utf8_object hset hb]
    | cons b' bs =>
      rw [objectsText,utf8_append_ascii_iff (by decide),utf8_object hset hb,ih (fun c hc => hbs c (by simp [hc]))]
      simp

/-- The answer is an array with an object for each bulb if and only if the labels are plain. -/
theorem objects_parsed_iff (hbs : ∀ b ∈ bs, Reportable set d b) :
    (∃ objects, Parses (91 :: (d.objectsText set bs ++ [93])) (.array (objects.map .object)) ∧
      List.Forall₂ d.Describes bs objects) ↔ ∀ b ∈ bs, d.PlainLabels b := by
  constructor
  · rintro ⟨objects,⟨left,hread,-⟩,hobjects⟩
    cases bs with
    | nil => simp
    | cons b bs =>
      have hne : objects.map Json.object ≠ [] := by
        cases hobjects
        simp
      exact objects_plain hset hbs (ReadsItems.of_array hne hread) hobjects
  · intro hplain
    cases bs with
    | nil =>
      have hempty : Reads [91,93] (.array []) [] :=
        .emptyArray (takeByte_self (by decide)) (takeByte_self (by decide))
      exact ⟨[],⟨[],hempty,rfl⟩,.nil⟩
    | cons b bs =>
      obtain ⟨objects,hread,hobjects⟩ := objects_read hset (by simp) hbs hplain
      exact ⟨objects,⟨[],reads_array_of_items hread,rfl⟩,hobjects⟩

/-- The light states are answered as an array of JSON with an object for each bulb, its label and its tags if and only
if every bulb has a label and all of the labels are text that needs no escapes. -/
theorem light_states_answered (hbs : ∀ b ∈ bs, Reportable set d b) :
    d.AnswersStates bs (ascii "[" ++ d.lightStates set bs ++ ascii "]") ↔
      ∀ b ∈ bs, d.PlainLabels b ∧ d.Utf8Labels b := by
  have hutf8 : Utf8 (91 :: (d.objectsText set bs ++ [93])) ↔ Utf8 (d.objectsText set bs) := by
    rw [utf8_cons_ascii_iff (by decide),utf8_append_ascii_iff (by decide)]
    simp [utf8_nil]
  rw [AnswersStates,answer_eq hset hbs,objects_parsed_iff hset hbs,hutf8,utf8_objects hset hbs]
  constructor
  · rintro ⟨htext,hplain⟩ b hb
    have hlabels := hplain b hb
    have hutf := htext b hb
    rw [bulbLabel_of_ne hlabels.named] at hutf
    exact ⟨hlabels,hutf.1,hutf.2⟩
  · intro h
    refine ⟨fun b hb => ?_,fun b hb => (h b hb).1⟩
    rw [bulbLabel_of_ne (h b hb).1.named]
    exact ⟨(h b hb).2.label,(h b hb).2.tags⟩

end Text

/-- A bulb with a label of one byte and a tag of the same name, behind a gateway on the local
network. -/
def labelledBulb (c : UInt8) : Daemon :=
  { bulb := fun _ => { state := { LightState.zero with label := (Vector.replicate 32 0).set 0 c, tags := 1 } }
    gw := fun _ => { peer := [2,0,221,124,192,168,1,10,0,0,0,0,0,0,0,0], tagIds := 1, tags := fun _ => some 0 }
    tag := fun _ => { label := [c] } }

theorem labelledBulb_reportable (c : UInt8) : ∀ b ∈ [0], Reportable debugSetting (labelledBulb c) b := by
  intro b _
  have hfinite : isFinite 0 = true := by decide
  have hinstants : ∀ t ∈ printedInstants ((labelledBulb c).bulb b), nsecsToSecs t * 1000000000 < 2 ^ 63 := by
    intro t ht
    have hzero : t = 0 := by simpa [printedInstants,labelledBulb] using ht
    rw [hzero]
    decide
  exact ⟨fun _ _ => hfinite,fun _ => hinstants,Or.inl rfl,⟨by simp [labelledBulb],by simp [labelledBulb]⟩,
    fun _ _ => rfl⟩

theorem light_states_answered_one : (labelledBulb 97).AnswersStates [0]
    (ascii "[" ++ (labelledBulb 97).lightStates debugSetting [0] ++ ascii "]") := by
  have hlabel : (labelledBulb 97).bulbLabelText 0 = [97] := rfl
  have htags : (labelledBulb 97).tagLabels 0 = [[97]] := rfl
  have hplain : Plain [97] := by simp [Plain,PlainByte]
  have hutf8 : Utf8 [97] := utf8_of_ascii (by simp)
  apply (light_states_answered libraryPrinter_sound (labelledBulb_reportable 97)).mpr
  intro b hb
  rw [List.mem_singleton.mp hb]
  exact ⟨⟨by simp [hlabel],by rwa [hlabel],by simpa [htags] using hplain⟩,by rwa [hlabel],by simpa [htags] using hutf8⟩

/-- A label that is a quote ends its string early. -/
theorem quote_label_breaks : ¬ (labelledBulb 34).AnswersStates [0]
    (ascii "[" ++ (labelledBulb 34).lightStates debugSetting [0] ++ ascii "]") := by
  have hbs := labelledBulb_reportable 34
  have hlabel : (labelledBulb 34).bulbLabelText 0 = [34] := rfl
  rw [AnswersStates,answer_eq libraryPrinter_sound hbs,objects_parsed_iff libraryPrinter_sound hbs]
  rintro ⟨-,h⟩
  have hquote := (h 0 (by simp)).label 34
  simp [hlabel,PlainByte] at hquote

end Lightsd.Lifx.Daemon
