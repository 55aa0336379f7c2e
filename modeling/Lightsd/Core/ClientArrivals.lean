import Lightsd.Core.ClientStreams

/-! # What has arrived of a sequence of values

The bytes that have arrived are whole values followed by white space or by a part of the
next value. From there the read callback dispatches every whole value if the chain and
the buffer end in favourable places.
-/
namespace Lightsd.Core

open OrderedTree Jsmn Json

namespace Json.Stream

/-- The values of a sequence that are whole within its first bytes. -/
def completed : ℕ → Stream → Stream
  | _, [] => []
  | n, (space,value) :: segs =>
    if (space ++ value.text).length ≤ n then
      (space,value) :: completed (n - (space ++ value.text).length) segs
    else []

theorem completed_append (n : ℕ) (segs segs' : Stream) :
    completed (segs.text.length + n) (segs ++ segs') = segs ++ completed n segs' := by
  induction segs with
  | nil => rw [text_nil,List.length_nil,Nat.zero_add,List.nil_append,List.nil_append]
  | cons seg segs ih =>
    obtain ⟨space,value⟩ := seg
    have hlen : (text ((space,value) :: segs)).length = (space ++ value.text).length + (text segs).length := by
      rw [text_cons]
      exact List.length_append
    rw [List.cons_append,completed,hlen,if_pos (by omega),Nat.add_assoc,Nat.add_sub_cancel_left,ih,
      List.cons_append]

theorem exists_completed_append (n : ℕ) (segs : Stream) : ∃ rest, segs = completed n segs ++ rest := by
  induction segs generalizing n with
  | nil => exact ⟨[],rfl⟩
  | cons seg segs ih =>
    obtain ⟨space,value⟩ := seg
    rw [completed]
    split
    · obtain ⟨rest,hrest⟩ := ih (n - (space ++ value.text).length)
      exact ⟨rest,congrArg _ hrest⟩
    · exact ⟨_,rfl⟩

/-- The bytes are white space and then a part of a container. -/
def Inside (tail : List UInt8) : Prop :=
  ∃ (space : List UInt8) (v : Value) (part part' : List UInt8), Space space ∧ v.Valid ∧ v.IsContainer ∧
    part ≠ [] ∧ part' ≠ [] ∧ v.text = part ++ part' ∧ tail = space ++ part

theorem space_or_inside {space js : List UInt8} {v : Value} (hspace : Space space) (hv : v.Valid)
    (hcontainer : v.IsContainer) (hpre : js <+: space ++ v.text) (hlt : js.length < (space ++ v.text).length) :
    Space js ∨ Inside js := by
  obtain ⟨js',hjs⟩ := hpre
  rcases List.append_eq_append_iff.mp hjs with ⟨as,hspace',-⟩ | ⟨part,rfl,htext⟩
  · refine Or.inl (fun b hb => hspace b ?_)
    rw [hspace']
    exact List.mem_append_left _ hb
  · by_cases hpart : part = []
    · rw [hpart,List.append_nil]
      exact Or.inl hspace
    · refine Or.inr ⟨space,v,part,js',hspace,hv,hcontainer,hpart,?_,htext,rfl⟩
      rintro rfl
      rw [List.append_nil] at htext
      rw [htext] at hlt
      exact absurd hlt (lt_irrefl _)

/-- What has arrived of a sequence: its whole values, and a tail. -/
theorem exists_arrived {segs : Stream} {trail js : List UInt8} (hsegs : segs.Containers) (htrail : Space trail)
    (hpre : js <+: segs.text ++ trail) :
    ∃ rest tail, segs = completed js.length segs ++ rest ∧ js = text (completed js.length segs) ++ tail ∧
      tail <+: text rest ++ trail ∧ (Space tail ∨ Inside tail) := by
  induction segs generalizing js with
  | nil =>
    refine ⟨[],js,rfl,rfl,hpre,Or.inl (fun b hb => htrail b ?_)⟩
    exact hpre.subset hb
  | cons seg segs ih =>
    obtain ⟨space,v⟩ := seg
    obtain ⟨hspace,hv,hcontainer⟩ := hsegs _ List.mem_cons_self
    simp only at hspace hv hcontainer
    rw [text_cons,List.append_assoc] at hpre
    rw [completed]
    by_cases hle : (space ++ v.text).length ≤ js.length
    · obtain ⟨js',rfl⟩ := List.prefix_of_prefix_length_le (List.prefix_append _ _) hpre hle
      have hlen : ((space ++ v.text) ++ js').length - (space ++ v.text).length = js'.length := by
        rw [List.length_append,Nat.add_sub_cancel_left]
      obtain ⟨rest,tail,hrest,hjs,htail,hcases⟩ := ih (fun s hs => hsegs s (List.mem_cons_of_mem _ hs))
        ((List.prefix_append_right_inj _).mp hpre)
      refine ⟨rest,tail,?_,?_,htail,hcases⟩
      · rw [if_pos hle,hlen,List.cons_append,← hrest]
      · rw [if_pos hle,hlen,text_cons,List.append_assoc (space ++ v.text),← hjs]
    · have hlt := not_le.mp hle
      have hpre' : js <+: space ++ v.text := List.prefix_of_prefix_length_le hpre (List.prefix_append _ _) hlt.le
      rw [if_neg hle]
      refine ⟨(space,v) :: segs,js,rfl,rfl,?_,space_or_inside hspace hv hcontainer hpre' hlt⟩
      rw [text_cons,List.append_assoc]
      exact hpre

/-- The bytes that have arrived end between two values. -/
def EndsBetween (segs : Stream) (js : List UInt8) : Prop :=
  Space (js.drop (text (completed js.length segs)).length)

instance (segs : Stream) (js : List UInt8) : Decidable (segs.EndsBetween js) :=
  inferInstanceAs (Decidable (Space _))

theorem endsBetween_iff {segs : Stream} {js tail : List UInt8}
    (h : js = text (completed js.length segs) ++ tail) : segs.EndsBetween js ↔ Space tail := by
  have hdrop : js.drop (text (completed js.length segs)).length = tail :=
    (congrArg (List.drop _) h).trans List.drop_left
  rw [EndsBetween,hdrop]

/-- The values that the callback dispatches before it pulls up the buffer: those that are
whole in the first chain, if the chain ends between values. -/
def dispatchable (segs : Stream) (chain : List UInt8) : Stream :=
  if segs.EndsBetween chain then completed chain.length segs else []

end Json.Stream

namespace Client

open Json.Stream

variable {c : Client} {segs : Stream} {trail : List UInt8}

/-- The buffer and its first chain end in places from which the callback dispatches every
value that is whole in the buffer:
* what comes after the whole values is no longer than a request may be;
* the buffer ends between values, or holds no other whole value than those dispatched
  before it is pulled up;
* if the buffer is pulled up while there are bytes of the first chain left, then it is no
  longer than a request may be, and a token array for the chain is large enough for it. -/
structure Favourable (segs : Stream) (buf : List UInt8) (n : ℕ) : Prop where
  short : (buf.drop (completed buf.length segs).text.length).length ≤ maxRequestBufSize
  whole : segs.EndsBetween buf ∨ completed buf.length segs = segs.dispatchable (buf.take n)
  pullup : n = buf.length ∨ buf.take n = (segs.dispatchable (buf.take n)).text ∨
    buf.length - (segs.dispatchable (buf.take n)).text.length ≤ maxRequestBufSize ∧
      (segs.EndsBetween (buf.take n) ∨ parse (buf.take n) none = .error .part ∨
        tokenCount buf ≤ tokenCount (buf.take n))

/-- With the whole buffer in sight, its whole values are dispatched. -/
theorem reads_whole {tail : List UInt8} {tokens : Option ℕ} (hsegs : segs.Containers)
    (hin : c.input = segs.text ++ tail) (hshort : tail.length ≤ maxRequestBufSize)
    (hcases : Space tail ∨ Inside tail ∧ segs = []) (hroom : Roomy tokens c.input) :
    ∃ r, Reads c c.input.length tokens r ∧ Advanced c segs r := by
  rcases hcases with hspace | ⟨⟨space,v,part,part',hspace,hv,hcontainer,hpart,hpart',htext,rfl⟩,rfl⟩
  · exact reads_whole_between hsegs hspace hshort hin hroom
  · rw [text_nil,List.nil_append] at hin
    exact ⟨c,reads_whole_inside hspace hv hcontainer hpart hpart' htext (hin ▸ hshort) hin hroom,.refl c⟩

theorem containers_of_append {segs' : Stream} (h : Stream.Containers (segs ++ segs')) :
    segs.Containers ∧ segs'.Containers :=
  ⟨fun s hs => h s (List.mem_append_left _ hs),fun s hs => h s (List.mem_append_right _ hs)⟩

/-- The first chain ends between values and there is more in the buffer. -/
theorem reads_from_between {Q R : Stream} {space more tail : List UInt8} (hQ : Q.Containers) (hR : R.Containers)
    (hspace : Space space) (hin : c.input = (Q.text ++ space) ++ more) (hne : Q.text ++ space ≠ [])
    (hmore : more ≠ []) (hlong : space = [] ∨ (space ++ more).length ≤ maxRequestBufSize)
    (htail : space ++ more = R.text ++ tail) (hshort : tail.length ≤ maxRequestBufSize)
    (hcases : Space tail ∨ Inside tail ∧ R = []) :
    ∃ r, Reads c (Q.text ++ space).length none r ∧ Advanced c (Q ++ R) r := by
  obtain ⟨c₁,hadv,hin₁,hchain⟩ := reads_chain_between hQ hspace hin hne
  obtain ⟨r,hr,hadv'⟩ := reads_whole hR (hin₁.trans htail) hshort hcases (roomy_none _)
  refine ⟨r,hchain r ?_,hadv.trans hadv'⟩
  split
  · exact hr
  · rename_i hnil
    exact reads_space hspace (by rw [hin₁]; exact hlong.resolve_left hnil) hin₁ hmore hr

theorem favourable_tail {n : ℕ} {tail : List UInt8} (hfav : Favourable segs c.input n)
    (hin : c.input = (completed c.input.length segs).text ++ tail) (htail : Space tail ∨ Inside tail) :
    tail.length ≤ maxRequestBufSize ∧ (Space tail ∨
      Inside tail ∧ completed c.input.length segs = segs.dispatchable (c.input.take n)) := by
  have hdrop : c.input.drop (completed c.input.length segs).text.length = tail :=
    (congrArg (List.drop _) hin).trans List.drop_left
  refine ⟨hdrop ▸ hfav.short,?_⟩
  rcases hfav.whole with hends | hsame
  · exact Or.inl ((endsBetween_iff hin).mp hends)
  · exact htail.imp id (fun hinside => ⟨hinside,hsame⟩)

theorem reads_favourable_between (hsegs : segs.Containers) (htrail : Space trail)
    (hpre : c.input <+: segs.text ++ trail) {n : ℕ} (hn : 0 < n) (hlt : n < c.input.length)
    (hfav : Favourable segs c.input n) (hends : segs.EndsBetween (c.input.take n)) :
    ∃ r, Reads c n none r ∧ Advanced c (completed c.input.length segs) r := by
  obtain ⟨rest,tail,hrest,hin,-,htail⟩ := exists_arrived hsegs htrail hpre
  obtain ⟨hshort,hcases⟩ := favourable_tail hfav hin htail
  obtain ⟨restC,space,hrestC,hchain,-,-⟩ :=
    exists_arrived hsegs htrail ((List.take_prefix n c.input).trans hpre)
  have hspace : Space space := (endsBetween_iff hchain).mp hends
  have hdisp : segs.dispatchable (c.input.take n) = completed (c.input.take n).length segs := if_pos hends
  have hpullup := hfav.pullup
  rw [hdisp] at hcases hpullup
  have hlen : (c.input.take n).length = n := by
    rw [List.length_take,min_eq_left hlt.le]
  rw [hlen] at hrestC hchain hcases hpullup
  generalize completed n segs = Q at *
  have hmore : c.input.drop n ≠ [] := by
    rw [ne_eq,List.drop_eq_nil_iff]
    exact not_le.mpr hlt
  have hsplit : c.input = (Q.text ++ space) ++ c.input.drop n := by
    rw [← hchain,List.take_append_drop]
  have hn' : (Q.text ++ space).length = n := by
    rw [← hchain,hlen]
  have hne : Q.text ++ space ≠ [] := List.ne_nil_of_length_pos (hn' ▸ hn)
  have hinlen : c.input.length = Q.text.length + (space ++ c.input.drop n).length := by
    conv_lhs => rw [hsplit]
    simp only [List.length_append,Nat.add_assoc]
  have hcompleted : completed c.input.length segs = Q ++ completed (space ++ c.input.drop n).length restC := by
    rw [hinlen,hrestC,completed_append]
  have hQR : Stream.Containers (Q ++ completed (space ++ c.input.drop n).length restC) :=
    (containers_of_append (hcompleted ▸ hrest ▸ hsegs)).1
  rw [hcompleted] at hin hcases ⊢
  generalize completed (space ++ c.input.drop n).length restC = R at *
  obtain ⟨hQ,hR⟩ := containers_of_append hQR
  have htail' : space ++ c.input.drop n = R.text ++ tail := by
    rw [Stream.text_append,List.append_assoc] at hin
    rw [List.append_assoc] at hsplit
    exact List.append_cancel_left (hsplit.symm.trans hin)
  have hlong : space = [] ∨ (space ++ c.input.drop n).length ≤ maxRequestBufSize := by
    rcases hpullup with hall | hexact | ⟨hsmall,-⟩
    · exact absurd hall hlt.ne
    · rw [hchain] at hexact
      exact Or.inl (List.append_right_eq_self.mp hexact)
    · exact Or.inr (by omega)
  have hcases' : Space tail ∨ Inside tail ∧ R = [] :=
    hcases.imp id (fun h => ⟨h.1,List.append_right_eq_self.mp h.2⟩)
  rw [← hn']
  exact reads_from_between hQ hR hspace hsplit hne hmore hlong htail' hshort hcases'

theorem reads_favourable_inside (hsegs : segs.Containers) (htrail : Space trail)
    (hpre : c.input <+: segs.text ++ trail) {n : ℕ} (hn : 0 < n) (hlt : n < c.input.length)
    (hfav : Favourable segs c.input n) (hends : ¬ segs.EndsBetween (c.input.take n)) :
    ∃ r, Reads c n none r ∧ Advanced c (completed c.input.length segs) r := by
  obtain ⟨rest,tail,hrest,hin,-,htail⟩ := exists_arrived hsegs htrail hpre
  obtain ⟨hshort,hcases⟩ := favourable_tail hfav hin htail
  have hQ : (completed c.input.length segs).Containers := (containers_of_append (hrest ▸ hsegs)).1
  obtain ⟨restC,tailC,hrestC,hchain,-,htailC⟩ :=
    exists_arrived hsegs htrail ((List.take_prefix n c.input).trans hpre)
  have hQC : (completed (c.input.take n).length segs).Containers := (containers_of_append (hrestC ▸ hsegs)).1
  obtain ⟨space,v,part,part',hspace,hv,hcontainer,hpart,hpart',htext,rfl⟩ :=
    htailC.resolve_left ((endsBetween_iff hchain).not.mp hends)
  have hdisp : segs.dispatchable (c.input.take n) = [] := if_neg hends
  have hpullup := hfav.pullup
  rw [hdisp] at hcases hpullup
  have hlen : (c.input.take n).length = n := by
    rw [List.length_take,min_eq_left hlt.le]
  rw [text_nil,List.length_nil,Nat.sub_zero] at hpullup
  obtain ⟨hsmall,hroom⟩ : c.input.length ≤ maxRequestBufSize ∧
      (parse (c.input.take n) none = .error .part ∨ tokenCount c.input ≤ tokenCount (c.input.take n)) := by
    rcases hpullup with hall | hnil | ⟨hsmall,hroom⟩
    · exact absurd hall hlt.ne
    · rw [hnil] at hlen
      exact absurd hlen hn.ne
    · exact ⟨hsmall,hroom.resolve_left hends⟩
  have hmore : c.input.drop n ≠ [] := by
    rw [ne_eq,List.drop_eq_nil_iff]
    exact not_le.mpr hlt
  rw [hlen] at hchain hQC
  rw [← List.append_assoc] at hchain
  have hsplit : c.input = ((completed n segs).text ++ space ++ part) ++ c.input.drop n := by
    rw [← hchain,List.take_append_drop]
  obtain ⟨tokens,htokens,hreads⟩ := reads_chain_inside hQC hspace hv hcontainer hpart hpart' htext hsmall
    hsplit hmore
  rw [← hchain,hlen] at hreads
  rw [← hchain] at htokens
  have hroomy : Roomy tokens c.input := by
    rintro cap rfl
    rcases htokens with hnone | ⟨hne,hcap⟩
    · cases hnone
    · rw [Option.some_inj.mp hcap]
      exact hroom.resolve_left hne
  obtain ⟨r,hr,hadv⟩ := reads_whole hQ hin hshort hcases hroomy
  exact ⟨r,hreads r hr,hadv⟩

/-- From favourable places, the callback dispatches the values that are whole in the
buffer. -/
theorem advanced_readCallback (hsegs : segs.Containers) (htrail : Space trail)
    (hpre : c.input <+: segs.text ++ trail) {n : ℕ} (hn : 0 < n) (hle : n ≤ c.input.length)
    (hfav : Favourable segs c.input n) :
    Advanced c (completed c.input.length segs) (c.readCallback n) := by
  suffices hreads : ∃ r, Reads c n none r ∧ Advanced c (completed c.input.length segs) r by
    obtain ⟨r,hr,hadv⟩ := hreads
    rwa [hr.readCallback_eq hle]
  rcases Nat.eq_or_lt_of_le hle with rfl | hlt
  · obtain ⟨rest,tail,hrest,hin,-,htail⟩ := exists_arrived hsegs htrail hpre
    obtain ⟨hshort,hcases⟩ := favourable_tail hfav hin htail
    rw [List.take_length] at hcases
    have hQ : (completed c.input.length segs).Containers := (containers_of_append (hrest ▸ hsegs)).1
    refine reads_whole hQ hin hshort ?_ (roomy_none _)
    rcases hcases with hspace | ⟨hinside,hsame⟩
    · exact Or.inl hspace
    · by_cases hends : segs.EndsBetween c.input
      · exact Or.inl ((endsBetween_iff hin).mp hends)
      · exact Or.inr ⟨hinside,hsame.trans (if_neg hends)⟩
  · by_cases hends : segs.EndsBetween (c.input.take n)
    · exact reads_favourable_between hsegs htrail hpre hn hlt hfav hends
    · exact reads_favourable_inside hsegs htrail hpre hn hlt hfav hends

end Client
end Lightsd.Core
