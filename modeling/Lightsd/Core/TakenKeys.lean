import Lightsd.Core.TokenLimits

/-! # Tokens that are taken for keys

The walks compare an index with the number of tokens before they read there, with one
exception: behind a token that is taken for a key a value is read without a look. A walk
that is given all the tokens there are leaves them if and only if it takes the last one
for a key, so all that has to be known is which tokens it takes for keys.
-/
namespace Lightsd.Core.Jsonrpc

open IndexLoop Jsmn

section Entries
variable (toks : List Token)

/-- Where the value of an entry is that begins at an index. -/
def valueIndex (type : TokenType) (i : ℕ) : ℕ := if type = .object then i + 1 else i

/-- The tokens that are taken for keys where a container is passed, by the number of its entries
that are left at an index. The key of an entry is not looked at: it can be any token. -/
inductive EntryKey : TokenType → ℕ → ℕ → ℕ → Prop
  | here {n i : ℕ} (hi : i < toks.length) : EntryKey .object (n + 1) i i
  | inside {type : TokenType} {n i k : ℕ} {t : Token} (hread : readToken toks (valueIndex type i) = .ok t)
      (ht : isContainer t = true) (h : EntryKey t.type t.size (valueIndex type i + 1) k) : EntryKey type (n + 1) i k
  | next {type : TokenType} {n i j k : ℕ} (hskip : skipValue toks (valueIndex type i) toks.length = .ok j)
      (h : EntryKey type n j k) : EntryKey type (n + 1) i k

/-- The tokens that are taken for keys where the container at an index is passed. -/
def ContainerKey (i k : ℕ) : Prop :=
  ∃ t, readToken toks i = .ok t ∧ isContainer t = true ∧ EntryKey toks t.type t.size (i + 1) k

/-- The entries of a container are passed, with all the tokens there are. -/
def passEntries (type : TokenType) (n i : ℕ) : Except Crash ℕ :=
  consumeEntries (consumeObjectOrArray toks · toks.length) toks type toks.length n i

variable {toks} {parsed : ℕ}

theorem passValue_congr {consume consume' : ℕ → Except Crash ℕ} {i : ℕ} (h : consume i = consume' i) :
    passValue consume toks i = passValue consume' toks i := by
  unfold passValue
  rw [h]

theorem consumeEntries_congr {consume consume' : ℕ → Except Crash ℕ} (hadv : ∀ i j, consume i = .ok j → i < j)
    (type : TokenType) (n : ℕ) {i : ℕ} (h : ∀ j, i ≤ j → consume j = consume' j) :
    consumeEntries consume toks type parsed n i = consumeEntries consume' toks type parsed n i := by
  induction n generalizing i with
  | zero => rfl
  | succ n ih =>
    have hle : i ≤ if type = .object then i + 1 else i := by split <;> omega
    unfold consumeEntries
    rw [← passValue_congr (h _ hle)]
    split
    · cases hpass : passValue consume toks (if type = .object then i + 1 else i) with
      | error c => rfl
      | ok j =>
        have hlt := lt_of_passValue hadv hpass
        exact ih (fun k hk => h k (by omega))
    · rfl

/-- Fuel that is not used up makes no difference. -/
theorem consumeFuel_congr {fuel fuel' i : ℕ} (hf : parsed - i < fuel) (hf' : parsed - i < fuel') :
    consumeFuel toks parsed fuel i = consumeFuel toks parsed fuel' i := by
  induction fuel generalizing fuel' i with
  | zero => omega
  | succ fuel ih =>
    obtain ⟨fuel',rfl⟩ : ∃ n, fuel' = n + 1 := ⟨fuel' - 1,by omega⟩
    unfold consumeFuel
    cases readToken toks i with
    | error c => rfl
    | ok t =>
      simp only [bind,Except.bind]
      split
      · rfl
      · split
        · rfl
        next hi =>
          exact consumeEntries_congr (fun _ _ hij => lt_of_consumeFuel hij) _ _
            (fun j hj => ih (by omega) (by omega))

theorem consumeObjectOrArray_eq {i : ℕ} {t : Token} (hread : readToken toks i = .ok t) (ht : isContainer t = true) :
    consumeObjectOrArray toks i toks.length = passEntries toks t.type t.size (i + 1) := by
  have hlt := lt_of_readToken hread
  unfold consumeObjectOrArray consumeFuel
  simp only [hread,bind,Except.bind,ht,Bool.not_true,Bool.false_eq_true,if_false]
  rw [if_neg (by omega)]
  exact consumeEntries_congr (fun _ _ hij => lt_of_consumeFuel hij) _ _
    (fun j hj => consumeFuel_congr (by omega) (by omega))

theorem skipValue_container {i : ℕ} {t : Token} (hread : readToken toks i = .ok t) (ht : isContainer t = true) :
    skipValue toks i toks.length = passEntries toks t.type t.size (i + 1) := by
  rw [← consumeObjectOrArray_eq hread ht]
  simp [skipValue,passValue,hread,ht,bind,Except.bind]

theorem skipValue_leaf {i : ℕ} {t : Token} (hread : readToken toks i = .ok t) (ht : isContainer t = false) :
    skipValue toks i toks.length = .ok (i + 1) := by
  simp [skipValue,passValue,hread,ht,bind,Except.bind]

theorem skipValue_past {i : ℕ} (h : toks.length ≤ i) : skipValue toks i toks.length = .error (.tokenIndex i) := by
  simp [skipValue,passValue,readToken,h,bind,Except.bind]

theorem passEntries_succ {type : TokenType} {n i : ℕ} (hi : i < toks.length) : passEntries toks type (n + 1) i = (do
    let j ← skipValue toks (valueIndex type i) toks.length
    passEntries toks type n j) := by
  unfold passEntries
  rw [consumeEntries,if_pos hi]
  rfl

theorem le_valueIndex (type : TokenType) (i : ℕ) : i ≤ valueIndex type i := by
  unfold valueIndex
  split <;> omega

/-- A container is passed past the end of the tokens if its last key is the last token. -/
theorem passEntries_fails_of_key {type : TokenType} {n i : ℕ} (h : EntryKey toks type n i (toks.length - 1)) :
    ∃ c, passEntries toks type n i = .error c := by
  generalize hk : toks.length - 1 = k at h
  induction h with
  | @here n i hi =>
    refine ⟨.tokenIndex (i + 1),?_⟩
    rw [passEntries_succ hi,show valueIndex .object i = i + 1 from rfl,skipValue_past (by omega)]
    rfl
  | @inside type n i k t hread ht _ ih =>
    obtain ⟨c,hc⟩ := ih hk
    have hi := lt_of_readToken hread
    have hle := le_valueIndex type i
    rw [passEntries_succ (by omega),skipValue_container hread ht,hc]
    exact ⟨c,rfl⟩
  | @next type n i j k hskip _ ih =>
    obtain ⟨c,hc⟩ := ih hk
    have hi := lt_length_of_skipValue hskip
    have hle := le_valueIndex type i
    rw [passEntries_succ (by omega),hskip]
    exact ⟨c,hc⟩

/-- A container is passed past the end of the tokens in no other way. -/
theorem key_of_passEntries_fails {type : TokenType} {n i : ℕ} {c : Crash}
    (h : passEntries toks type n i = .error c) : EntryKey toks type n i (toks.length - 1) := by
  generalize hm : toks.length - i = m
  induction m using Nat.strong_induction_on generalizing type n i c with
  | h m ih =>
    cases n with
    | zero => cases h
    | succ n =>
      by_cases hi : i < toks.length
      · rw [passEntries_succ hi] at h
        have hle := le_valueIndex type i
        cases hskip : skipValue toks (valueIndex type i) toks.length with
        | ok j =>
          have hlt := (skipValue_bounds hskip).1
          rw [hskip] at h
          exact .next hskip (ih (toks.length - j) (by omega) h rfl)
        | error e =>
          by_cases hvalue : valueIndex type i < toks.length
          · obtain ⟨t,ht⟩ := exists_readToken hvalue
            cases hcontainer : isContainer t with
            | true =>
              rw [skipValue_container ht hcontainer] at hskip
              exact .inside ht hcontainer (ih _ (by omega) hskip rfl)
            | false =>
              rw [skipValue_leaf ht hcontainer] at hskip
              cases hskip
          · -- only behind a key is there nothing to be read
            unfold valueIndex at hvalue
            split at hvalue
            next hobject =>
              subst hobject
              rw [show toks.length - 1 = i by omega]
              exact .here hi
            · exact absurd hi hvalue
      · unfold passEntries at h
        rw [consumeEntries,if_neg hi] at h
        cases h

theorem passEntries_fails_iff {type : TokenType} {n i : ℕ} :
    (∃ c, passEntries toks type n i = .error c) ↔ EntryKey toks type n i (toks.length - 1) :=
  ⟨fun ⟨_,hc⟩ => key_of_passEntries_fails hc,passEntries_fails_of_key⟩

/-- A value that is there cannot be passed if and only if it has the last token for a key. -/
theorem skipValue_fails_iff {i : ℕ} (hi : i < toks.length) :
    (∃ c, skipValue toks i toks.length = .error c) ↔ ContainerKey toks i (toks.length - 1) := by
  obtain ⟨t,ht⟩ := exists_readToken hi
  cases hcontainer : isContainer t with
  | true =>
    rw [skipValue_container ht hcontainer,passEntries_fails_iff]
    refine ⟨fun hkey => ⟨t,ht,hcontainer,hkey⟩,?_⟩
    rintro ⟨t',ht',-,hkey⟩
    obtain rfl := Except.ok.inj (ht.symm.trans ht')
    exact hkey
  | false =>
    rw [skipValue_leaf ht hcontainer]
    constructor
    · rintro ⟨c,hc⟩
      cases hc
    · rintro ⟨t',ht',hcontainer',-⟩
      obtain rfl := Except.ok.inj (ht.symm.trans ht')
      rw [hcontainer] at hcontainer'
      cases hcontainer'

theorem consume_fails_iff {i : ℕ} {t : Token} (hread : readToken toks i = .ok t) (ht : isContainer t = true) :
    (∃ c, consumeObjectOrArray toks i toks.length = .error c) ↔ ContainerKey toks i (toks.length - 1) := by
  rw [← skipValue_fails_iff (lt_of_readToken hread),skipValue_container hread ht,consumeObjectOrArray_eq hread ht]

end Entries

section Members
variable {φ : Type} [DecidableEq φ] (schema : List (Node φ)) (toks : List Token) (json : List UInt8)

/-- A value is taken for a key, unless the row of the key refuses it. -/
def Accepts (out : Output φ) (key value : Token) : Prop :=
  ∀ node, findNode schema json key = some node →
    node.typeCmp value json = true ∧ out.seen node.valueOffset = false

/-- The tokens that are taken for keys in the walk over the members of an object, from an index
on: the strings it comes to, and what is taken for a key in their values. -/
inductive MemberKey : ℕ → Output φ → ℕ → Prop
  | here {i : ℕ} {out : Output φ} {t : Token} (hread : readToken toks i = .ok t) (ht : t.type = .string) :
      MemberKey i out i
  | inside {i k : ℕ} {out : Output φ} {key value : Token} (hread : readToken toks i = .ok key)
      (hkey : key.type = .string) (hvalue : readToken toks (i + 1) = .ok value)
      (haccepts : Accepts schema json out key value) (h : ContainerKey toks (i + 1) k) : MemberKey i out k
  | next {i i' k : ℕ} {out out' : Output φ}
      (hround : dictBody schema toks json toks.length i out = .ok (.next i' out')) (h : MemberKey i' out' k) :
      MemberKey i out k

variable {schema toks json}

/-- A round of the walk over a key and a value that are there. -/
theorem dictBody_fails_iff {i : ℕ} {out : Output φ} {key value : Token} (hread : readToken toks i = .ok key)
    (hkey : key.type = .string) (hvalue : readToken toks (i + 1) = .ok value) :
    (∃ c, dictBody schema toks json toks.length i out = .error c) ↔
      Accepts schema json out key value ∧ ContainerKey toks (i + 1) (toks.length - 1) := by
  rw [← skipValue_fails_iff (lt_of_readToken hvalue)]
  unfold dictBody Accepts
  simp only [hread,hkey,hvalue,bind,Except.bind,ne_eq,not_true_eq_false,if_false]
  cases hnode : findNode schema json key with
  | none => cases hskip : skipValue toks (i + 1) toks.length <;> simp
  | some node =>
    cases htype : node.typeCmp value json with
    | false => simp [htype]
    | true =>
      cases hseen : out.seen node.valueOffset with
      | true => simp [htype,hseen]
      | false => cases hskip : skipValue toks (i + 1) toks.length <;> simp [htype,hseen]

/-- A round of the walk over the last token. -/
theorem dictBody_last {i : ℕ} {out : Output φ} {key : Token} (hread : readToken toks i = .ok key)
    (hkey : key.type = .string) (hlast : i + 1 = toks.length) :
    dictBody schema toks json toks.length i out = .error (.tokenIndex (i + 1)) := by
  have hpast : readToken toks (i + 1) = .error (.tokenIndex (i + 1)) := by simp [readToken,hlast]
  unfold dictBody
  simp only [hread,hkey,hpast,skipValue_past hlast.ge,bind,Except.bind,ne_eq,not_true_eq_false,if_false]
  cases findNode schema json key <;> rfl

theorem dictBody_string {i : ℕ} {out : Output φ} {c : Crash} (hi : i < toks.length)
    (h : dictBody schema toks json toks.length i out = .error c) :
    ∃ key, readToken toks i = .ok key ∧ key.type = .string := by
  obtain ⟨key,hread⟩ := exists_readToken hi
  refine ⟨key,hread,?_⟩
  by_contra hkey
  simp [dictBody,hread,hkey,bind,Except.bind] at h

/-- The walk over the members of an object leaves the tokens if and only if it takes the last one
for a key. -/
theorem dictWalk_fails_iff (i : ℕ) (out : Output φ) :
    (∃ c, dictWalk schema json toks toks.length i out = .error c) ↔
      MemberKey schema toks json i out (toks.length - 1) := by
  have hloop : ∀ i out, dictWalk schema json toks toks.length i out = _ :=
    fun i out => loop_eq (dictBody_advances schema json toks toks.length) i out
  constructor
  · rintro ⟨c,hc⟩
    generalize hn : toks.length - i = n
    induction n using Nat.strong_induction_on generalizing i out c with
    | h n ih =>
      rw [hloop] at hc
      split at hc
      next hi =>
        cases hbody : dictBody schema toks json toks.length i out with
        | error e =>
          obtain ⟨key,hread,hkey⟩ := dictBody_string hi hbody
          by_cases hlast : i + 1 < toks.length
          · obtain ⟨value,hvalue⟩ := exists_readToken hlast
            obtain ⟨haccepts,hinside⟩ := (dictBody_fails_iff hread hkey hvalue).mp ⟨e,hbody⟩
            exact .inside hread hkey hvalue haccepts hinside
          · rw [show toks.length - 1 = i by omega]
            exact .here hread hkey
        | ok step =>
          rw [hbody] at hc
          cases step with
          | done r => cases hc
          | next i' out' =>
            have hlt := dictBody_advances schema json toks toks.length i out i' out' hi hbody
            exact .next hbody (ih (toks.length - i') (by omega) i' out' c hc rfl)
      · cases hc
  · intro h
    generalize hk : toks.length - 1 = k at h
    induction h with
    | @here i out t hread ht =>
      have hi := lt_of_readToken hread
      rw [hloop,if_pos hi,dictBody_last hread ht (by omega)]
      exact ⟨_,rfl⟩
    | @inside i k out key value hread hkey hvalue haccepts hinside =>
      subst hk
      obtain ⟨c,hc⟩ := (dictBody_fails_iff hread hkey hvalue).mpr ⟨haccepts,hinside⟩
      rw [hloop,if_pos (lt_of_readToken hread),hc]
      exact ⟨c,rfl⟩
    | @next i i' k out out' hround _ ih =>
      obtain ⟨t,hread,-,-⟩ := dictBody_next hround
      rw [hloop,if_pos (lt_of_readToken hread),hround]
      exact ih hk

end Members
end Lightsd.Core.Jsonrpc
