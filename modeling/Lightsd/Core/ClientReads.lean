import Lightsd.Core.Client
import Lightsd.Core.JsmnArrivals

/-! # The read callback round by round

A round either ends the callback or leaves less work: fewer bytes, or all of them in
sight, or a token array. So the callback has the fuel that it needs, and what it returns
can be followed from round to round.
-/
namespace Lightsd.Core.Client

open Jsmn

variable {c c' r : Client} {fuel nbytes nbytes' : ℕ} {tokens tokens' : Option ℕ} {p : Parser}

theorem requestSize_eq (h : p.tokens ≠ []) : requestSize p = (p.stopAt 0).toNat := by
  obtain ⟨t,ts,hts⟩ := List.exists_cons_of_ne_nil h
  rw [requestSize,Parser.stopAt,hts]
  rfl

theorem requestSize_bounds {cap : ℕ} (h : parse (c.input.take nbytes) (some cap) = .ok p)
    (hcount : p.count ≠ 0) : 0 < requestSize p ∧ requestSize p ≤ nbytes ∧ requestSize p ≤ c.input.length := by
  obtain ⟨hpos,hle⟩ := stopAt_zero_of_parse h hcount
  have hne : p.tokens ≠ [] := by
    intro hnil
    rw [Parser.stopAt,hnil] at hpos
    exact absurd hpos (by decide)
  rw [requestSize_eq hne]
  rw [List.length_take] at hle
  omega

/-- The work that is left: the bytes, then whether they are all in sight, then whether
there is a token array. -/
def work (c : Client) (nbytes : ℕ) (tokens : Option ℕ) : ℕ :=
  4 * c.input.length + (if nbytes = c.input.length then 0 else 2) + (if tokens = none then 1 else 0)

theorem work_le (c : Client) (nbytes : ℕ) (tokens : Option ℕ) :
    c.work nbytes tokens ≤ 4 * c.input.length + 3 := by
  rw [work]
  split <;> split <;> omega

theorem le_work (c : Client) (nbytes : ℕ) (tokens : Option ℕ) : 4 * c.input.length ≤ c.work nbytes tokens := by
  rw [work]
  omega

theorem resume_again (h : c.resume tokens = .again c' nbytes' tokens') :
    c' = c ∧ nbytes' = c.input.length ∧ tokens' = tokens := by
  unfold resume at h
  split at h
  · cases h
  · cases h
    exact ⟨rfl,rfl,rfl⟩

theorem drain_length (c : Client) (n : ℕ) : (c.drain n).input.length = c.input.length - n := List.length_drop

/-- What another round can start from: fewer bytes are left, or all of them are in sight
now, or there is a token array now. -/
def Continues (c : Client) (nbytes : ℕ) (tokens : Option ℕ) (c' : Client) (nbytes' : ℕ) (tokens' : Option ℕ) : Prop :=
  nbytes' ≤ c'.input.length ∧ (c'.input.length < c.input.length ∨
    nbytes ≠ c.input.length ∧ c' = c ∧ nbytes' = c.input.length ∧ tokens' = tokens ∨
    tokens = none ∧ c' = c ∧ nbytes' = nbytes ∧ tokens' ≠ none)

theorem continues_drain {n : ℕ} (hpos : 0 < n) (hne : 0 < c.input.length)
    (h : (c.drain n).resume tokens = .again c' nbytes' tokens') :
    c.Continues nbytes tokens c' nbytes' tokens' := by
  obtain ⟨rfl,rfl,rfl⟩ := resume_again h
  refine ⟨le_rfl,.inl ?_⟩
  rw [drain_length]
  omega

theorem continues_wait (h : c.waitForMore nbytes tokens = .again c' nbytes' tokens') :
    c.Continues nbytes tokens c' nbytes' tokens' := by
  unfold waitForMore at h
  split at h
  next hbig => exact continues_drain (by omega) (by omega) h
  next =>
    split at h
    next => cases h
    next hne =>
      obtain ⟨rfl,rfl,rfl⟩ := resume_again h
      exact ⟨le_rfl,.inr (.inl ⟨hne,rfl,rfl,rfl⟩)⟩

theorem continues_dispatch {cap : ℕ} (hn : nbytes ≤ c.input.length)
    (hp : parse (c.input.take nbytes) (some cap) = .ok p) (hcount : p.count ≠ 0)
    (h : c.dispatchAndDrain nbytes p = .again c' nbytes' tokens') :
    c.Continues nbytes tokens c' nbytes' tokens' := by
  obtain ⟨hpos,hle,hle'⟩ := requestSize_bounds hp hcount
  have hlen : ((c.dispatchRequest nbytes p.tokens).drain (requestSize p)).input.length =
      c.input.length - requestSize p := drain_length _ _
  unfold dispatchAndDrain at h
  simp only at h
  split at h
  next =>
    cases h
    exact ⟨by omega,.inl (by omega)⟩
  next =>
    obtain ⟨rfl,rfl,rfl⟩ := resume_again h
    exact ⟨le_rfl,.inl (by omega)⟩

theorem continues_readRound (hn : nbytes ≤ c.input.length)
    (h : c.readRound nbytes tokens = .again c' nbytes' tokens') :
    c.Continues nbytes tokens c' nbytes' tokens' := by
  have hpos : ∀ e, parse (c.input.take nbytes) tokens = .error e → 0 < nbytes := by
    intro e he
    rw [Nat.pos_iff_ne_zero]
    rintro rfl
    cases tokens <;> cases he
  unfold readRound at h
  split at h
  next he =>
    have hbytes := hpos _ he
    exact continues_drain hbytes (by omega) h
  next he =>
    have hbytes := hpos _ he
    exact continues_drain hbytes (by omega) h
  next => exact continues_wait h
  next p hp =>
    split at h
    next => exact continues_wait h
    next hcount =>
      cases tokens with
      | none =>
        cases h
        exact ⟨hn,.inr (.inr ⟨rfl,rfl,rfl,Option.some_ne_none _⟩)⟩
      | some cap => exact continues_dispatch hn hp hcount h

/-- Another round has less work to do. -/
theorem work_readRound (hn : nbytes ≤ c.input.length)
    (h : c.readRound nbytes tokens = .again c' nbytes' tokens') :
    nbytes' ≤ c'.input.length ∧ c'.work nbytes' tokens' < c.work nbytes tokens := by
  obtain ⟨hn',hless | ⟨hne,rfl,rfl,rfl⟩ | ⟨rfl,rfl,rfl,hsome⟩⟩ := continues_readRound hn h
  · have hw := work_le c' nbytes' tokens'
    have hw' := le_work c nbytes tokens
    exact ⟨hn',by omega⟩
  · refine ⟨hn',?_⟩
    rw [work,work,if_pos rfl,if_neg hne]
    omega
  · refine ⟨hn',?_⟩
    rw [work,work,if_pos rfl,if_neg hsome]
    omega

/-- What the rounds lead to. -/
inductive Reads : Client → ℕ → Option ℕ → Client → Prop
  | done {c r : Client} {nbytes : ℕ} {tokens : Option ℕ} (h : c.readRound nbytes tokens = .done r) :
      Reads c nbytes tokens r
  | again {c c' r : Client} {nbytes nbytes' : ℕ} {tokens tokens' : Option ℕ}
      (h : c.readRound nbytes tokens = .again c' nbytes' tokens') (rest : Reads c' nbytes' tokens' r) :
      Reads c nbytes tokens r

theorem Reads.readLoop_eq (h : Reads c nbytes tokens r) (hn : nbytes ≤ c.input.length)
    (hfuel : c.work nbytes tokens < fuel) : readLoop fuel c nbytes tokens = some r := by
  induction h generalizing fuel with
  | done hround =>
    cases fuel with
    | zero => cases hfuel
    | succ fuel => rw [readLoop,hround]
  | again hround _ ih =>
    obtain ⟨hn',hlt⟩ := work_readRound hn hround
    cases fuel with
    | zero => cases hfuel
    | succ fuel =>
      rw [readLoop,hround]
      exact ih hn' (by omega)

theorem Reads.readCallback_eq (h : Reads c nbytes none r) (hn : nbytes ≤ c.input.length) :
    c.readCallback nbytes = r := by
  have hfuel : c.work nbytes none < c.readFuel := Nat.lt_succ_of_le (work_le c nbytes none)
  rw [readCallback,h.readLoop_eq hn hfuel,Option.getD_some]

end Lightsd.Core.Client
