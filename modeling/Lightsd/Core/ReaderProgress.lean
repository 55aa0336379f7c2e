import Lightsd.Library.MeasuredLoop
import Lightsd.Core.PipeReads

/-! # The readers finish

A round of the loop of a client's read callback parses what is in sight, and once more if
that gave the size of a token array. It returns, or removes bytes, or has the whole buffer
pulled up, and then the next round returns or removes bytes. A round of a command pipe, with
the whole buffer in sight from the start, returns or removes bytes.
-/
namespace Lightsd.Core

open Jsmn MeasuredLoop

namespace Client

/-- Where the loop of the read callback is: the client, how many bytes are in sight and the
size of the token array, if there is one. -/
structure Cursor where
  client : Client
  nbytes : ℕ
  tokens : Option ℕ

def Round.outcome : Round → Client ⊕ Cursor
  | .done c => .inl c
  | .again c nbytes tokens => .inr ⟨c,nbytes,tokens⟩

/-- A round of the do/while loop, with the jump back to the parser when the token array has
been allocated. -/
def iteration (s : Cursor) : Client ⊕ Cursor :=
  match s.tokens,s.client.readRound s.nbytes s.tokens with
  | none, .again c nbytes (some cap) => (c.readRound nbytes (some cap)).outcome
  | _, round => round.outcome

def Cursor.Seen (s : Cursor) : Prop := s.nbytes ≤ s.client.input.length

def Cursor.left (s : Cursor) : ℕ := s.client.input.length

variable {s s' : Cursor} {r : Client}

theorem outcome_eq_inr {round : Round} (h : round.outcome = .inr s') :
    round = .again s'.client s'.nbytes s'.tokens := by
  cases round with
  | done c => cases h
  | again c nbytes tokens =>
    cases h
    rfl

theorem outcome_eq_inl {round : Round} (h : round.outcome = .inl r) : round = .done r := by
  cases round with
  | done c =>
    cases h
    rfl
  | again c nbytes tokens => cases h

/-- A round of the do/while loop is one parse, or one that allocates and another one. -/
theorem iteration_cases (s : Cursor) :
    (iteration s = (s.client.readRound s.nbytes s.tokens).outcome ∧ ∀ c nbytes tokens,
      s.client.readRound s.nbytes s.tokens = .again c nbytes tokens → s.tokens = none → tokens = none) ∨
    ∃ c nbytes cap, s.tokens = none ∧ s.client.readRound s.nbytes s.tokens = .again c nbytes (some cap) ∧
      iteration s = (c.readRound nbytes (some cap)).outcome := by
  unfold iteration
  split
  next c nbytes cap htokens hround => exact .inr ⟨c,nbytes,cap,htokens,hround,rfl⟩
  next hother =>
    refine .inl ⟨rfl,fun c nbytes tokens hround hnone => ?_⟩
    cases tokens with
    | none => rfl
    | some cap => exact (hother c nbytes cap hnone hround).elim

/-- Another round has fewer bytes to go through, or all of them in sight. -/
theorem iteration_again (hs : s.Seen) (h : iteration s = .inr s') :
    s'.Seen ∧ (s'.left < s.left ∨ s.nbytes ≠ s.left ∧ s'.client = s.client ∧ s'.nbytes = s.left) := by
  rcases iteration_cases s with ⟨heq,hplain⟩ | ⟨c,nbytes,cap,htokens,hround,heq⟩
  · have hround := outcome_eq_inr (heq.symm.trans h)
    obtain ⟨hn,hless | ⟨hne,hc,hall,-⟩ | ⟨hnone,-,-,hsome⟩⟩ := continues_readRound hs hround
    · exact ⟨hn,.inl hless⟩
    · exact ⟨hn,.inr ⟨hne,hc,hall⟩⟩
    · exact absurd (hplain _ _ _ hround hnone) hsome
  · obtain ⟨hn,hfirst⟩ := continues_readRound hs hround
    obtain ⟨hn',hsecond⟩ := continues_readRound hn (outcome_eq_inr (heq.symm.trans h))
    refine ⟨hn',?_⟩
    rcases hfirst with hless | ⟨-,-,-,hsame⟩ | ⟨-,rfl,rfl,-⟩
    · rcases hsecond with hless' | ⟨-,hc,-⟩ | ⟨hnone,-⟩
      · exact .inl (hless'.trans hless)
      · exact .inl (by rwa [Cursor.left,hc])
      · cases hnone
    · rw [htokens] at hsame
      cases hsame
    · rcases hsecond with hless' | ⟨hne,hc,hall,-⟩ | ⟨hnone,-⟩
      · exact .inl hless'
      · exact .inr ⟨hne,hc,hall⟩
      · cases hnone

/-- A round returns or removes bytes, or the next one does. -/
theorem iteration_soon (hs : s.Seen) : SoonProgress iteration Cursor.left s := by
  cases h : iteration s with
  | inl r => exact .inl (fun s' h' => nomatch h.symm.trans h')
  | inr s' =>
    obtain ⟨hs',hless | ⟨-,hc,hall⟩⟩ := iteration_again hs h
    · refine .inl (fun t ht => ?_)
      cases h.symm.trans ht
      exact hless
    · refine .inr ⟨s',h,le_of_eq (congrArg (fun c : Client => c.input.length) hc),fun t ht => ?_⟩
      obtain ⟨-,hless | ⟨hne,-⟩⟩ := iteration_again hs' ht
      · exact hless
      · rw [hall,Cursor.left,Cursor.left,hc] at hne
        exact absurd rfl hne

/-- The rounds of the do/while loop are those of the model of the callback. -/
theorem reads_of_run {fuel : ℕ} (h : run iteration fuel s = some r) : Reads s.client s.nbytes s.tokens r := by
  induction fuel generalizing s with
  | zero => cases h
  | succ fuel ih =>
    cases hstep : iteration s with
    | inl r' =>
      rw [run_inl hstep (Nat.succ_pos fuel)] at h
      cases h
      rcases iteration_cases s with ⟨heq,-⟩ | ⟨c,nbytes,cap,-,hround,heq⟩
      · exact .done (outcome_eq_inl (heq.symm.trans hstep))
      · exact .again hround (.done (outcome_eq_inl (heq.symm.trans hstep)))
    | inr s' =>
      rw [run_inr hstep] at h
      have hrest := ih h
      rcases iteration_cases s with ⟨heq,-⟩ | ⟨c,nbytes,cap,-,hround,heq⟩
      · exact .again (outcome_eq_inr (heq.symm.trans hstep)) hrest
      · exact .again hround (.again (outcome_eq_inr (heq.symm.trans hstep)) hrest)

theorem run_iteration (c : Client) {nbytes : ℕ} (hn : nbytes ≤ c.input.length) {fuel : ℕ}
    (hfuel : 2 * c.input.length + 1 < fuel) : run iteration fuel ⟨c,nbytes,none⟩ = some (c.readCallback nbytes) := by
  have hseen : Cursor.Seen ⟨c,nbytes,none⟩ := hn
  obtain ⟨r,hr⟩ := returns_of_soon Cursor.Seen (fun _ _ hs h => (iteration_again hs h).1)
    (fun _ hs => iteration_soon hs) hseen
  have hrun := hr fuel hfuel
  rw [hrun,(reads_of_run hrun).readCallback_eq hn]

end Client

namespace Pipe

/-- A round of the loop between two reads of a pipe, with the jump back to the parser when
the token array has been allocated. -/
def serveRound (p : Pipe) : Pipe ⊕ Pipe :=
  match parse p.input none with
  | .error .part => .inl p.keepOrDrain
  | .error _ => .inl p.drainAll
  | .ok counted =>
    if counted.count = 0 then .inl p.keepOrDrain
    else match parse p.input (some counted.count) with
      | .error .part => .inl p.keepOrDrain
      | .error _ => .inl p.drainAll
      | .ok filled =>
        if filled.count = 0 then .inl p.keepOrDrain
        else
          let p' := (p.dispatchRequest p.input.length filled.tokens).drain (Client.requestSize filled)
          if p.input.length ≤ Client.requestSize filled then .inl p' else .inr p'

variable {p : Pipe}

theorem serveRequests_round (fuel : ℕ) (p : Pipe) :
    serveRequests (fuel + 1) p = (serveRound p).elim id (serveRequests fuel) := by
  rw [serveRequests,serveRound]
  cases parse p.input none with
  | error e => cases e <;> rfl
  | ok counted =>
    simp only
    split
    · rfl
    · cases parse p.input (some counted.count) with
      | error e => cases e <;> rfl
      | ok filled =>
        simp only
        split
        · rfl
        · split <;> rfl

def left (p : Pipe) : ℕ := p.input.length

theorem serveRound_progress (p : Pipe) : Progress serveRound left p := by
  intro p' h
  unfold serveRound at h
  split at h
  · cases h
  · cases h
  · split at h
    · cases h
    · split at h
      · cases h
      · cases h
      · split at h
        · cases h
        · rename_i filled hfill hcount
          simp only at h
          split at h
          · cases h
          · cases h
            have htake : p.input.take p.input.length = p.input := List.take_length
            obtain ⟨hpos,-,hle⟩ := Client.requestSize_bounds (htake.symm ▸ hfill) hcount
            rw [left,left,Client.drain_length]
            simp only [Client.dispatchRequest]
            omega

theorem serveRequests_of_run {fuel : ℕ} {r : Pipe} (h : run serveRound fuel p = some r) :
    serveRequests fuel p = r := by
  induction fuel generalizing p with
  | zero => cases h
  | succ fuel ih =>
    rw [serveRequests_round]
    cases hround : serveRound p with
    | inl r' =>
      rw [run_inl hround (Nat.succ_pos fuel)] at h
      exact Option.some.inj h
    | inr p' =>
      rw [run_inr hround] at h
      exact ih h

theorem serveRequests_enough {fuel : ℕ} (hfuel : p.input.length ≤ fuel) :
    serveRequests fuel p = serveRequests p.input.length p := by
  induction fuel, hfuel using Nat.le_induction with
  | base => rfl
  | succ fuel hle ih => rw [serveRequests_succ hle,ih]

theorem run_serveRound (p : Pipe) {fuel : ℕ} (hfuel : 2 * p.input.length + 1 < fuel) :
    run serveRound fuel p = some (serveRequests p.input.length p) := by
  obtain ⟨r,hr⟩ := returns_of_soon (fun _ => True) (fun _ _ _ _ => trivial)
    (fun p _ => .inl (serveRound_progress p)) trivial
  have hrun := hr fuel hfuel
  rw [hrun,← serveRequests_of_run hrun,serveRequests_enough (by omega)]

end Pipe

/-- The loop of a client's read callback returns, whatever is in its buffer and however much
of it is in the first chain, and so does the loop of a command pipe after every read: a round
returns or removes bytes, or, for a client, is followed by one that does. -/
theorem readers_finish :
    (∀ (c : Client) (nbytes : ℕ), nbytes ≤ c.input.length → ∀ fuel, 2 * c.input.length + 1 < fuel →
      run Client.iteration fuel ⟨c,nbytes,none⟩ = some (c.readCallback nbytes)) ∧
    (∀ s : Client.Cursor, s.Seen → SoonProgress Client.iteration Client.Cursor.left s) ∧
    (∀ (p : Pipe) (bs : List UInt8), ∀ fuel, 2 * (p.input ++ bs).length + 1 < fuel →
      run Pipe.serveRound fuel { p with input := p.input ++ bs } = some (p.readBytes bs)) ∧
    ∀ p : Pipe, Progress Pipe.serveRound Pipe.left p :=
  ⟨fun c _ hn _ hfuel => Client.run_iteration c hn hfuel,fun _ hs => Client.iteration_soon hs,
    fun _ _ _ hfuel => Pipe.run_serveRound _ hfuel,Pipe.serveRound_progress⟩

/-- An array whose last bracket is in the second chain. -/
def splitArray : Client := { input := [91,49,93] }

theorem readers_finish_splitArray :
    run Client.iteration 8 ⟨splitArray,2,none⟩ = some (splitArray.readCallback 2) ∧
      (splitArray.readCallback 2).drained = 3 :=
  ⟨readers_finish.1 splitArray 2 (by decide +kernel) 8 (by decide +kernel),by decide +kernel⟩

end Lightsd.Core
