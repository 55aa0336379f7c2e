import Lightsd.Core.Jsmn

/-! # The tokenizer as a machine that reads byte after byte

The tokenizer scans ahead when it meets a string or a primitive. The machine here reads
each byte once and remembers what it is in the middle of instead; the two agree on every
input. What holds of the machine after every byte then says what the tokenizer does on
every prefix of an input.
-/
namespace Lightsd.Core.Jsmn

/-- What the machine is in the middle of. -/
inductive Mode
  | normal
  | string (start : ℕ) (mode : StringMode)
  | primitive (start : ℕ)
  deriving DecidableEq

/-- A NUL byte between tokens makes the tokenizer ignore the rest of the input. -/
inductive Scan
  | failed (e : ParseError)
  | halted (p : Parser)
  | reading (mode : Mode) (pos : ℕ) (p : Parser)

namespace Scan

def ofParser (mode : Mode) (pos : ℕ) : Except ParseError Parser → Scan
  | .error e => .failed e
  | .ok p => .reading mode pos p

/-- Read a character between tokens. -/
def enter (numTokens : Option ℕ) (p : Parser) (pos : ℕ) (c : UInt8) : Scan :=
  match charKind c with
  | .quote => .reading (.string pos .plain) (pos + 1) p
  | .primitive =>
    if p.rejectsPrimitive then .failed .inval else .reading (.primitive pos) (pos + 1) p
  | _ => ofParser .normal (pos + 1) (Prod.fst <$> parseChar numTokens p pos c [])

/-- The token from a position to another one is complete. -/
def complete (numTokens : Option ℕ) (p : Parser) (tok : Token) : Except ParseError Parser :=
  (fun p => { p with count := p.count + 1 }) <$> p.addIf numTokens tok

def stepString (numTokens : Option ℕ) (p : Parser) (start pos : ℕ) (c : UInt8) : StringMode → Scan
  | .plain =>
    if c = 0 then .failed .part
    else if c = 34 then ofParser .normal (pos + 1) (complete numTokens p ⟨.string,start + 1,pos,0⟩)
    else .reading (.string start (if c = 92 then .escape else .plain)) (pos + 1) p
  | .escape =>
    if isEscape c then .reading (.string start .plain) (pos + 1) p
    else if c = 117 then .reading (.string start (.hex 3)) (pos + 1) p
    else .failed .inval
  | .hex digits =>
    if c = 0 then .failed .part
    else if isHex c then .reading (.string start (.afterDigit digits)) (pos + 1) p
    else .failed .inval

def stepPrimitive (numTokens : Option ℕ) (p : Parser) (start pos : ℕ) (c : UInt8) : Scan :=
  if c = 0 then .failed .part
  else if endsPrimitive c then
    match complete numTokens p ⟨.primitive,start,pos,0⟩ with
    | .error e => .failed e
    | .ok p => enter numTokens p pos c
  else if c < 32 || 127 ≤ c then .failed .inval
  else .reading (.primitive start) (pos + 1) p

def step (numTokens : Option ℕ) : Scan → UInt8 → Scan
  | .failed e, _ => .failed e
  | .halted p, _ => .halted p
  | .reading .normal pos p, c => if c = 0 then .halted p else enter numTokens p pos c
  | .reading (.string start mode) pos p, c => stepString numTokens p start pos c mode
  | .reading (.primitive start) pos p, c => stepPrimitive numTokens p start pos c

def run (numTokens : Option ℕ) (s : Scan) (js : List UInt8) : Scan := js.foldl (step numTokens) s

def start : Scan := .reading .normal 0 {}

/-- What the tokenizer returns when the input ends here. -/
def result : Scan → Except ParseError Parser
  | .failed e => .error e
  | .halted p => finish p
  | .reading .normal _ p => finish p
  | .reading _ _ _ => .error .part

variable {numTokens : Option ℕ}

@[simp] theorem run_nil (s : Scan) : run numTokens s [] = s := rfl

@[simp] theorem run_cons (s : Scan) (c : UInt8) (cs : List UInt8) :
    run numTokens s (c :: cs) = run numTokens (step numTokens s c) cs := rfl

theorem run_append (s : Scan) (js ks : List UInt8) :
    run numTokens s (js ++ ks) = run numTokens (run numTokens s js) ks := List.foldl_append

@[simp] theorem run_failed (e : ParseError) (js : List UInt8) :
    run numTokens (.failed e) js = .failed e := by
  induction js with
  | nil => rfl
  | cons c cs ih => exact ih

@[simp] theorem run_halted (p : Parser) (js : List UInt8) :
    run numTokens (.halted p) js = .halted p := by
  induction js with
  | nil => rfl
  | cons c cs ih => exact ih

/-- What a byte does inside a string depends on the byte and the mode alone. -/
theorem string_cases (mode : StringMode) (c : UInt8) (cs : List UInt8) :
    (∃ e, parseString mode (c :: cs) = .error e ∧ ∀ numTokens start pos p,
      step numTokens (.reading (.string start mode) pos p) c = .failed e) ∨
    (parseString mode (c :: cs) = .ok 0 ∧ ∀ numTokens start pos p,
      step numTokens (.reading (.string start mode) pos p) c =
        ofParser .normal (pos + 1) (complete numTokens p ⟨.string,start + 1,pos,0⟩)) ∨
    ∃ mode', parseString mode (c :: cs) = (· + 1) <$> parseString mode' cs ∧ ∀ numTokens start pos p,
      step numTokens (.reading (.string start mode) pos p) c =
        .reading (.string start mode') (pos + 1) p := by
  cases mode with
  | plain =>
    simp only [parseString,step,stepString]
    by_cases h0 : c = 0
    · exact Or.inl ⟨.part,if_pos h0,fun _ _ _ _ => if_pos h0⟩
    · by_cases h34 : c = 34
      · exact Or.inr (Or.inl ⟨(if_neg h0).trans (if_pos h34),fun _ _ _ _ => (if_neg h0).trans (if_pos h34)⟩)
      · exact Or.inr (Or.inr ⟨_,(if_neg h0).trans (if_neg h34),
          fun _ _ _ _ => (if_neg h0).trans (if_neg h34)⟩)
  | escape =>
    simp only [parseString,step,stepString]
    by_cases he : isEscape c = true
    · exact Or.inr (Or.inr ⟨_,if_pos he,fun _ _ _ _ => if_pos he⟩)
    · by_cases hu : c = 117
      · exact Or.inr (Or.inr ⟨_,(if_neg he).trans (if_pos hu),fun _ _ _ _ => (if_neg he).trans (if_pos hu)⟩)
      · exact Or.inl ⟨.inval,(if_neg he).trans (if_neg hu),fun _ _ _ _ => (if_neg he).trans (if_neg hu)⟩
  | hex digits =>
    simp only [parseString,step,stepString]
    by_cases h0 : c = 0
    · exact Or.inl ⟨.part,if_pos h0,fun _ _ _ _ => if_pos h0⟩
    · by_cases hh : isHex c = true
      · exact Or.inr (Or.inr ⟨_,(if_neg h0).trans (if_pos hh),fun _ _ _ _ => (if_neg h0).trans (if_pos hh)⟩)
      · exact Or.inl ⟨.inval,(if_neg h0).trans (if_neg hh),fun _ _ _ _ => (if_neg h0).trans (if_neg hh)⟩

theorem run_string_error {js : List UInt8} {mode : StringMode} {e : ParseError} (start pos : ℕ)
    (p : Parser) (h : parseString mode js = .error e) :
    (run numTokens (.reading (.string start mode) pos p) js).result = .error e := by
  induction js generalizing mode pos with
  | nil =>
    rw [parseString] at h
    cases h
    rfl
  | cons c cs ih =>
    rw [run_cons]
    rcases string_cases mode c cs with
      ⟨e',heq,hstep⟩ | ⟨heq,hstep⟩ | ⟨mode',heq,hstep⟩
    · rw [heq] at h
      cases h
      rw [hstep,run_failed]
      rfl
    · rw [heq] at h
      cases h
    · rw [heq] at h
      rw [hstep]
      cases hrest : parseString mode' cs with
      | error e' =>
        rw [hrest] at h
        cases h
        exact ih (pos + 1) hrest
      | ok n =>
        rw [hrest] at h
        cases h

theorem run_string_ok {js : List UInt8} {mode : StringMode} {n : ℕ} (start pos : ℕ)
    (p : Parser) (h : parseString mode js = .ok n) :
    run numTokens (.reading (.string start mode) pos p) js =
      run numTokens (ofParser .normal (pos + n + 1)
        (complete numTokens p ⟨.string,start + 1,(pos + n : ℕ),0⟩)) (js.drop (n + 1)) := by
  induction js generalizing mode pos n with
  | nil =>
    rw [parseString] at h
    cases h
  | cons c cs ih =>
    rw [run_cons]
    rcases string_cases mode c cs with
      ⟨e',heq,hstep⟩ | ⟨heq,hstep⟩ | ⟨mode',heq,hstep⟩
    · rw [heq] at h
      cases h
    · rw [heq] at h
      cases h
      rw [hstep]
      rfl
    · rw [heq] at h
      rw [hstep]
      cases hrest : parseString mode' cs with
      | error e' =>
        rw [hrest] at h
        cases h
      | ok m =>
        rw [hrest] at h
        cases h
        rw [ih (pos + 1) hrest,List.drop_succ_cons]
        have hpos : pos + 1 + m = pos + (m + 1) := by omega
        rw [hpos]

theorem primitive_cases (c : UInt8) (cs : List UInt8) (start pos : ℕ) (p : Parser) :
    (∃ e, parsePrimitive (c :: cs) = .error e ∧
      step numTokens (.reading (.primitive start) pos p) c = .failed e) ∨
    (parsePrimitive (c :: cs) = .ok 0 ∧ ∀ cs, run numTokens (.reading (.primitive start) pos p) (c :: cs) =
      run numTokens (ofParser .normal pos (complete numTokens p ⟨.primitive,start,pos,0⟩)) (c :: cs)) ∨
    (parsePrimitive (c :: cs) = (· + 1) <$> parsePrimitive cs ∧
      step numTokens (.reading (.primitive start) pos p) c = .reading (.primitive start) (pos + 1) p) := by
  simp only [parsePrimitive,step,stepPrimitive]
  by_cases h0 : c = 0
  · exact Or.inl ⟨.part,if_pos h0,if_pos h0⟩
  · by_cases hend : endsPrimitive c = true
    · refine Or.inr (Or.inl ⟨by simp only [if_neg h0,if_pos hend],fun cs => ?_⟩)
      simp only [run_cons,step,stepPrimitive,if_neg h0,if_pos hend]
      cases complete numTokens p ⟨.primitive,start,pos,0⟩ with
      | error e => rfl
      | ok p' => simp only [ofParser,if_neg h0]
    · by_cases hbad : (c < 32 || 127 ≤ c) = true
      · exact Or.inl ⟨.inval,by simp only [if_neg h0,if_neg hend,if_pos hbad],
          by simp only [if_neg h0,if_neg hend,if_pos hbad]⟩
      · exact Or.inr (Or.inr ⟨by simp only [if_neg h0,if_neg hend,if_neg hbad],
          by simp only [if_neg h0,if_neg hend,if_neg hbad]⟩)

theorem run_primitive_error {js : List UInt8} {e : ParseError} (start pos : ℕ)
    (p : Parser) (h : parsePrimitive js = .error e) :
    (run numTokens (.reading (.primitive start) pos p) js).result = .error e := by
  induction js generalizing pos with
  | nil =>
    rw [parsePrimitive] at h
    cases h
    rfl
  | cons c cs ih =>
    rcases primitive_cases c cs start pos p with
      ⟨e',heq,hstep⟩ | ⟨heq,-⟩ | ⟨heq,hstep⟩
    · rw [heq] at h
      cases h
      rw [run_cons,hstep,run_failed]
      rfl
    · rw [heq] at h
      cases h
    · rw [heq] at h
      rw [run_cons,hstep]
      cases hrest : parsePrimitive cs with
      | error e' =>
        rw [hrest] at h
        cases h
        exact ih (pos + 1) hrest
      | ok n =>
        rw [hrest] at h
        cases h

theorem run_primitive_ok {js : List UInt8} {n : ℕ} (start pos : ℕ)
    (p : Parser) (h : parsePrimitive js = .ok n) :
    run numTokens (.reading (.primitive start) pos p) js =
      run numTokens (ofParser .normal (pos + n)
        (complete numTokens p ⟨.primitive,start,(pos + n : ℕ),0⟩)) (js.drop n) := by
  induction js generalizing pos n with
  | nil =>
    rw [parsePrimitive] at h
    cases h
  | cons c cs ih =>
    rcases primitive_cases c cs start pos p with
      ⟨e',heq,-⟩ | ⟨heq,hrun⟩ | ⟨heq,hstep⟩
    · rw [heq] at h
      cases h
    · rw [heq] at h
      cases h
      exact hrun cs
    · rw [heq] at h
      rw [run_cons,hstep]
      cases hrest : parsePrimitive cs with
      | error e' =>
        rw [hrest] at h
        cases h
      | ok m =>
        rw [hrest] at h
        cases h
        rw [ih (pos + 1) hrest,List.drop_succ_cons]
        have hpos : pos + 1 + m = pos + (m + 1) := by omega
        rw [hpos]

end Scan

open Scan

variable {numTokens : Option ℕ}

theorem parseLoop_skip (skip pos : ℕ) (js : List UInt8) (p : Parser) :
    parseLoop numTokens skip pos js p = parseLoop numTokens 0 (pos + skip) (js.drop skip) p := by
  induction js generalizing skip pos with
  | nil =>
    rw [List.drop_nil,parseLoop,parseLoop]
  | cons c cs ih =>
    cases skip with
    | zero => rfl
    | succ skip =>
      rw [parseLoop,ih,List.drop_succ_cons]
      have hpos : pos + 1 + skip = pos + (skip + 1) := by omega
      rw [hpos]

theorem primitive_char : ∀ c : UInt8, charKind c = .primitive →
    c ≠ 0 ∧ endsPrimitive c = false ∧ (c < 32 || 127 ≤ c) = false := by
  decide +kernel

theorem primitive_first {c : UInt8} (h : charKind c = .primitive) (cs : List UInt8) :
    parsePrimitive (c :: cs) = (· + 1) <$> parsePrimitive cs := by
  obtain ⟨h0,hend,hrange⟩ := primitive_char c h
  rw [parsePrimitive,if_neg h0,hend,hrange]
  rfl

/-- Characters other than quotes and the first ones of primitives need no look at what
follows. -/
theorem parseChar_alone {c : UInt8} (hq : charKind c ≠ .quote) (hp : charKind c ≠ .primitive)
    (p : Parser) (pos : ℕ) (cs : List UInt8) :
    parseChar numTokens p pos c cs = (·,0) <$> (Prod.fst <$> parseChar numTokens p pos c []) := by
  unfold parseChar
  cases hk : charKind c with
  | quote => exact absurd hk hq
  | primitive => exact absurd hk hp
  | opening type =>
    simp only
    cases ({ p with count := p.count + 1 }.addIf numTokens ⟨type,pos,-1,0⟩) with
    | error e => rfl
    | ok p' => cases numTokens <;> rfl
  | closing type =>
    simp only
    cases numTokens with
    | none => rfl
    | some n => cases p.close type pos <;> rfl
  | space => rfl
  | colon => rfl
  | comma =>
    simp only
    split <;> rfl
  | unexpected => rfl

/-- The tokenizer and the machine agree. -/
theorem parseLoop_eq (js : List UInt8) (pos : ℕ) (p : Parser) :
    (parseLoop numTokens 0 pos js p >>= finish) = (run numTokens (.reading .normal pos p) js).result := by
  induction hn : js.length using Nat.strong_induction_on generalizing js pos p with
  | _ n ih =>
  subst hn
  cases js with
  | nil => rfl
  | cons c cs =>
    have hdrop : ∀ k, (cs.drop k).length < (c :: cs).length := by
      intro k
      rw [List.length_drop,List.length_cons]
      omega
    rw [parseLoop,run_cons,step]
    by_cases h0 : c = 0
    · simp only [if_pos h0,run_halted]
      rfl
    · simp only [if_neg h0]
      by_cases hq : charKind c = .quote
      · rw [enter,parseChar,hq]
        simp only
        cases hs : parseString .plain cs with
        | error e =>
          rw [run_string_error _ _ _ hs]
          rfl
        | ok k =>
          have hstop : ((pos + 1 + k : ℕ) : ℤ) = pos + 1 + k := by push_cast; rfl
          rw [run_string_ok _ _ _ hs,complete,hstop]
          simp only [bind,Except.bind]
          cases p.addIf numTokens ⟨.string,pos + 1,pos + 1 + k,0⟩ with
          | error e =>
            simp only [Functor.map,Except.map,ofParser,run_failed,result]
          | ok p' =>
            simp only [Functor.map,Except.map,ofParser]
            rw [parseLoop_skip]
            exact ih _ (hdrop (k + 1)) _ _ _ rfl
      · by_cases hp : charKind c = .primitive
        · rw [enter,parseChar,hp]
          simp only
          cases hr : p.rejectsPrimitive with
          | true => simp only [if_true,run_failed]; rfl
          | false =>
            simp only [Bool.false_eq_true,if_false,primitive_first hp]
            cases hs : parsePrimitive cs with
            | error e =>
              rw [run_primitive_error _ _ _ hs]
              rfl
            | ok k =>
              have hstop : ((pos + 1 + k : ℕ) : ℤ) = pos + (k + 1 : ℕ) := by push_cast; ring
              rw [run_primitive_ok _ _ _ hs,complete,hstop]
              simp only [bind,Except.bind,Functor.map,Except.map]
              cases p.addIf numTokens ⟨.primitive,pos,pos + (k + 1 : ℕ),0⟩ with
              | error e => simp only [ofParser,run_failed,result]
              | ok p' =>
                simp only [ofParser,Nat.add_sub_cancel]
                rw [parseLoop_skip]
                exact ih _ (hdrop k) _ _ _ rfl
        · rw [parseChar_alone hq hp,enter]
          cases hk : charKind c with
          | quote => exact absurd hk hq
          | primitive => exact absurd hk hp
          | _ =>
            simp only
            cases parseChar numTokens p pos c [] with
            | error e =>
              simp only [Functor.map,Except.map,ofParser,run_failed,bind,Except.bind,result]
            | ok r =>
              simp only [Functor.map,Except.map,ofParser]
              exact ih _ (by rw [List.length_cons]; omega) _ _ _ rfl

theorem parse_eq (js : List UInt8) (numTokens : Option ℕ) :
    parse js numTokens = (run numTokens Scan.start js).result := parseLoop_eq js 0 {}

end Lightsd.Core.Jsmn
