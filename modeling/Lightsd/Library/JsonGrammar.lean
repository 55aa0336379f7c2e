import Mathlib

/-! # The grammar of JSON texts

Texts are lists of characters. A scanner that knows strings and counts open brackets goes
through any text without a trace, and is inside of a bracket all the way through an object or
an array. This makes the texts of objects and arrays end by themselves: none of them is the
start of another one.
-/
namespace JsonGrammar

section Grammar

/-- White space. -/
def Ws (cs : List Char) : Prop := ∀ c ∈ cs, c = ' ' ∨ c = '\t' ∨ c = '\n' ∨ c = '\r'

def Digits (cs : List Char) : Prop := cs ≠ [] ∧ ∀ c ∈ cs, c.isDigit = true

def IntPart (cs : List Char) : Prop := cs = ['0'] ∨ (Digits cs ∧ cs.head? ≠ some '0')

def FracPart (cs : List Char) : Prop := cs = [] ∨ ∃ ds, Digits ds ∧ cs = '.' :: ds

def ExpPart (cs : List Char) : Prop :=
  cs = [] ∨ ∃ e sign ds, (e = 'e' ∨ e = 'E') ∧ (sign = [] ∨ sign = ['+'] ∨ sign = ['-']) ∧ Digits ds ∧
    cs = e :: (sign ++ ds)

def Number (cs : List Char) : Prop :=
  ∃ sign int frac exp, (sign = [] ∨ sign = ['-']) ∧ IntPart int ∧ FracPart frac ∧ ExpPart exp ∧
    cs = sign ++ (int ++ (frac ++ exp))

def isHex (c : Char) : Bool := c.isDigit || ('a' ≤ c && c ≤ 'f') || ('A' ≤ c && c ≤ 'F')

/-- What stands between the quotes of a string. -/
inductive StringChars : List Char → Prop
  | nil : StringChars []
  | plain {c : Char} {cs : List Char} (hc : ' ' ≤ c) (hquote : c ≠ '"') (hescape : c ≠ '\\')
      (h : StringChars cs) : StringChars (c :: cs)
  | escape {c : Char} {cs : List Char} (hc : c ∈ ['"','\\','/','b','f','n','r','t'])
      (h : StringChars cs) : StringChars ('\\' :: c :: cs)
  | unicode {a b c d : Char} {cs : List Char} (ha : isHex a = true) (hb : isHex b = true) (hc : isHex c = true)
      (hd : isHex d = true) (h : StringChars cs) : StringChars ('\\' :: 'u' :: a :: b :: c :: d :: cs)

def quoted (cs : List Char) : List Char := '"' :: (cs ++ ['"'])

/-- A value of an array and the white space around it. -/
structure Element where
  before : List Char
  value : List Char
  behind : List Char

namespace Element

def text (e : Element) : List Char := e.before ++ (e.value ++ e.behind)

def Spaced (e : Element) : Prop := Ws e.before ∧ Ws e.behind

end Element

/-- A key and a value of an object and the white space around them. -/
structure Member where
  before : List Char
  key : List Char
  between : List Char
  element : Element

namespace Member

def text (m : Member) : List Char := m.before ++ (quoted m.key ++ (m.between ++ ([':'] ++ m.element.text)))

def Spaced (m : Member) : Prop := Ws m.before ∧ StringChars m.key ∧ Ws m.between ∧ m.element.Spaced

end Member

def commas : List (List Char) → List Char
  | [] => []
  | [cs] => cs
  | cs :: rest => cs ++ ([','] ++ commas rest)

/-- The texts of values, without white space around them. -/
inductive Text : List Char → Prop
  | literal {cs : List Char} (h : cs = ['t','r','u','e'] ∨ cs = ['f','a','l','s','e'] ∨ cs = ['n','u','l','l']) :
      Text cs
  | number {cs : List Char} (h : Number cs) : Text cs
  | string {cs : List Char} (h : StringChars cs) : Text (quoted cs)
  | emptyArray {w : List Char} (h : Ws w) : Text ('[' :: (w ++ [']']))
  | array {elements : List Element} (hne : elements ≠ []) (hspaced : ∀ e ∈ elements, e.Spaced)
      (h : ∀ e ∈ elements, Text e.value) : Text ('[' :: (commas (elements.map Element.text) ++ [']']))
  | emptyObject {w : List Char} (h : Ws w) : Text ('{' :: (w ++ ['}']))
  | object {members : List Member} (hne : members ≠ []) (hspaced : ∀ m ∈ members, m.Spaced)
      (h : ∀ m ∈ members, Text m.element.value) : Text ('{' :: (commas (members.map Member.text) ++ ['}']))

def Opens (c : Char) : Prop := c = '{' ∨ c = '['

def Closes (c : Char) : Prop := c = '}' ∨ c = ']'

/-- The texts of objects and arrays. -/
def Container (cs : List Char) : Prop := Text cs ∧ ∃ c rest, cs = c :: rest ∧ Opens c

/-- A text with white space around it. -/
def Document (cs : List Char) : Prop := ∃ w t w', Ws w ∧ Text t ∧ Ws w' ∧ cs = w ++ (t ++ w')

end Grammar

section Scanning

inductive Mode
  | outside
  | string
  | escaped
  deriving DecidableEq

/-- Where in a string the scanner is, and in how many brackets. -/
structure Scan where
  mode : Mode
  depth : ℕ
  deriving DecidableEq

namespace Scan

def step (s : Scan) (c : Char) : Scan :=
  match s.mode with
  | .outside =>
    if c = '"' then ⟨.string,s.depth⟩
    else if c = '{' ∨ c = '[' then ⟨.outside,s.depth + 1⟩
    else if c = '}' ∨ c = ']' then ⟨.outside,s.depth - 1⟩
    else s
  | .string =>
    if c = '"' then ⟨.outside,s.depth⟩
    else if c = '\\' then ⟨.escaped,s.depth⟩
    else s
  | .escaped => ⟨.string,s.depth⟩

def run (s : Scan) (cs : List Char) : Scan := cs.foldl step s

/-- The scanner is in so many brackets all the way. -/
def Above (d : ℕ) : Scan → List Char → Prop
  | s, [] => d ≤ s.depth
  | s, c :: cs => d ≤ s.depth ∧ Above d (s.step c) cs

@[simp] theorem run_nil (s : Scan) : s.run [] = s := rfl

@[simp] theorem run_cons (s : Scan) (c : Char) (cs : List Char) : s.run (c :: cs) = (s.step c).run cs := rfl

theorem run_append (s : Scan) (cs cs' : List Char) : s.run (cs ++ cs') = (s.run cs).run cs' :=
  List.foldl_append

theorem above_append {d : ℕ} {s : Scan} {cs cs' : List Char} (h : Above d s cs) (h' : Above d (s.run cs) cs') :
    Above d s (cs ++ cs') := by
  induction cs generalizing s with
  | nil => exact h'
  | cons c cs ih => exact ⟨h.1,ih h.2 h'⟩

theorem Above.mono {d d' : ℕ} (hd : d' ≤ d) {s : Scan} {cs : List Char} (h : Above d s cs) : Above d' s cs := by
  induction cs generalizing s with
  | nil => exact hd.trans h
  | cons c cs ih => exact ⟨hd.trans h.1,ih h.2⟩

theorem Above.depth_of_start {d : ℕ} {s : Scan} {cs p : List Char} (h : Above d s cs) (hp : p <+: cs) :
    d ≤ (s.run p).depth := by
  induction p generalizing s cs with
  | nil =>
    cases cs with
    | nil => exact h
    | cons c cs => exact h.1
  | cons c p ih =>
    obtain ⟨rest,rfl⟩ := hp
    exact ih h.2 (List.prefix_append p rest)

end Scan

open Scan

/-- The scanner goes through without a trace and is never in fewer brackets. -/
def Steady (cs : List Char) : Prop := ∀ d, Scan.run ⟨.outside,d⟩ cs = ⟨.outside,d⟩ ∧ Above d ⟨.outside,d⟩ cs

theorem steady_nil : Steady [] := by
  intro d
  exact ⟨rfl,le_rfl⟩

theorem Steady.append {cs cs' : List Char} (h : Steady cs) (h' : Steady cs') : Steady (cs ++ cs') := by
  intro d
  refine ⟨?_,above_append (h d).2 ?_⟩
  · rw [run_append,(h d).1,(h' d).1]
  · rw [(h d).1]
    exact (h' d).2

def Plain (c : Char) : Prop := c ≠ '"' ∧ c ≠ '{' ∧ c ≠ '[' ∧ c ≠ '}' ∧ c ≠ ']'

theorem steady_of_plain {cs : List Char} (h : ∀ c ∈ cs, Plain c) : Steady cs := by
  induction cs with
  | nil => exact steady_nil
  | cons c cs ih =>
    have hc : Steady [c] := by
      obtain ⟨h₁,h₂,h₃,h₄,h₅⟩ := h c List.mem_cons_self
      intro d
      simp [step,Above,h₁,h₂,h₃,h₄,h₅]
    exact hc.append (ih (fun c' hc' => h c' (List.mem_cons_of_mem c hc')))

theorem steady_ws {cs : List Char} (h : Ws cs) : Steady cs := by
  apply steady_of_plain
  intro c hc
  rcases h c hc with rfl | rfl | rfl | rfl <;> simp [Plain]

theorem plain_of_isDigit {c : Char} (h : c.isDigit = true) : Plain c := by
  refine ⟨?_,?_,?_,?_,?_⟩ <;> (rintro rfl; simp [Char.isDigit] at h)

theorem plain_digits {cs : List Char} (h : Digits cs) : ∀ c ∈ cs, Plain c :=
  fun c hc => plain_of_isDigit (h.2 c hc)

theorem plain_number {cs : List Char} (h : Number cs) : ∀ c ∈ cs, Plain c := by
  obtain ⟨sign,int,frac,exp,hsign,hint,hfrac,hexp,rfl⟩ := h
  intro c hc
  simp only [List.mem_append] at hc
  rcases hc with hc | hc | hc | hc
  · rcases hsign with rfl | rfl <;> simp at hc
    simp [hc,Plain]
  · rcases hint with rfl | ⟨hdigits,-⟩
    · simp at hc
      simp [hc,Plain]
    · exact plain_digits hdigits c hc
  · rcases hfrac with rfl | ⟨ds,hds,rfl⟩
    · cases hc
    · rcases List.mem_cons.mp hc with rfl | hc
      · simp [Plain]
      · exact plain_digits hds c hc
  · rcases hexp with rfl | ⟨e,sign,ds,he,hsign,hds,rfl⟩
    · cases hc
    · rcases List.mem_cons.mp hc with rfl | hc
      · rcases he with rfl | rfl <;> simp [Plain]
      · rcases List.mem_append.mp hc with hc | hc
        · rcases hsign with rfl | rfl | rfl <;> simp at hc <;> simp [hc,Plain]
        · exact plain_digits hds c hc

theorem step_isHex {c : Char} (h : isHex c = true) (d : ℕ) : Scan.step ⟨.string,d⟩ c = ⟨.string,d⟩ := by
  have hquote : c ≠ '"' := by
    rintro rfl
    revert h
    decide
  have hescape : c ≠ '\\' := by
    rintro rfl
    revert h
    decide
  simp [step,hquote,hescape]

theorem scan_stringChars {cs : List Char} (h : StringChars cs) (d : ℕ) :
    Scan.run ⟨.string,d⟩ cs = ⟨.string,d⟩ ∧ Above d ⟨.string,d⟩ cs := by
  induction h with
  | nil => exact ⟨rfl,le_rfl⟩
  | plain hc hquote hescape h ih => simpa [Above,step,hquote,hescape] using ih
  | escape hc h ih => simpa [Above,step] using ih
  | unicode ha hb hc hd h ih =>
    have hbegin : Scan.step ⟨.string,d⟩ '\\' = ⟨.escaped,d⟩ := by simp [step]
    have hu : Scan.step ⟨.escaped,d⟩ 'u' = ⟨.string,d⟩ := by simp [step]
    simpa [Above,hbegin,hu,step_isHex ha,step_isHex hb,step_isHex hc,step_isHex hd] using ih

theorem steady_quoted {cs : List Char} (h : StringChars cs) : Steady (quoted cs) := by
  intro d
  obtain ⟨hrun,habove⟩ := scan_stringChars h d
  have hopen : Scan.step ⟨.outside,d⟩ '"' = ⟨.string,d⟩ := by simp [step]
  have hclose : Scan.step ⟨.string,d⟩ '"' = ⟨.outside,d⟩ := by simp [step]
  refine ⟨?_,le_rfl,?_⟩
  · rw [quoted,run_cons,hopen,run_append,hrun,run_cons,hclose,run_nil]
  · rw [hopen]
    refine above_append habove ?_
    rw [hrun]
    exact ⟨le_rfl,by rw [hclose]; exact le_rfl⟩

theorem steady_commas {texts : List (List Char)} (h : ∀ cs ∈ texts, Steady cs) : Steady (commas texts) := by
  induction texts with
  | nil => exact steady_nil
  | cons cs texts ih =>
    have hcs := h cs List.mem_cons_self
    have hrest := ih (fun cs' hcs' => h cs' (List.mem_cons_of_mem cs hcs'))
    cases texts with
    | nil => exact hcs
    | cons cs' texts => exact hcs.append ((steady_of_plain (by simp [Plain])).append hrest)

/-- Inside of brackets the scanner is in one bracket more, and behind them where it was. -/
theorem scan_brackets {opening closing : Char} (ho : Opens opening) (hc : Closes closing) {cs : List Char}
    (h : Steady cs) (d : ℕ) : Scan.run ⟨.outside,d⟩ (opening :: (cs ++ [closing])) = ⟨.outside,d⟩ ∧
      Above (d + 1) (Scan.step ⟨.outside,d⟩ opening) cs := by
  have hopen : Scan.step ⟨.outside,d⟩ opening = ⟨.outside,d + 1⟩ := by
    rcases ho with rfl | rfl <;> simp [step]
  have hclose : Scan.step ⟨.outside,d + 1⟩ closing = ⟨.outside,d⟩ := by
    rcases hc with rfl | rfl <;> simp [step]
  refine ⟨?_,?_⟩
  · rw [run_cons,hopen,run_append,(h (d + 1)).1,run_cons,hclose,run_nil]
  · rw [hopen]
    exact (h (d + 1)).2

theorem steady_brackets {opening closing : Char} (ho : Opens opening) (hc : Closes closing) {cs : List Char}
    (h : Steady cs) : Steady (opening :: (cs ++ [closing])) := by
  intro d
  obtain ⟨hrun,habove⟩ := scan_brackets ho hc h d
  refine ⟨hrun,le_rfl,above_append (habove.mono (Nat.le_succ d)) ?_⟩
  have hinside := habove.depth_of_start (List.prefix_refl cs)
  rw [run_cons,run_append] at hrun
  refine ⟨by omega,?_⟩
  rw [run_cons,run_nil] at hrun
  rw [hrun]
  exact le_rfl

theorem Element.steady {e : Element} (hspaced : e.Spaced) (h : Steady e.value) : Steady e.text :=
  (steady_ws hspaced.1).append (h.append (steady_ws hspaced.2))

theorem Member.steady {m : Member} (hspaced : m.Spaced) (h : Steady m.element.value) : Steady m.text := by
  obtain ⟨hbefore,hkey,hbetween,helement⟩ := hspaced
  refine (steady_ws hbefore).append ((steady_quoted hkey).append ((steady_ws hbetween).append ?_))
  exact (steady_of_plain (by simp [Plain])).append (Element.steady helement h)

/-- The scanner goes through every text without a trace. -/
theorem Text.steady {cs : List Char} (h : Text cs) : Steady cs := by
  induction h with
  | literal h =>
    apply steady_of_plain
    rcases h with rfl | rfl | rfl <;> simp [Plain]
  | number h => exact steady_of_plain (plain_number h)
  | string h => exact steady_quoted h
  | emptyArray h => exact steady_brackets (.inr rfl) (.inr rfl) (steady_ws h)
  | array hne hspaced h ih =>
    refine steady_brackets (.inr rfl) (.inr rfl) (steady_commas ?_)
    intro cs hcs
    obtain ⟨e,he,rfl⟩ := List.mem_map.mp hcs
    exact Element.steady (hspaced e he) (ih e he)
  | emptyObject h => exact steady_brackets (.inl rfl) (.inl rfl) (steady_ws h)
  | object hne hspaced h ih =>
    refine steady_brackets (.inl rfl) (.inl rfl) (steady_commas ?_)
    intro cs hcs
    obtain ⟨m,hm,rfl⟩ := List.mem_map.mp hcs
    exact Member.steady (hspaced m hm) (ih m hm)

end Scanning

section Containers

theorem Ws.not_opens {c : Char} {cs : List Char} (h : Ws (c :: cs)) : ¬ Opens c := by
  rcases h c List.mem_cons_self with rfl | rfl | rfl | rfl <;> simp [Opens]

theorem Text.ne_nil {cs : List Char} (h : Text cs) : cs ≠ [] := by
  cases h with
  | literal h => rcases h with rfl | rfl | rfl <;> simp
  | number h =>
    obtain ⟨sign,int,frac,exp,-,hint,-,-,rfl⟩ := h
    rcases hint with rfl | ⟨hdigits,-⟩
    · simp
    · simp [hdigits.1]
  | _ => simp [quoted]

/-- An object or an array is a text in brackets. -/
theorem Container.brackets {cs : List Char} (h : Container cs) : ∃ opening inside closing,
    Opens opening ∧ Closes closing ∧ Steady inside ∧ cs = opening :: (inside ++ [closing]) := by
  obtain ⟨htext,c,rest,hcs,hopens⟩ := h
  cases htext with
  | literal h =>
    rcases h with rfl | rfl | rfl <;> cases hcs <;> simp [Opens] at hopens
  | number h =>
    have hplain := plain_number h c (by simp [hcs])
    rcases hopens with rfl | rfl <;> simp [Plain] at hplain
  | string h =>
    cases hcs
    simp [Opens] at hopens
  | emptyArray h => exact ⟨_,_,_,.inr rfl,.inr rfl,steady_ws h,rfl⟩
  | array hne hspaced h =>
    refine ⟨_,_,_,.inr rfl,.inr rfl,steady_commas ?_,rfl⟩
    intro cs hcs
    obtain ⟨e,he,rfl⟩ := List.mem_map.mp hcs
    exact Element.steady (hspaced e he) (h e he).steady
  | emptyObject h => exact ⟨_,_,_,.inl rfl,.inl rfl,steady_ws h,rfl⟩
  | object hne hspaced h =>
    refine ⟨_,_,_,.inl rfl,.inl rfl,steady_commas ?_,rfl⟩
    intro cs hcs
    obtain ⟨m,hm,rfl⟩ := List.mem_map.mp hcs
    exact Member.steady (hspaced m hm) (h m hm).steady

/-- No object or array is the start of another one. -/
theorem Container.eq_of_start {cs cs' : List Char} (h : Container cs) (h' : Container cs') (hstart : cs <+: cs') :
    cs = cs' := by
  obtain ⟨opening,inside,closing,hopens,hcloses,hsteady,rfl⟩ := h'.brackets
  obtain ⟨c,rest,rfl,-⟩ := h.2
  obtain ⟨rfl,hrest⟩ := List.cons_prefix_cons.mp hstart
  rcases List.prefix_concat_iff.mp hrest with hwhole | hinside
  · rw [hwhole]
  · have hdepth := (scan_brackets hopens hcloses hsteady 0).2.depth_of_start hinside
    have hscan := (h.1.steady 0).1
    rw [Scan.run_cons] at hscan
    rw [hscan] at hdepth
    simp at hdepth

theorem Container.eq_of_starts {cs cs' stream : List Char} (h : Container cs) (h' : Container cs')
    (hstart : cs <+: stream) (hstart' : cs' <+: stream) : cs = cs' := by
  rcases List.prefix_or_prefix_of_prefix hstart hstart' with hle | hle
  · exact h.eq_of_start h' hle
  · exact (h'.eq_of_start h hle).symm

theorem opens_of_flatten {texts : List (List Char)} (h : ∀ t ∈ texts, Container t) {c : Char} {cs : List Char}
    (hcs : c :: cs <+: texts.flatten) : Opens c := by
  cases texts with
  | nil => simp at hcs
  | cons t texts =>
    obtain ⟨-,o,rest,rfl,hopens⟩ := h t List.mem_cons_self
    rw [List.flatten_cons,List.cons_append,List.cons_prefix_cons] at hcs
    rw [hcs.1]
    exact hopens

/-- At the start of objects and arrays that follow each other the only document is the first of
them. -/
theorem document_start_iff {t : List Char} {texts : List (List Char)} (ht : Container t)
    (htexts : ∀ t' ∈ texts, Container t') {cs : List Char} (hcs : cs <+: t ++ texts.flatten) :
    Document cs ↔ cs = t := by
  constructor
  · rintro ⟨w,u,w',hw,hu,hw',rfl⟩
    have hstream : t ++ texts.flatten = (t :: texts).flatten := rfl
    have hall : ∀ t' ∈ t :: texts, Container t' := by simpa using And.intro ht htexts
    have hopens : ∀ {c : Char} {rest : List Char}, c :: rest <+: t ++ texts.flatten → Opens c :=
      fun h => opens_of_flatten hall (hstream ▸ h)
    have hnospace : w = [] := by
      cases w with
      | nil => rfl
      | cons c w => exact (hw.not_opens (hopens hcs)).elim
    subst hnospace
    rw [List.nil_append] at hcs ⊢
    have hu' : Container u := by
      refine ⟨hu,?_⟩
      cases hcases : u with
      | nil => exact (hu.ne_nil hcases).elim
      | cons c rest =>
        rw [hcases] at hcs
        exact ⟨c,rest,rfl,hopens hcs⟩
    obtain rfl := hu'.eq_of_starts ht ((List.prefix_append u w').trans hcs) (List.prefix_append t _)
    rw [List.prefix_append_right_inj] at hcs
    cases w' with
    | nil => simp
    | cons c w' => exact (hw'.not_opens (opens_of_flatten htexts hcs)).elim
  · rintro rfl
    exact ⟨[],cs,[],by simp [Ws],ht.1,by simp [Ws],by simp⟩

end Containers
end JsonGrammar
