import Lightsd.Core.FloatParams
import Lightsd.Core.SetterCalls

/-! # Integers among the parameters

An integer is checked as a long, then read again and kept as an int, and the bounds of the
parameter are checked on what is left of it. A number that does not fit an int is passed on
as another one if that is within the bounds.
-/
namespace Lightsd.Core.Jsonrpc

open Lifx Jsmn Json

/-- The number that the text of an integer denotes. -/
def integerOf (text : List UInt8) : Option ℤ :=
  if text.take 1 = [45] then
    if AllDigits (text.drop 1) ∧ text.drop 1 ≠ [] then some (-(decimal (text.drop 1))) else none
  else if AllDigits text ∧ text ≠ [] then some (decimal text) else none

/-- The number that is given for a parameter, if there is one. -/
def intAt (toks : List Token) (json : List UInt8) (out : Output ParamField) (f : ParamField) : Option ℤ :=
  (out.value f).bind (fun i => (toks[i]?).bind (fun t => integerOf (tokenText json t)))

/-- A token that is taken for an integer is read as what it denotes. -/
theorem strtol_of_integer {json chars rest : List UInt8} {t : Token} (hat : PrimitiveAt json t chars rest)
    (h : typeInteger t json = true) :
    ∃ k, integerOf (tokenText json t) = some k ∧ (strtol json t.start).value = k ∧
      (strtol json t.start).erange = false := by
  have hchars := hat.chars
  rw [tokenText_of_primitive hat]
  simp only [typeInteger,Bool.and_eq_true,decide_eq_true_eq,Bool.not_eq_true'] at h
  obtain ⟨⟨-,hstop⟩,herange⟩ := h
  cases chars with
  | nil => cases hchars
  | cons c cs =>
    rw [primitiveChars,Bool.and_eq_true,decide_eq_true_eq] at hchars
    obtain ⟨hblank,hplus,-⟩ := first_char c hchars.1
    have hwhole : (strtol json t.start).stop = t.start + (c :: cs).length := by
      have hend := hat.stop
      omega
    obtain ⟨sign,ds,htext,hsign,hds,hne,heq⟩ := strtol_whole hat.text hblank hat.ends hwhole
    rw [heq] at herange ⊢
    rw [clipped_fits herange]
    refine ⟨_,?_,rfl,rfl⟩
    rcases hsign with rfl | rfl | rfl
    · obtain rfl : c :: cs = ds := htext
      have hminus : c ≠ 45 := (digit_char c (hds c List.mem_cons_self)).2.2.1
      simp [integerOf,hminus,hds,signed]
    · exact absurd (List.cons.inj htext).1 hplus
    · obtain ⟨rfl,rfl⟩ := List.cons.inj htext
      simp [integerOf,hds,hne,signed]

section Reading
variable {schema : List (Node ParamField)} {toks : List Token} {json : List UInt8} {out : Output ParamField}
  {x : Node ParamField} {f : ParamField}

/-- A parameter has been given. -/
def IsSet (out : Output ParamField) (f : ParamField) : Prop := (out.value f).isSome = true

/-- The step succeeds under a condition, and fails otherwise. -/
def SucceedsIf {β : Type} (c : Prop) (x : Except Crash β) : Prop := (c ∧ ∃ b, x = .ok b) ∨ (¬ c ∧ ∃ e, x = .error e)

theorem Extracted.token (htidy : Tidy schema) (hout : Extracted schema toks json out) (hx : x ∈ schema)
    (hf : x.valueOffset = some f) {i : ℕ} (hi : out.value f = some i) :
    ∃ t, readToken toks i = .ok t ∧ x.typeCmp t json = true := by
  obtain ⟨y,hy,hyf,t,hread,htype⟩ := hout.row f i hi
  obtain rfl := htidy.row_unique hx hy (htidy.values x hx y hy f hf hyf)
  exact ⟨t,hread,htype⟩

theorem paramToken_succeeds (htidy : Tidy schema) (hout : Extracted schema toks json out) (hx : x ∈ schema)
    (hf : x.valueOffset = some f) : SucceedsIf (IsSet out f) (paramToken toks out f) := by
  unfold SucceedsIf IsSet paramToken
  cases hi : out.value f with
  | none => exact .inr ⟨by simp,_,rfl⟩
  | some i =>
    obtain ⟨t,hread,-⟩ := hout.token htidy hx hf hi
    exact .inl ⟨rfl,t,hread⟩

variable (hprim : PrimitivesIn json toks)
include hprim

theorem floatParam_succeeds (htidy : Tidy schema) (hout : Extracted schema toks json out) (hx : x ∈ schema)
    (hf : x.valueOffset = some f) (htype : ∀ t, x.typeCmp t json = true → t.type = .primitive) (stop : ℤ) :
    SucceedsIf (IsSet out f) (floatParam toks json out f stop) := by
  unfold SucceedsIf IsSet floatParam paramToken
  cases hi : out.value f with
  | none => exact .inr ⟨by simp,_,rfl⟩
  | some i =>
    obtain ⟨t,hread,ht⟩ := hout.token htidy hx hf hi
    obtain ⟨chars,rest,hat⟩ := hprim t (mem_of_readToken hread) (htype t ht)
    have hlen : tokenLen t ≠ 0 := by
      have hchars := hat.chars
      rw [tokenLen_of_number (numberAt_of_primitive hat)]
      cases chars with
      | nil => cases hchars
      | cons c cs => simp
    exact .inl ⟨rfl,_,by simp only [hread,bind,Except.bind,if_neg hlen]; rfl⟩

/-- What is made of an integer, in terms of the number that it denotes. -/
theorem intParam_succeeds (htidy : Tidy schema) (hout : Extracted schema toks json out) (hx : x ∈ schema)
    (hf : x.valueOffset = some f) (htype : x.typeCmp = typeInteger) :
    SucceedsIf (IsSet out f) (intParam toks json out f) ∧
      ∀ r, intParam toks json out f = .ok r → ∃ k, intAt toks json out f = some k ∧ r = (toInt32 k,false) := by
  unfold SucceedsIf IsSet intParam paramToken intAt
  cases hi : out.value f with
  | none => exact ⟨.inr ⟨by simp,_,rfl⟩,nofun⟩
  | some i =>
    obtain ⟨t,hread,ht⟩ := hout.token htidy hx hf hi
    rw [htype] at ht
    have hprimitive : t.type = .primitive := by
      simp only [typeInteger,Bool.and_eq_true,decide_eq_true_eq] at ht
      exact ht.1.1
    obtain ⟨chars,rest,hat⟩ := hprim t (mem_of_readToken hread) hprimitive
    obtain ⟨k,hk,hvalue,herange⟩ := strtol_of_integer hat ht
    have hget := getElem?_of_readToken hread
    refine ⟨.inl ⟨rfl,_,by simp only [hread,bind,Except.bind]; rfl⟩,?_⟩
    intro r hr
    simp only [hread,bind,Except.bind,hvalue,herange] at hr
    cases hr
    exact ⟨k,by simp [hget,hk],rfl⟩

end Reading

section Steps
variable {α β : Type} {P : Outcome α → Prop} {c q : Prop}

/-- The request comes to something of which the given holds. -/
def Comes (P : Outcome α → Prop) (x : Except Crash (Outcome α)) : Prop := ∃ o, x = .ok o ∧ P o

theorem comes_ok (o : Outcome α) : Comes P (.ok o) ↔ P o := by simp [Comes]

theorem comes_bind {x : Except Crash β} {k : β → Except Crash (Outcome α)} (hx : SucceedsIf c x)
    (hk : ∀ b, x = .ok b → (Comes P (k b) ↔ q)) : Comes P (x >>= k) ↔ c ∧ q := by
  rcases hx with ⟨hc,b,rfl⟩ | ⟨hc,e,rfl⟩
  · exact (hk b rfl).trans (by simp [hc])
  · exact iff_of_false (fun ⟨o,ho,_⟩ => by cases ho) (fun h => hc h.1)

end Steps
section Exact
variable (toks : List Token) (json : List UInt8) (out : Output ParamField)

/-- A call has the integers that were given, within their bounds. -/
structure HsbkExact (args : HsbkArgs) : Prop where
  kelvin : intAt toks json out .kelvin = some args.k ∧ 2500 ≤ args.k ∧ args.k ≤ 9000
  transition : (out.value .transition = none ∧ args.t = 0) ∨
    (intAt toks json out .transition = some args.t ∧ 0 ≤ args.t)

structure WaveformExact (args : WaveformArgs) : Prop where
  kelvin : intAt toks json out .kelvin = some args.k ∧ 2500 ≤ args.k ∧ args.k ≤ 9000
  period : intAt toks json out .period = some args.period ∧ 1 ≤ args.period
  cycles : intAt toks json out .cycles = some args.cycles ∧ 1 ≤ args.cycles

/-- The request is told that its parameters are invalid, once and with nothing else done,
or its command is called as it should be. -/
def Settled {α : Type} (s : Session Daemon) (exact : α → Prop) : Outcome α → Prop
  | .answered s' => s' = s.invalidParams toks json
  | .called args _ => exact args

def HsbkFaithful (s : Session Daemon) : Prop :=
  Comes (Settled toks json s (fun args => ∃ out, s.extractParams toks json setLightFromHsbkSchema = .ok (true,out) ∧
    HsbkExact toks json out args)) (hsbkOutcome toks json s)

def WaveformFaithful (s : Session Daemon) : Prop :=
  Comes (Settled toks json s (fun args => ∃ out, s.extractParams toks json setWaveformSchema = .ok (true,out) ∧
    WaveformExact toks json out args)) (waveformOutcome toks json s)

/-- What is left of a number in an int is not less than the given bound. -/
def AtLeast (f : ParamField) (lo : ℤ) : Prop := ∀ k, intAt toks json out f = some k → lo ≤ toInt32 k

def AtMost (f : ParamField) (hi : ℤ) : Prop := ∀ k, intAt toks json out f = some k → toInt32 k ≤ hi

/-- A number fits an int. -/
def FitsInt (f : ParamField) : Prop := ∀ k, intAt toks json out f = some k → toInt32 k = k

/-- All targets are strings or numbers. -/
def GoodTargets : Prop := ∃ target targets, out.value .target = some target ∧
  ∀ c, buildTargetList toks json c target (out.ntokens .target) = .ok (c,some targets)

/-- No parameter is missing where it is needed, and the integers fit an int if all checks
are passed. -/
def HsbkSound : Prop :=
  IsSet out .hue ∧ IsSet out .saturation ∧ IsSet out .brightness ∧ IsSet out .kelvin ∧
    (AtLeast toks json out .kelvin 2500 ∧ AtMost toks json out .kelvin 9000 → AtLeast toks json out .transition 0 →
      IsSet out .target ∧ (GoodTargets toks json out →
        FitsInt toks json out .kelvin ∧ FitsInt toks json out .transition))

/-- The name of a waveform that there is. -/
def KnownWaveform : Prop :=
  ∀ t, paramToken toks out .waveform = .ok t → waveformStringIdToType (tokenText json t) ≠ waveformInvalid

def WaveformSound : Prop :=
  IsSet out .waveform ∧ (KnownWaveform toks json out →
    IsSet out .hue ∧ IsSet out .saturation ∧ IsSet out .brightness ∧ IsSet out .kelvin ∧
      (AtLeast toks json out .kelvin 2500 ∧ AtMost toks json out .kelvin 9000 → IsSet out .period ∧
        (AtLeast toks json out .period 1 → IsSet out .cycles ∧
          (AtLeast toks json out .cycles 1 → IsSet out .skewRatio ∧ IsSet out .target ∧ (GoodTargets toks json out →
            FitsInt toks json out .kelvin ∧ FitsInt toks json out .period ∧ FitsInt toks json out .cycles)))))

end Exact

section Faithful
variable {schema : List (Node ParamField)} {toks : List Token} {json : List UInt8} {out : Output ParamField}
  {s : Session Daemon}

/-- A check comes to the error, or the request goes on. -/
theorem comes_check {α : Type} {exact : α → Prop} {b q r : Prop} [Decidable b] {x : Except Crash (Outcome α)}
    (hb : b ↔ ¬ r) (hx : r → (Comes (Settled toks json s exact) x ↔ q)) :
    Comes (Settled toks json s exact) (if b then .ok (.answered (s.invalidParams toks json)) else x) ↔ (r → q) := by
  by_cases hr : r
  · rw [if_neg (fun h => hb.mp h hr),hx hr]
    simp [hr]
  · rw [if_pos (hb.mpr hr),comes_ok]
    simp [hr,Settled]

theorem comes_targets {α : Type} {exact : α → Prop} {args : α} (hschema : schema ∈ paramSchemas)
    (hout : Extracted schema toks json out) :
    Comes (Settled toks json s exact) (targetsOutcome toks json s out args) ↔
      IsSet out .target ∧ (GoodTargets toks json out → exact args) := by
  unfold targetsOutcome
  cases htarget : out.value .target with
  | none => exact iff_of_false (fun ⟨o,ho,_⟩ => by cases ho) (by simp [IsSet,htarget])
  | some target =>
    have hset : IsSet out .target := by simp [IsSet,htarget]
    rcases buildTargetList_cases hschema hout htarget with ⟨targets,hgood⟩ | hbad
    · have htargets : GoodTargets toks json out := ⟨target,targets,htarget,hgood⟩
      simp only [hgood,bind,Except.bind,comes_ok,Settled]
      exact ⟨fun h => ⟨hset,fun _ => h⟩,fun h => h.2 htargets⟩
    · have htargets : ¬ GoodTargets toks json out := by
        rintro ⟨target',targets,htarget',hgood⟩
        obtain rfl := Option.some.inj (htarget.symm.trans htarget')
        exact absurd ((hbad s.caller).symm.trans (hgood s.caller)) (by simp)
      simp only [hbad,bind,Except.bind,comes_ok,Settled]
      exact ⟨fun _ => ⟨hset,fun h => absurd h htargets⟩,fun _ => rfl⟩

theorem primitive_of_unit {t : Token} (h : typeFloatBetween0And1 t json = true) : t.type = .primitive := by
  simp only [typeFloatBetween0And1,Bool.and_eq_true,decide_eq_true_eq] at h
  exact h.1

theorem primitive_of_hue {t : Token} (h : typeFloatBetween0And360 t json = true) : t.type = .primitive := by
  by_contra hne
  rw [typeFloatBetween0And360,if_pos hne] at h
  cases h

/-- A number in an int that is what was given. -/
theorem intAt_eq_iff {f : ParamField} {k : ℤ} (hk : intAt toks json out f = some k) :
    intAt toks json out f = some (toInt32 k) ↔ FitsInt toks json out f := by
  rw [FitsInt,hk]
  simp [eq_comm]

theorem exact_iff_fits {f : ParamField} {k : ℤ} {r : Prop} (hk : intAt toks json out f = some k) (hr : r) :
    intAt toks json out f = some (toInt32 k) ∧ r ↔ FitsInt toks json out f :=
  (and_iff_left hr).trans (intAt_eq_iff hk)

/-- The steps that read the color succeed if it has been given. -/
structure ColorSteps (toks : List Token) (json : List UInt8) (out : Output ParamField) : Prop where
  hue : SucceedsIf (IsSet out .hue) (floatParam toks json out .hue 360)
  saturation : SucceedsIf (IsSet out .saturation) (floatParam toks json out .saturation 1)
  brightness : SucceedsIf (IsSet out .brightness) (floatParam toks json out .brightness 1)
  kelvin : SucceedsIf (IsSet out .kelvin) (intParam toks json out .kelvin)
  number : ∀ r, intParam toks json out .kelvin = .ok r →
    ∃ k, intAt toks json out .kelvin = some k ∧ r = (toInt32 k,false)

theorem colorSteps (hprim : PrimitivesIn json toks) (hschema : schema ∈ paramSchemas)
    (hout : Extracted schema toks json out)
    (hrows : ∀ x ∈ [hueNode,saturationNode,brightnessNode,kelvinNode], x ∈ schema) :
    ColorSteps toks json out := by
  have htidy := paramSchemas_tidy hschema
  obtain ⟨hkelvin,hnumber⟩ := intParam_succeeds hprim htidy hout (hrows kelvinNode (by simp)) rfl rfl
  exact ⟨floatParam_succeeds hprim htidy hout (hrows hueNode (by simp)) rfl (fun _ => primitive_of_hue) _,
    floatParam_succeeds hprim htidy hout (hrows saturationNode (by simp)) rfl (fun _ => primitive_of_unit) _,
    floatParam_succeeds hprim htidy hout (hrows brightnessNode (by simp)) rfl (fun _ => primitive_of_unit) _,
    hkelvin,hnumber⟩

theorem transitionParam_cases (hprim : PrimitivesIn json toks) (hout : Extracted setLightFromHsbkSchema toks json out) :
    (out.value .transition = none ∧ intAt toks json out .transition = none ∧
      transitionParam toks json out = .ok (0,false)) ∨
      ∃ t, out.value .transition ≠ none ∧ intAt toks json out .transition = some t ∧
        transitionParam toks json out = .ok (toInt32 t,false) := by
  have htidy : Tidy setLightFromHsbkSchema := paramSchemas_tidy (by simp [paramSchemas])
  have hrow :
      (⟨ascii "transition",some .transition,none,typeInteger,true⟩ : Node ParamField) ∈ setLightFromHsbkSchema := by
    simp [setLightFromHsbkSchema]
  obtain ⟨hsucceeds,hnumber⟩ := intParam_succeeds hprim htidy hout hrow rfl rfl
  cases hvalue : out.value .transition with
  | none => exact .inl ⟨rfl,by simp [intAt,hvalue],by simp [transitionParam,hvalue]⟩
  | some i =>
    have hset : IsSet out .transition := by simp [IsSet,hvalue]
    have heq : transitionParam toks json out = intParam toks json out .transition := if_pos hset
    rcases hsucceeds with ⟨-,r,hr⟩ | ⟨hunset,-⟩
    · obtain ⟨t,ht,rfl⟩ := hnumber r hr
      exact .inr ⟨t,by simp,ht,heq.trans hr⟩
    · exact absurd hset hunset

theorem hsbkFaithful_of_params (hprim : PrimitivesIn json toks)
    (hextract : s.extractParams toks json setLightFromHsbkSchema = .ok (true,out))
    (hout : Extracted setLightFromHsbkSchema toks json out) :
    HsbkFaithful toks json s ↔ HsbkSound toks json out := by
  have hschema : setLightFromHsbkSchema ∈ paramSchemas := by simp [paramSchemas]
  have hsteps := colorSteps hprim hschema hout (by simp [setLightFromHsbkSchema])
  unfold HsbkFaithful HsbkSound hsbkOutcome
  rw [hextract]
  change Comes _ (floatParam toks json out .hue 360 >>= _) ↔ _
  refine comes_bind hsteps.hue (fun h _ => comes_bind hsteps.saturation (fun sat _ => ?_))
  refine comes_bind hsteps.brightness (fun b _ => comes_bind hsteps.kelvin (fun r hr => ?_))
  obtain ⟨k,hk,rfl⟩ := hsteps.number r hr
  refine comes_check ?_ (fun hbounds => ?_)
  · simp [AtLeast,AtMost,hk]
    omega
  have hkelvin : intAt toks json out .kelvin = some (toInt32 k) ∧ 2500 ≤ toInt32 k ∧ toInt32 k ≤ 9000 ↔
      FitsInt toks json out .kelvin := exact_iff_fits hk ⟨hbounds.1 k hk,hbounds.2 k hk⟩
  rcases transitionParam_cases hprim hout with ⟨hnone,ht,heq⟩ | ⟨t,hsome,ht,heq⟩
  · have hbound : AtLeast toks json out .transition 0 := by simp [AtLeast,ht]
    rw [heq]
    refine Iff.trans (comes_targets hschema hout) (Iff.trans ?_ (forall_prop_of_true hbound).symm)
    refine and_congr_right (fun _ => imp_congr_right (fun _ => ?_))
    rw [← hkelvin]
    constructor
    · rintro ⟨out',hextract',hexact⟩
      cases hextract'
      exact ⟨hexact.kelvin,by simp [FitsInt,ht]⟩
    · exact fun h => ⟨out,rfl,h.1,.inl ⟨hnone,rfl⟩⟩
  · rw [heq]
    refine comes_check (by simp [AtLeast,ht]) (fun hbound => (comes_targets hschema hout).trans ?_)
    refine and_congr_right (fun _ => imp_congr_right (fun _ => ?_))
    have htransition : intAt toks json out .transition = some (toInt32 t) ∧ 0 ≤ toInt32 t ↔
        FitsInt toks json out .transition := exact_iff_fits ht (hbound t ht)
    rw [← hkelvin,← htransition]
    constructor
    · rintro ⟨out',hextract',hexact⟩
      cases hextract'
      exact ⟨hexact.kelvin,hexact.transition.resolve_left (fun h => hsome h.1)⟩
    · exact fun h => ⟨out,rfl,h.1,.inr h.2⟩

theorem exists_transientParam (hout : Extracted setWaveformSchema toks json out) :
    ∃ transient, transientParam toks json out = .ok transient := by
  have htidy : Tidy setWaveformSchema := paramSchemas_tidy (by simp [paramSchemas])
  have hrow : (⟨ascii "transient",some .transient,none,typeBool,true⟩ : Node ParamField) ∈ setWaveformSchema := by
    simp [setWaveformSchema]
  unfold transientParam
  split
  next hset =>
    rcases paramToken_succeeds htidy hout hrow rfl with ⟨-,t,ht⟩ | ⟨hunset,-⟩
    · exact ⟨_,by rw [ht]; rfl⟩
    · exact absurd hset hunset
  next => exact ⟨true,rfl⟩

theorem waveformFaithful_of_params (hprim : PrimitivesIn json toks)
    (hextract : s.extractParams toks json setWaveformSchema = .ok (true,out))
    (hout : Extracted setWaveformSchema toks json out) :
    WaveformFaithful toks json s ↔ WaveformSound toks json out := by
  have hschema : setWaveformSchema ∈ paramSchemas := by simp [paramSchemas]
  have htidy := paramSchemas_tidy hschema
  have hsteps := colorSteps hprim hschema hout (by simp [setWaveformSchema])
  have hname : SucceedsIf (IsSet out .waveform) (paramToken toks out .waveform) :=
    @paramToken_succeeds _ _ _ _ ⟨ascii "waveform",some .waveform,none,typeString,false⟩ _ htidy hout
      (by simp [setWaveformSchema]) rfl
  have hskew : SucceedsIf (IsSet out .skewRatio) (floatParam toks json out .skewRatio 1) :=
    @floatParam_succeeds _ _ _ _
      ⟨ascii "skew_ratio",some .skewRatio,none,typeFloatBetween0And1,false⟩ _ hprim htidy hout
      (by simp [setWaveformSchema]) rfl (fun _ => primitive_of_unit) _
  obtain ⟨hperiod,hperiod'⟩ := @intParam_succeeds _ _ _ _ ⟨ascii "period",some .period,none,typeInteger,false⟩ _ hprim
    htidy hout (by simp [setWaveformSchema]) rfl rfl
  obtain ⟨hcycles,hcycles'⟩ := @intParam_succeeds _ _ _ _ ⟨ascii "cycles",some .cycles,none,typeInteger,false⟩ _ hprim
    htidy hout (by simp [setWaveformSchema]) rfl rfl
  unfold WaveformFaithful WaveformSound waveformOutcome
  rw [hextract]
  change Comes _ (paramToken toks out .waveform >>= _) ↔ _
  refine comes_bind hname (fun name hread => comes_check ?_ (fun _ => ?_))
  · simp [KnownWaveform,hread]
  refine comes_bind hsteps.hue (fun h _ => comes_bind hsteps.saturation (fun sat _ => ?_))
  refine comes_bind hsteps.brightness (fun b _ => comes_bind hsteps.kelvin (fun r hr => ?_))
  obtain ⟨k,hk,rfl⟩ := hsteps.number r hr
  refine comes_check ?_ (fun hbounds => comes_bind hperiod (fun r hr => ?_))
  · simp [AtLeast,AtMost,hk]
    omega
  obtain ⟨period,hp,rfl⟩ := hperiod' r hr
  refine comes_check ?_ (fun hpbound => comes_bind hcycles (fun r hr => ?_))
  · simp [AtLeast,hp]
    omega
  obtain ⟨cycles,hc,rfl⟩ := hcycles' r hr
  refine comes_check ?_ (fun hcbound => comes_bind hskew (fun skewRatio _ => ?_))
  · simp [AtLeast,hc]
    omega
  obtain ⟨transient,ht⟩ := exists_transientParam hout
  rw [ht]
  refine Iff.trans (comes_targets hschema hout) (and_congr_right (fun _ => imp_congr_right (fun _ => ?_)))
  have hkelvin : intAt toks json out .kelvin = some (toInt32 k) ∧ 2500 ≤ toInt32 k ∧ toInt32 k ≤ 9000 ↔
      FitsInt toks json out .kelvin := exact_iff_fits hk ⟨hbounds.1 k hk,hbounds.2 k hk⟩
  rw [← hkelvin,← exact_iff_fits hp (hpbound period hp),← exact_iff_fits hc (hcbound cycles hc)]
  constructor
  · rintro ⟨out',hextract',hexact⟩
    cases hextract'
    exact ⟨hexact.kelvin,hexact.period,hexact.cycles⟩
  · exact fun h => ⟨out,rfl,h.1,h.2.1,h.2.2⟩

variable {p : Parser} {numTokens : Option ℕ}

/-- The parameters can be read, and if they are accepted the given holds of them. -/
def ParamsSound (toks : List Token) (json : List UInt8) (s : Session Daemon) (schema : List (Node ParamField))
    (sound : Output ParamField → Prop) : Prop :=
  ∃ ok out, s.extractParams toks json schema = .ok (ok,out) ∧ (ok = true → sound out)

theorem extracted_of_params (hschema : schema ∈ paramSchemas) {r : Bool × Output ParamField}
    (h : s.extractParams toks json schema = .ok r) : Extracted schema toks json r.2 := by
  unfold Session.extractParams at h
  split at h
  · cases h
  · exact extractAndValidateParams_extracted (paramSchemas_tidy hschema) h

/-- A setter does what it should if it can read its parameters, and if this settles it. -/
theorem faithful_iff {α : Type} {exact : Output ParamField → α → Prop} {x : Except Crash (Outcome α)}
    {sound : Output ParamField → Prop}
    (herror : ∀ e, s.extractParams toks json schema = .error e → x = .error e)
    (hrefused : ∀ out, s.extractParams toks json schema = .ok (false,out) →
      x = .ok (.answered (s.invalidParams toks json)))
    (htaken : ∀ out, s.extractParams toks json schema = .ok (true,out) →
      (Comes (Settled toks json s
          (fun args => ∃ out, s.extractParams toks json schema = .ok (true,out) ∧ exact out args)) x ↔
        sound out)) :
    Comes (Settled toks json s
        (fun args => ∃ out, s.extractParams toks json schema = .ok (true,out) ∧ exact out args)) x ↔
      ParamsSound toks json s schema sound := by
  unfold ParamsSound
  cases hextract : s.extractParams toks json schema with
  | error e =>
    rw [herror e hextract]
    exact iff_of_false (fun ⟨o,ho,_⟩ => by cases ho) (fun ⟨ok,out,h,_⟩ => by cases h)
  | ok r =>
    obtain ⟨ok,out⟩ := r
    cases ok with
    | false =>
      rw [hrefused out hextract,comes_ok]
      exact iff_of_true rfl ⟨false,out,rfl,nofun⟩
    | true =>
      have htaken' := htaken out hextract
      rw [hextract] at htaken'
      rw [htaken']
      constructor
      · exact fun h => ⟨true,out,rfl,fun _ => h⟩
      · rintro ⟨ok',out',h,hsound⟩
        cases h
        exact hsound rfl

/-- In a text that has been parsed, the setters pass on the integers that they were given or
answer with the error, exactly if the parameters that they need are there and the integers
of a request that passes all checks fit an int. -/
theorem setters_exact_iff (hp : parse json numTokens = .ok p) (s : Session Daemon) :
    (∀ set, checkAndCallSetLightFromHsbk set p.tokens json s = hsbkOutcome p.tokens json s >>=
      Outcome.resume (fun a => setLightFromHsbk set p.tokens json a.h a.s a.b a.k a.t) s) ∧
    (∀ set, checkAndCallSetWaveform set p.tokens json s = waveformOutcome p.tokens json s >>=
      Outcome.resume (fun a => setWaveform set p.tokens json a.waveform a.h a.s a.b a.k a.period a.cycles a.skewRatio
        a.transient) s) ∧
    (HsbkFaithful p.tokens json s ↔
      ParamsSound p.tokens json s setLightFromHsbkSchema (HsbkSound p.tokens json)) ∧
    (WaveformFaithful p.tokens json s ↔
      ParamsSound p.tokens json s setWaveformSchema (WaveformSound p.tokens json)) := by
  have hprim := primitivesIn_parse hp
  refine ⟨fun _ => checkAndCallSetLightFromHsbk_eq,fun _ => checkAndCallSetWaveform_eq,
    faithful_iff ?_ ?_ ?_,faithful_iff ?_ ?_ ?_⟩
  · exact fun e he => by rw [hsbkOutcome,he]; rfl
  · exact fun out hout => by rw [hsbkOutcome,hout]; rfl
  · exact fun out hout => hsbkFaithful_of_params hprim hout (extracted_of_params (by simp [paramSchemas]) hout)
  · exact fun e he => by rw [waveformOutcome,he]; rfl
  · exact fun out hout => by rw [waveformOutcome,hout]; rfl
  · exact fun out hout => waveformFaithful_of_params hprim hout (extracted_of_params (by simp [paramSchemas]) hout)

end Faithful

section Samples

/-- Parameters with a number that is greater than the integers of the C compiler, by position. -/
def wideJson : List UInt8 := ascii "[\"*\",0,1,1,4294970796]"

def wideKelvin : Token := ⟨.primitive,11,21,0⟩

def wideToks : List Token :=
  [⟨.array,0,22,5⟩,⟨.string,2,3,0⟩,⟨.primitive,5,6,0⟩,⟨.primitive,7,8,0⟩,⟨.primitive,9,10,0⟩,wideKelvin]

def wideSession : Session Daemon := ⟨{},⟨some [],some [],some ⟨none,some 0,6,none,0⟩⟩⟩

def kelvinPassed : Outcome HsbkArgs → Option ℤ
  | .answered _ => none
  | .called args _ => some args.k

theorem setters_exact_iff_wide :
    (HsbkFaithful wideToks wideJson wideSession ↔
      ParamsSound wideToks wideJson wideSession setLightFromHsbkSchema (HsbkSound wideToks wideJson)) ∧
    (WaveformFaithful wideToks wideJson wideSession ↔
      ParamsSound wideToks wideJson wideSession setWaveformSchema (WaveformSound wideToks wideJson)) := by
  have hp : parse wideJson (some 6) =
      .ok ⟨wideToks,[none,some 0,some 0,some 0,some 0,some 0],none,6⟩ := by decide +kernel
  exact (setters_exact_iff hp wideSession).2.2

/-- The command is called with another color temperature than the one that was given, which
is out of its bounds. -/
theorem wide_kelvin_wrapped : parseTokens wideJson = some wideToks ∧
    integerOf (tokenText wideJson wideKelvin) = some 4294970796 ∧
    (wideSession.extractParams wideToks wideJson setLightFromHsbkSchema).map
      (fun r => (r.1,intAt wideToks wideJson r.2 .kelvin)) = .ok (true,some 4294970796) ∧
    (hsbkOutcome wideToks wideJson wideSession).map kelvinPassed = .ok (some 3500) := by
  refine ⟨?_,?_,?_,?_⟩ <;> decide +kernel

end Samples
end Lightsd.Core.Jsonrpc
