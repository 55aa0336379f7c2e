import Lightsd.Core.ExtractedFields
import Lightsd.Core.NumberTexts

/-! # The calls of the setters

The two methods with numbers among their parameters, up to the point where they call their
commands. A request comes to an answer that is sent at once, or to a call with arguments
and targets; going on from there gives what the handlers do.
-/
namespace Lightsd.Core.Jsonrpc

open Lifx Jsmn

/-- What a request comes to before its command is run. -/
inductive Outcome (α : Type)
  | answered (s : Session Daemon)
  | called (args : α) (targets : List TargetName)

structure HsbkArgs where
  h : ℤ
  s : ℤ
  b : ℤ
  k : ℤ
  t : ℤ

structure WaveformArgs where
  waveform : ℕ
  h : ℤ
  s : ℤ
  b : ℤ
  k : ℤ
  period : ℤ
  cycles : ℤ
  skewRatio : ℤ
  transient : Bool

section Outcomes
variable {α : Type} (toks : List Token) (json : List UInt8)

/-- Run the command with its arguments, if it comes to that. -/
def Outcome.resume (call : α → List TargetName → Handler Daemon) (s : Session Daemon) :
    Outcome α → Except Crash (Session Daemon)
  | .answered s' => .ok s'
  | .called args targets => call args targets s

/-- The targets are read last. -/
def targetsOutcome (s : Session Daemon) (out : Output ParamField) (args : α) : Except Crash (Outcome α) :=
  match out.value .target with
  | none => .error .nullToken
  | some target => do
    let (caller,targets) ← buildTargetList toks json s.caller target (out.ntokens .target)
    match targets with
    | none => .ok (.answered { s with caller := caller })
    | some targets => .ok (.called args targets)

def hsbkOutcome (session : Session Daemon) : Except Crash (Outcome HsbkArgs) := do
  let (ok,out) ← session.extractParams toks json setLightFromHsbkSchema
  if !ok then .ok (.answered (session.invalidParams toks json))
  else
    let h ← floatParam toks json out .hue 360
    let s ← floatParam toks json out .saturation 1
    let b ← floatParam toks json out .brightness 1
    let (k,erange) ← intParam toks json out .kelvin
    if k < 2500 || 9000 < k || erange then .ok (.answered (session.invalidParams toks json))
    else
      let (t,erange) ← transitionParam toks json out
      if t < 0 || erange then .ok (.answered (session.invalidParams toks json))
      else targetsOutcome toks json session out ⟨h,s,b,k,t⟩

def waveformOutcome (session : Session Daemon) : Except Crash (Outcome WaveformArgs) := do
  let (ok,out) ← session.extractParams toks json setWaveformSchema
  if !ok then .ok (.answered (session.invalidParams toks json))
  else
    let name ← paramToken toks out .waveform
    let waveform := waveformStringIdToType (tokenText json name)
    if waveform = waveformInvalid then .ok (.answered (session.invalidParams toks json))
    else
      let h ← floatParam toks json out .hue 360
      let s ← floatParam toks json out .saturation 1
      let b ← floatParam toks json out .brightness 1
      let (k,erange) ← intParam toks json out .kelvin
      if k < 2500 || 9000 < k || erange then .ok (.answered (session.invalidParams toks json))
      else
        let (period,erange) ← intParam toks json out .period
        if period ≤ 0 || erange then .ok (.answered (session.invalidParams toks json))
        else
          let (cycles,erange) ← intParam toks json out .cycles
          if cycles ≤ 0 || erange then .ok (.answered (session.invalidParams toks json))
          else
            let skewRatio ← floatParam toks json out .skewRatio 1
            let transient ← transientParam toks json out
            targetsOutcome toks json session out ⟨waveform,h,s,b,k,period,cycles,skewRatio - 32767,transient⟩

variable {toks json} {s : Session Daemon} {set : Setting}

/-- Going on behind a step is the same in any order of the parentheses. -/
theorem bind_resume {β : Type} {x : Except Crash β} {f : β → Except Crash (Session Daemon)}
    {g : β → Except Crash (Outcome α)} {call : α → List TargetName → Handler Daemon}
    (h : ∀ b, f b = g b >>= Outcome.resume call s) : (x >>= f) = (x >>= g) >>= Outcome.resume call s := by
  cases x with
  | error e => rfl
  | ok b => exact h b

theorem ite_resume {c : Prop} [Decidable c] {s' : Session Daemon} {x : Except Crash (Session Daemon)}
    {y : Except Crash (Outcome α)} {call : α → List TargetName → Handler Daemon}
    (h : x = y >>= Outcome.resume call s) :
    (if c then .ok s' else x) = (if c then .ok (.answered s') else y) >>= Outcome.resume call s := by
  split
  · rfl
  · exact h

theorem withTargets_eq {out : Output ParamField} {args : α} {call : α → List TargetName → Handler Daemon}
    {k : List TargetName → Handler Daemon} (hk : k = call args) :
    s.withTargets toks json out k = targetsOutcome toks json s out args >>= Outcome.resume call s := by
  subst hk
  unfold Session.withTargets targetsOutcome
  cases out.value .target with
  | none => rfl
  | some target =>
    refine bind_resume (fun r => ?_)
    obtain ⟨caller,targets⟩ := r
    cases targets <;> rfl

theorem checkAndCallSetLightFromHsbk_eq : checkAndCallSetLightFromHsbk set toks json s =
    hsbkOutcome toks json s >>=
      Outcome.resume (fun a => setLightFromHsbk set toks json a.h a.s a.b a.k a.t) s := by
  refine bind_resume (fun r => ite_resume ?_)
  refine bind_resume (fun h => bind_resume (fun sat => bind_resume (fun b => bind_resume (fun k => ite_resume ?_))))
  exact bind_resume (fun t => ite_resume (withTargets_eq rfl))

theorem checkAndCallSetWaveform_eq : checkAndCallSetWaveform set toks json s =
    waveformOutcome toks json s >>=
      Outcome.resume (fun a => setWaveform set toks json a.waveform a.h a.s a.b a.k a.period a.cycles a.skewRatio
        a.transient) s := by
  refine bind_resume (fun r => ite_resume (bind_resume (fun name => ite_resume ?_)))
  refine bind_resume (fun h => bind_resume (fun sat => bind_resume (fun b => bind_resume (fun k => ite_resume ?_))))
  refine bind_resume (fun period => ite_resume (bind_resume (fun cycles => ite_resume ?_)))
  refine bind_resume (fun skewRatio => bind_resume (fun transient => ?_))
  exact withTargets_eq rfl

end Outcomes
end Lightsd.Core.Jsonrpc
