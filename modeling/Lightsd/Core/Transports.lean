import Lightsd.Core.BatchParts
import Lightsd.Core.HandlerFailures

/-! # Sockets and pipes

The client of a command pipe has neither a connection nor an address. What a request does to
the daemon does not depend on either, as the connection is only ever written to and that is
left out when it is missing. The one exception is the method that reads light states, which
prints the address of the client even if there is none.
-/
namespace Lightsd.Core.Jsonrpc

open Lifx

/-- Two outcomes with the same effect on the daemon. -/
def SameWorld (x y : Except Crash (Session Daemon)) : Prop := x.map Session.world = y.map Session.world

namespace SameWorld

theorem refl (x : Except Crash (Session Daemon)) : SameWorld x x := rfl

theorem bind {α : Type} (x : Except Crash α) {f g : α → Except Crash (Session Daemon)}
    (h : ∀ a, SameWorld (f a) (g a)) : SameWorld (x >>= f) (x >>= g) := by
  cases x with
  | error e => rfl
  | ok a => exact h a

theorem ite {p : Prop} [Decidable p] {x y x' y' : Except Crash (Session Daemon)} (hx : SameWorld x x')
    (hy : SameWorld y y') : SameWorld (if p then x else y) (if p then x' else y') := by
  split
  · exact hx
  · exact hy

end SameWorld

section Blindness
variable (set : Setting) (toks : List Token) (json : List UInt8)

/-- A handler whose effect does not depend on the connection or the address. -/
def Handler.Blind (h : Handler Daemon) : Prop :=
  ∀ d c c', c.currentRequest = c'.currentRequest → SameWorld (h ⟨d,c⟩) (h ⟨d,c'⟩)

variable {set toks json} {d : Daemon} {c c' : Caller}

theorem extractParams_congr (hc : c.currentRequest = c'.currentRequest) (schema : List (Node ParamField)) :
    Session.extractParams toks json ⟨d,c⟩ schema = Session.extractParams toks json ⟨d,c'⟩ schema := by
  simp only [Session.extractParams,hc]

theorem targetLoop_congr (first n : ℕ) (targets : List TargetName) :
    (targetLoop toks json first c n targets).map Prod.snd = (targetLoop toks json first c' n targets).map Prod.snd := by
  induction n generalizing targets with
  | zero => rfl
  | succ n ih =>
    simp only [targetLoop,bind,Except.bind]
    cases readToken toks (first + n) with
    | error e => rfl
    | ok tok =>
      simp only
      split
      · exact ih _
      · rfl

theorem buildTargetList_congr (target n : ℕ) :
    (buildTargetList toks json c target n).map Prod.snd = (buildTargetList toks json c' target n).map Prod.snd := by
  unfold buildTargetList
  split
  · rfl
  · cases readToken toks target with
    | error e => rfl
    | ok tok =>
      simp only [bind,Except.bind]
      split
      · exact targetLoop_congr _ _ _
      · split
        · rfl
        · exact targetLoop_congr _ _ _

/-- The parameters that were found name these targets. -/
def Targets (toks : List Token) (json : List UInt8) (out : Output ParamField) (targets : List TargetName) : Prop :=
  ∃ target, out.value .target = some target ∧
    (buildTargetList toks json {} target (out.ntokens .target)).map Prod.snd = .ok (some targets)

theorem withTargets_congr (out : Output ParamField) {k : List TargetName → Handler Daemon}
    (hk : ∀ targets, Targets toks json out targets → SameWorld (k targets ⟨d,c⟩) (k targets ⟨d,c'⟩)) :
    SameWorld (Session.withTargets toks json ⟨d,c⟩ out k) (Session.withTargets toks json ⟨d,c'⟩ out k) := by
  unfold Session.withTargets
  cases htarget : out.value .target with
  | none => exact .refl _
  | some target =>
    have hbuild := @buildTargetList_congr toks json c c' target (out.ntokens .target)
    simp only [bind,Except.bind]
    cases h : buildTargetList toks json c target (out.ntokens .target) with
    | error e =>
      cases h' : buildTargetList toks json c' target (out.ntokens .target) with
      | error e' =>
        simp only [h,h',Except.map,Except.error.injEq] at hbuild
        simp only [hbuild]
        exact .refl _
      | ok r' => simp [h,h',Except.map] at hbuild
    | ok r =>
      cases h' : buildTargetList toks json c' target (out.ntokens .target) with
      | error e' => simp [h,h',Except.map] at hbuild
      | ok r' =>
        simp only [h,h',Except.map,Except.ok.injEq] at hbuild
        obtain ⟨caller,targets⟩ := r
        obtain ⟨caller',targets'⟩ := r'
        simp only at hbuild
        subst hbuild
        cases targets with
        | none => rfl
        | some targets =>
          apply hk targets
          exact ⟨target,htarget,(buildTargetList_congr _ _).trans (by rw [h]; rfl)⟩

theorem blind_targetsOnly {k : List TargetName → Handler Daemon} (hk : ∀ targets, (k targets).Blind) :
    (checkAndCallTargetsOnly toks json k).Blind := by
  intro d c c' hc
  simp only [checkAndCallTargetsOnly,extractParams_congr hc]
  refine .bind _ (fun r => .ite rfl ?_)
  exact withTargets_congr r.2 (fun targets _ => hk targets d c c' hc)

theorem blind_runFor (cmd : List TargetName → Command) (targets : List TargetName) :
    (runFor set toks json cmd targets).Blind := fun _ _ _ _ => rfl

theorem blind_setLightFromHsbk : (checkAndCallSetLightFromHsbk set toks json).Blind := by
  intro d c c' hc
  simp only [checkAndCallSetLightFromHsbk,extractParams_congr hc]
  refine .bind _ (fun r => .ite rfl (.bind _ (fun h => .bind _ (fun s => .bind _ (fun b => .bind _ (fun k => ?_))))))
  refine .ite rfl (.bind _ (fun t => .ite rfl (withTargets_congr r.2 (fun targets _ => ?_))))
  exact .ite rfl rfl

theorem blind_setWaveform : (checkAndCallSetWaveform set toks json).Blind := by
  intro d c c' hc
  simp only [checkAndCallSetWaveform,extractParams_congr hc]
  refine .bind _ (fun r => .ite rfl (.bind _ (fun name => .ite rfl (.bind _ (fun h => .bind _ (fun s => ?_))))))
  refine .bind _ (fun b => .bind _ (fun k => .ite rfl (.bind _ (fun period => .ite rfl (.bind _ (fun cycles => ?_))))))
  refine .ite rfl (.bind _ (fun skew => .bind _ (fun transient => withTargets_congr r.2 (fun targets _ => ?_))))
  exact .ite rfl rfl

theorem blind_labelled (cmd : List TargetName → List UInt8 → Command) :
    (checkAndCallProtoTagOrUntagOrSetLabel set toks json cmd).Blind := by
  intro d c c' hc
  simp only [checkAndCallProtoTagOrUntagOrSetLabel,extractParams_congr hc]
  exact .bind _ (fun r => .ite rfl (withTargets_congr r.2 (fun targets _ => .bind _ (fun tok => rfl))))

/-- All methods but one. -/
theorem blind_methodHandlers {m : Method} (hm : m ≠ .getLightState) : (methodHandlers set toks json m).Blind := by
  cases m with
  | getLightState => exact absurd rfl hm
  | powerOn | powerOff | powerToggle => exact blind_targetsOnly (fun _ => blind_runFor _ _)
  | setLightFromHsbk => exact blind_setLightFromHsbk
  | setWaveform => exact blind_setWaveform
  | tag | untag | setLabel => exact blind_labelled _

/-- The parameters of a request name targets that a command can be run for. -/
def HasTargets (toks : List Token) (json : List UInt8) (request : Request) : Prop :=
  ∃ out targets, extractAndValidateParams targetSchema toks json request.params request.paramsNtokens =
    .ok (true,out) ∧ Targets toks json out targets

theorem getLightState_same {request : Request} (hc : c.currentRequest = some request)
    (hc' : c'.currentRequest = some request) (h : ¬ HasTargets toks json request) :
    SameWorld (checkAndCallGetLightState set toks json ⟨d,c⟩) (checkAndCallGetLightState set toks json ⟨d,c'⟩) := by
  simp only [checkAndCallGetLightState,checkAndCallTargetsOnly,Session.extractParams,hc,hc']
  cases hparams : extractAndValidateParams targetSchema toks json request.params request.paramsNtokens with
  | error e => rfl
  | ok r =>
    obtain ⟨ok,out⟩ := r
    cases ok with
    | false => rfl
    | true =>
      apply withTargets_congr
      intro targets htargets
      exact absurd ⟨out,targets,hparams,htargets⟩ h

/-- With targets there is no way around the address. -/
theorem getLightState_nullAddr {request : Request} (hc : c.currentRequest = some request) (haddr : c.addr = none)
    (h : HasTargets toks json request) : checkAndCallGetLightState set toks json ⟨d,c⟩ = .error .nullAddr := by
  obtain ⟨out,targets,hparams,target,htarget,hbuild⟩ := h
  have hbuild' := (@buildTargetList_congr toks json c {} target (out.ntokens .target)).trans hbuild
  simp only [checkAndCallGetLightState,checkAndCallTargetsOnly,Session.extractParams,hc,hparams,bind,Except.bind,
    Bool.not_true,Bool.false_eq_true,if_false,Session.withTargets,htarget]
  cases hlist : buildTargetList toks json c target (out.ntokens .target) with
  | error e => simp [hlist,Except.map] at hbuild'
  | ok r =>
    obtain ⟨caller,targets'⟩ := r
    simp only [hlist,Except.map,Except.ok.injEq] at hbuild'
    subst hbuild'
    simp only [getLightState,haddr]

end Blindness

section Transports

/-- The client of a command pipe. -/
def pipeCaller : Caller := {}

/-- The client of a connection, with what has been written to it and its address. -/
def socketCaller (out : List UInt8) (addr : SockAddr) : Caller := { io := some out, addr := some addr }

/-- What a request does to the daemon, the number of answers and the number of tokens. -/
def effect (x : Except Crash (Session Daemon × Option ℕ × ℕ)) : Except Crash (Daemon × Option ℕ × ℕ) :=
  x.map (fun r => (r.1.world,r.2))

variable {set : Setting} {toks : List Token} {json : List UInt8} {d : Daemon}

/-- Computations that differ in what is not looked at later. -/
theorem map_bind_congr {α β γ δ : Type} {x y : Except Crash α} {f : α → β} {F G : α → Except Crash γ} {k : γ → δ}
    (h : x.map f = y.map f) (hk : ∀ a b, f a = f b → (F a).map k = (G b).map k) :
    (x >>= F).map k = (y >>= G).map k := by
  cases x with
  | error e =>
    cases y with
    | error e' => exact congrArg Except.error (Except.error.inj h)
    | ok b => cases h
  | ok a =>
    cases y with
    | error e' => cases h
    | ok b => exact hk a b (Except.ok.inj h)

theorem callMethod_same {m : Method} {request : Request} {c c' : Caller} (batchSent : Option ℕ)
    (h : ∀ k k' : Caller, k.currentRequest = some request → k'.currentRequest = some request →
      SameWorld (methodHandlers set toks json m ⟨d,k⟩) (methodHandlers set toks json m ⟨d,k'⟩))
    (hc : c.currentRequest = some request) (hc' : c'.currentRequest = some request) :
    (callMethod (methodHandlers set toks json) m request batchSent ⟨d,c⟩).map (fun r => (r.1.world,r.2)) =
      (callMethod (methodHandlers set toks json) m request batchSent ⟨d,c'⟩).map (fun r => (r.1.world,r.2)) := by
  unfold callMethod
  split
  · have hsame := h { c with io := none } { c' with io := none } hc hc'
    exact map_bind_congr hsame (fun s s' hs => congrArg Except.ok (Prod.ext hs rfl))
  · have hsame := h (c.batchPrepareNextPart batchSent) (c'.batchPrepareNextPart batchSent)
      ((batchPrepareNextPart_request c batchSent).trans hc) ((batchPrepareNextPart_request c' batchSent).trans hc')
    exact map_bind_congr hsame (fun s s' hs => congrArg Except.ok (Prod.ext hs rfl))

theorem servePart_same {part : Part} {c c' : Caller} (batchSent : Option ℕ)
    (h : ∀ m request, part = .call m request →
      ∀ k k' : Caller, k.currentRequest = some request → k'.currentRequest = some request →
        SameWorld (methodHandlers set toks json m ⟨d,k⟩) (methodHandlers set toks json m ⟨d,k'⟩)) :
    (servePart (methodHandlers set toks json) toks json part batchSent ⟨d,c⟩).map (fun r => (r.1.world,r.2)) =
      (servePart (methodHandlers set toks json) toks json part batchSent ⟨d,c'⟩).map (fun r => (r.1.world,r.2)) := by
  cases part with
  | notObject | invalid _ | unknown _ => rfl
  | call m request =>
    have hcall := @callMethod_same set toks json d m request { c with currentRequest := some request }
      { c' with currentRequest := some request } batchSent (h m request rfl) rfl rfl
    exact map_bind_congr hcall (fun r r' hr => congrArg Except.ok hr)

theorem dispatchOne_same {base ntokens : ℕ} (batchSent : Option ℕ) (c c' : Caller)
    (h : ∀ request n, requestPart toks json base ntokens = .ok (.call .getLightState request,n) →
      ¬ HasTargets toks json request) :
    effect (dispatchOne (methodHandlers set toks json) toks json base ntokens batchSent ⟨d,c⟩) =
      effect (dispatchOne (methodHandlers set toks json) toks json base ntokens batchSent ⟨d,c'⟩) := by
  simp only [dispatchOne_eq]
  cases hpart : requestPart toks json base ntokens with
  | error e => rfl
  | ok r =>
    obtain ⟨part,n⟩ := r
    have hserve := @servePart_same set toks json d part c c' (batchSent.map (· + 1)) (by
      rintro m request rfl k k' hk hk'
      by_cases hm : m = .getLightState
      · subst hm
        exact getLightState_same hk hk' (h request n hpart)
      · exact blind_methodHandlers hm d k k' (hk.trans hk'.symm))
    have hrest : ∀ r r' : Session Daemon × Option ℕ, (r.1.world,r.2) = (r'.1.world,r'.2) →
        effect (.ok (r.1,r.2,n)) = effect (.ok (r'.1,r'.2,n)) := by
      intro r r' hr
      simp only [Prod.mk.injEq] at hr
      simp only [effect,Except.map,hr.1,hr.2]
    let goOn := fun r : Session Daemon × Option ℕ => (.ok (r.1,r.2,n) : Except Crash (Session Daemon × Option ℕ × ℕ))
    exact map_bind_congr (F := goOn) (G := goOn) hserve hrest

/-- If the handler stops the daemon then so does the call. -/
theorem servePart_crash {handlers : Method → Handler Daemon} {m : Method} {request : Request} {batchSent : Option ℕ}
    {c : Caller} {e : Crash} (h : ∀ k : Caller, k.currentRequest = some request → k.addr = c.addr →
      handlers m ⟨d,k⟩ = .error e) :
    servePart handlers toks json (.call m request) batchSent ⟨d,c⟩ = .error e := by
  have hsilent := h { c with currentRequest := some request, io := none } rfl rfl
  have hprepare := h (Caller.batchPrepareNextPart { c with currentRequest := some request } batchSent)
    (batchPrepareNextPart_request _ _) (batchPrepareNextPart_addr _ _)
  simp only [servePart,callMethod,Session.setRequest,Session.setIo,Session.mapCaller,hsilent,hprepare]
  split <;> rfl

/-- A request has the same effect for a command pipe as for a connection, and needs no address,
unless it is one that reads light states and names its targets. -/
theorem transports_agree_iff (set : Setting) (toks : List Token) (json : List UInt8) (base ntokens : ℕ)
    (batchSent : Option ℕ) (d : Daemon) (out : List UInt8) (addr : SockAddr) :
    (effect (dispatchOne (methodHandlers set toks json) toks json base ntokens batchSent ⟨d,pipeCaller⟩) =
        effect (dispatchOne (methodHandlers set toks json) toks json base ntokens batchSent
          ⟨d,socketCaller out addr⟩) ∧
      dispatchOne (methodHandlers set toks json) toks json base ntokens batchSent ⟨d,pipeCaller⟩ ≠
        .error .nullAddr) ↔
    ¬ ∃ request n, requestPart toks json base ntokens = .ok (.call .getLightState request,n) ∧
      HasTargets toks json request := by
  constructor
  · rintro ⟨-,hne⟩ ⟨request,n,hpart,htargets⟩
    apply hne
    have hserve : servePart (methodHandlers set toks json) toks json (.call .getLightState request)
        (batchSent.map (· + 1)) ⟨d,pipeCaller⟩ = .error .nullAddr :=
      servePart_crash (fun c hc haddr => getLightState_nullAddr hc haddr htargets)
    rw [dispatchOne_eq,hpart]
    simp only [bind,Except.bind,hserve]
  · intro h
    have hsame := @dispatchOne_same set toks json d base ntokens batchSent pipeCaller (socketCaller out addr)
      (fun request n hpart htargets => h ⟨request,n,hpart,htargets⟩)
    refine ⟨hsame,fun herror => ?_⟩
    rw [herror] at hsame
    have hfails : Fails (fun e => decide (e ≠ .nullAddr)) (dispatchOne (methodHandlers set toks json) toks json base
        ntokens batchSent ⟨d,socketCaller out addr⟩) := by
      have htok : ∀ e : Crash, e.atToken = true → decide (e ≠ .nullAddr) = true := by
        intro e he
        cases e <;> first | rfl | cases he
      exact dispatchOne_fails ((requestPart_fails toks json base ntokens).mono htok) rfl rfl
        (fun _ request _ _ => readable_of_atToken htok rfl request) nofun
    cases hsocket : dispatchOne (methodHandlers set toks json) toks json base ntokens batchSent
        ⟨d,socketCaller out addr⟩ with
    | error e =>
      rw [hsocket] at hsame
      cases hsame
      exact absurd (hfails _ hsocket) (by decide)
    | ok r =>
      rw [hsocket] at hsame
      cases hsame

/-- A request for the states of all bulbs. -/
def statesJson : List UInt8 :=
  ascii "\x7b\"jsonrpc\":\"2.0\",\"method\":\"get_light_state\",\"params\":[\"*\"]\x7d"

def statesToks : List Token := (parseTokens statesJson).getD []

/-- It stops the daemon if it comes from a command pipe, and is answered on a connection. -/
theorem pipe_light_state_crashes :
    (dispatchOne (methodHandlers plainSetting statesToks statesJson) statesToks statesJson 0 8 none
        ⟨{},pipeCaller⟩).map (fun _ => ()) = .error .nullAddr ∧
      (dispatchOne (methodHandlers plainSetting statesToks statesJson) statesToks statesJson 0 8 none
        ⟨{},socketCaller [] []⟩).map (fun _ => ()) = .ok () := by
  constructor <;> decide +kernel

end Transports
end Lightsd.Core.Jsonrpc
