import Lightsd.Core.WatchdogRuns
import Lightsd.Lifx.BroadcastEndpoint

/-! # Discovery over whole runs

The daemon runs beside its broadcast endpoint and the timer of the discovery. Each time the
timer fires, the endpoint is asked to send a discovery packet, and the timer is set again,
later and later as long as there are gateways. A packet is also asked for when a gateway is
lost and when the watchdog closes a device. An endpoint that fails is closed and set up again, and the daemon does not
notice when the second of these does not succeed until it needs the endpoint.
-/
namespace Lightsd.Core

open Lifx Lifx.Daemon Runs

def activeDiscoveryInterval : ℕ := 2000
def passiveDiscoveryInterval : ℕ := 10000

/-- A pass of the watchdog that closes something. -/
def watchdogStartsDiscovery (d : Daemon) (now : Time) : Bool :=
  d.bulbs.any (fun b => decide (TimedOut now (d.bulb b).lastLightStateAt)) ||
    (d.bulbs.foldl (watchdogBulb now) d).gateways.any
      fun g => decide (TimedOut now ((d.bulbs.foldl (watchdogBulb now) d).gw g).lastPktAt)

/-- `firedAt` is the time at which the timer fired last, and `rounds` the number of times in
a row that it found gateways. -/
structure DiscoveryState where
  daemon : Daemon
  clock : Time
  broadcast : Broadcast
  timeout : ℕ
  firedAt : Time
  rounds : ℕ

inductive DiscoveryEvent
  | timeout (now : Time) (timerAdded writeAdded : Bool)
  | endpoint (call : EndpointCall)
  | daemon (e : Event) (reset : SetupAnswers) (writeAdded : Bool)

def Event.readsBroadcast : Event → Bool
  | broadcastReceive .. => true
  | _ => false

/-- Gateways are dropped on errors of their sockets. -/
def Event.dropsGateway (d : Daemon) : Event → Bool
  | gatewayLost _ => true
  | gatewayReceive g now dg env => !(d.handleReceive now (some g) dg env).2
  | gatewayWrite g now r => ((d.gw g).writeEvent now r).isNone
  | _ => false

def DiscoveryEvent.isTimeout : DiscoveryEvent → Bool
  | timeout .. => true
  | _ => false

namespace DiscoveryState

def time (s : DiscoveryState) : DiscoveryEvent → Time
  | .timeout now _ _ => now
  | .endpoint _ => s.clock
  | .daemon e _ _ => e.time?.getD s.clock

def discoveryTimeout (s : DiscoveryState) (now : Time) (timerAdded writeAdded : Bool) :
    Except Halt DiscoveryState :=
  let timeout := if s.daemon.gateways = [] then activeDiscoveryInterval
    else min (s.timeout * 2) passiveDiscoveryInterval
  let rounds := if s.daemon.gateways = [] then 0 else s.rounds + 1
  if timerAdded then do
    match ← s.broadcast.discovery writeAdded with
    | (b,true) =>
      pure { s with clock := now, broadcast := b, timeout := timeout, firedAt := now, rounds := rounds }
    | (_,false) => .error (.exit 1)
  else .error (.exit 1)

/-- What an event of the daemon does to the endpoint. Only the watchdog does not look at the
result of the discovery it starts. -/
def broadcastStep (s : DiscoveryState) (e : Event) (reset : SetupAnswers) (writeAdded : Bool) :
    Except Halt Broadcast :=
  match e with
  | .broadcastReceive now dg env =>
    s.broadcast.eventCallback s.daemon.clientId
      ⟨false,some (s.daemon.handleReceive now none dg env).2,none,reset⟩
  | .watchdog now =>
    if watchdogStartsDiscovery s.daemon now then do return (← s.broadcast.discovery writeAdded).1
    else .ok s.broadcast
  | e =>
    if e.dropsGateway s.daemon then do
      match ← s.broadcast.discovery writeAdded with
      | (b,true) => pure b
      | (_,false) => .error (.exit 1)
    else .ok s.broadcast

def step (s : DiscoveryState) (e : DiscoveryEvent) : Except Halt DiscoveryState :=
  match e with
  | .timeout now timerAdded writeAdded => s.discoveryTimeout now timerAdded writeAdded
  | .endpoint call => do return { s with broadcast := ← s.broadcast.eventCallback s.daemon.clientId call }
  | .daemon e reset writeAdded => do
    let b ← s.broadcastStep e reset writeAdded
    return { s with daemon := e.apply s.daemon, clock := e.time?.getD s.clock, broadcast := b }

/-- The endpoint is set up before the timer is started. -/
def start (clientId : UInt32) (now : Time) (answers : SetupAnswers) (timerAdded writeAdded : Bool) :
    Except Halt DiscoveryState := do
  match ← ({} : Broadcast).setup answers with
  | (b,true) =>
    discoveryTimeout ⟨started clientId,now,b,activeDiscoveryInterval,now,0⟩ now timerAdded writeAdded
  | (_,false) => .error (.exit 1)

/-- The timer fires when it is due. Callbacks of the endpoint need a pending event, and a
datagram is read from the endpoint by its callback. -/
def Enabled (s : DiscoveryState) : DiscoveryEvent → Prop
  | .timeout now _ _ => s.firedAt.toNat + s.timeout ≤ now.toNat
  | .endpoint call => call.reset.Distinct ∧ s.broadcast.events ≠ [] ∧
    (call.read.isSome → s.broadcast.ReadPending) ∧ (call.write.isSome → s.broadcast.WritePending)
  | .daemon e reset _ => e.Enabled s.daemon ∧ reset.Distinct ∧ (e.readsBroadcast → s.broadcast.ReadPending)

instance (s : DiscoveryState) : DecidablePred s.Enabled
  | .timeout .. => inferInstanceAs (Decidable (_ ≤ _))
  | .endpoint _ => inferInstanceAs (Decidable (_ ∧ _ ∧ (_ → _) ∧ (_ → _)))
  | .daemon .. => inferInstanceAs (Decidable (Event.Enabled _ _ ∧ _ ∧ (_ → _)))

end DiscoveryState

/-- Events come in the order of the clock, and no more than some delay after the timer was
due. A daemon that has stopped takes no event. Only the discovery and its endpoint stop it
here: an assertion that fails in an event of the daemon is noted in its faults. -/
def discoverySystem (delay : ℕ) : System (Except Halt DiscoveryState) DiscoveryEvent where
  enabled
    | .ok s,e => s.Enabled e ∧ s.clock ≤ s.time e ∧ (s.time e).toNat ≤ s.firedAt.toNat + s.timeout + delay
    | .error _,_ => False
  step s e := s >>= fun s => s.step e

instance (delay : ℕ) (x : Except Halt DiscoveryState) (e : DiscoveryEvent) :
    Decidable ((discoverySystem delay).enabled x e) :=
  match x with
  | .ok _ => inferInstanceAs (Decidable (_ ∧ _ ∧ _))
  | .error _ => isFalse id

def runningSetup : SetupAnswers := ⟨some 3,true,true,true,true,some 1,some 2,true⟩

/-- A packet leaves, and then none does, and the endpoint cannot be set up again. -/
def lostEndpointRun : List DiscoveryEvent :=
  [.endpoint ⟨false,none,
    some ⟨.listed [(⟨none,true,true⟩,none),(⟨some (.inet,0xc0a800ff),true,true⟩,some 36)],true⟩,
    runningSetup⟩,
   .timeout 2000 true true,
   .endpoint ⟨false,none,some ⟨.listed [],true⟩,{ runningSetup with socket := none }⟩]

section Endpoint
variable {delay : ℕ} {s : DiscoveryState} {b : Broadcast}

/-- Handles are used only while they are held. -/
def HaltsCleanly {α : Type} (P : α → Prop) : Except Halt α → Prop
  | .ok a => P a
  | .error h => h = .assertion ∨ h = .exit 1

theorem HaltsCleanly.bind {α β : Type} {P : α → Prop} {Q : β → Prop} {x : Except Halt α} {f : α → Except Halt β}
    (hx : HaltsCleanly P x) (hf : ∀ a, P a → HaltsCleanly Q (f a)) : HaltsCleanly Q (x >>= f) := by
  cases x with
  | ok a => exact hf a hx
  | error h => exact hx

theorem haltsCleanly_eventCallback (hb : b.Whole) (hevents : b.events ≠ []) (clientId : UInt32) {c : EndpointCall}
    (hc : c.reset.Distinct) : HaltsCleanly Broadcast.Whole (b.eventCallback clientId c) := by
  cases hb with
  | closed sent => exact absurd rfl hevents
  | opened fd r w p sent hne =>
    rw [Broadcast.eventCallback_opened hne clientId hc]
    split_ifs
    · exact Broadcast.whole_renewed hc
    · split
      · exact .opened fd r w p sent hne
      · split_ifs
        · exact Broadcast.whole_renewed hc
        · exact .opened fd r w _ _ hne
        · exact .inr rfl

theorem haltsCleanly_discovery (hb : b.Whole) (added : Bool) :
    HaltsCleanly (fun r => r.1.Whole) (b.discovery added) := by
  cases hb with
  | closed sent => exact .inl rfl
  | opened fd r w p sent hne =>
    rw [Broadcast.discovery_opened hne]
    exact .opened fd r w _ _ hne

/-- What holds between the events, as long as the daemon runs. -/
structure Discovering (delay : ℕ) (s : DiscoveryState) : Prop where
  whole : s.broadcast.Whole
  timeout_eq : s.timeout = min (activeDiscoveryInterval * 2 ^ s.rounds) passiveDiscoveryInterval
  onTime : s.clock.toNat ≤ s.firedAt.toNat + s.timeout + delay

theorem discovering_discoveryTimeout (hb : s.broadcast.Whole)
    (htimeout : s.timeout = min (activeDiscoveryInterval * 2 ^ s.rounds) passiveDiscoveryInterval)
    (now : Time) (timerAdded writeAdded : Bool) :
    HaltsCleanly (Discovering delay) (s.discoveryTimeout now timerAdded writeAdded) := by
  unfold DiscoveryState.discoveryTimeout
  cases timerAdded with
  | false => exact .inr rfl
  | true =>
    refine HaltsCleanly.bind (haltsCleanly_discovery hb writeAdded) ?_
    rintro ⟨b,ok⟩ hb
    cases ok with
    | false => exact .inr rfl
    | true =>
      refine ⟨hb,?_,by simp only; omega⟩
      by_cases hgw : s.daemon.gateways = []
      · simp [hgw,activeDiscoveryInterval,passiveDiscoveryInterval]
      · simp only [hgw,if_false,htimeout,activeDiscoveryInterval,passiveDiscoveryInterval,pow_succ]
        omega

theorem haltsCleanly_broadcastStep (hb : s.broadcast.Whole) {e : Event} {reset : SetupAnswers} {writeAdded : Bool}
    (he : s.Enabled (.daemon e reset writeAdded)) :
    HaltsCleanly Broadcast.Whole (s.broadcastStep e reset writeAdded) := by
  unfold DiscoveryState.broadcastStep
  split
  · obtain ⟨-,hreset,hread⟩ := he
    obtain ⟨ev,hev,-⟩ := hread rfl
    exact haltsCleanly_eventCallback hb (List.ne_nil_of_mem hev) _ hreset
  · split
    · exact HaltsCleanly.bind (haltsCleanly_discovery hb writeAdded) (fun _ h => h)
    · exact hb
  · split
    · refine HaltsCleanly.bind (haltsCleanly_discovery hb writeAdded) ?_
      rintro ⟨b,ok⟩ hb
      cases ok with
      | true => exact hb
      | false => exact .inr rfl
    · exact hb

theorem Discovering.step (h : Discovering delay s) {e : DiscoveryEvent}
    (he : (discoverySystem delay).enabled (.ok s) e) : HaltsCleanly (Discovering delay) (s.step e) := by
  obtain ⟨he,-,htime⟩ := he
  cases e with
  | timeout now timerAdded writeAdded => exact discovering_discoveryTimeout h.whole h.timeout_eq now _ _
  | endpoint call =>
    exact HaltsCleanly.bind (haltsCleanly_eventCallback h.whole he.2.1 _ he.1)
      (fun b hb => ⟨hb,h.timeout_eq,h.onTime⟩)
  | daemon e reset writeAdded =>
    exact HaltsCleanly.bind (haltsCleanly_broadcastStep h.whole he) (fun b hb => ⟨hb,h.timeout_eq,htime⟩)

theorem discovering_start (delay : ℕ) (clientId : UInt32) (now : Time) {answers : SetupAnswers}
    (ha : answers.Distinct) (timerAdded writeAdded : Bool) :
    HaltsCleanly (Discovering delay) (DiscoveryState.start clientId now answers timerAdded writeAdded) := by
  have hsetup : ({} : Broadcast).setup answers = _ := Broadcast.setup_closed ha
  rw [DiscoveryState.start,hsetup]
  have hwhole := @Broadcast.whole_renewed [] answers ha
  unfold Broadcast.renewed at hwhole
  rcases hhandles : answers.handles with _ | ⟨fd,r,w⟩
  · exact .inr rfl
  · rw [hhandles] at hwhole
    exact discovering_discoveryTimeout hwhole
      (by simp [activeDiscoveryInterval,passiveDiscoveryInterval]) now timerAdded writeAdded

/-- A daemon that was started with some answers to its calls. -/
theorem discovering_always {clientId : UInt32} {now : Time} {answers : SetupAnswers} (ha : answers.Distinct)
    {timerAdded writeAdded : Bool} {es : List DiscoveryEvent}
    (hl : (discoverySystem delay).Legal (DiscoveryState.start clientId now answers timerAdded writeAdded) es) :
    (discoverySystem delay).Always (HaltsCleanly (Discovering delay))
      (DiscoveryState.start clientId now answers timerAdded writeAdded) es := by
  refine hl.always (fun x e hx he => ?_) (discovering_start delay clientId now ha timerAdded writeAdded)
  cases x with
  | error h => exact he.elim
  | ok s => exact Discovering.step hx he

theorem discovering_exec {clientId : UInt32} {now : Time} {answers : SetupAnswers} (ha : answers.Distinct)
    {timerAdded writeAdded : Bool} {es : List DiscoveryEvent}
    (hl : (discoverySystem delay).Legal (DiscoveryState.start clientId now answers timerAdded writeAdded) es)
    (hs : (discoverySystem delay).exec (DiscoveryState.start clientId now answers timerAdded writeAdded) es = .ok s) :
    Discovering delay s := by
  have hlast := (discovering_always ha hl).last
  rw [hs] at hlast
  exact hlast

/-- Between any two events the endpoint holds a socket with both its events, the one for
reading pending, or nothing at all. No handle is lost or used after it was given back. -/
theorem endpoint_always_whole (delay : ℕ) (clientId : UInt32) (now : Time) (answers : SetupAnswers)
    (ha : answers.Distinct) (timerAdded writeAdded : Bool) (es : List DiscoveryEvent)
    (hl : (discoverySystem delay).Legal (DiscoveryState.start clientId now answers timerAdded writeAdded) es) :
    (discoverySystem delay).Always (HaltsCleanly fun s => s.broadcast.Whole)
      (DiscoveryState.start clientId now answers timerAdded writeAdded) es := by
  refine (discovering_always ha hl).mono (fun x hx => ?_)
  cases x with
  | error h => exact hx
  | ok s => exact hx.whole

theorem endpoint_always_whole_lost :
    (discoverySystem 0).Legal (DiscoveryState.start 7 0 runningSetup true true) lostEndpointRun ∧
    (discoverySystem 0).Always (HaltsCleanly fun s => s.broadcast.Whole)
      (DiscoveryState.start 7 0 runningSetup true true) lostEndpointRun := by
  have hl : (discoverySystem 0).Legal (DiscoveryState.start 7 0 runningSetup true true) lostEndpointRun := by
    decide +kernel
  exact ⟨hl,endpoint_always_whole 0 7 0 runningSetup (by decide) true true lostEndpointRun hl⟩

/-- The pauses between discoveries double from two seconds on while there are gateways, and
no more than ten seconds pass without one, apart from the delay of the timer. -/
theorem discovery_paced (delay : ℕ) (clientId : UInt32) (now : Time) (answers : SetupAnswers)
    (ha : answers.Distinct) (timerAdded writeAdded : Bool) (es : List DiscoveryEvent)
    (hl : (discoverySystem delay).Legal (DiscoveryState.start clientId now answers timerAdded writeAdded) es) :
    (discoverySystem delay).Always (fun x => ∀ s, x = .ok s →
        s.timeout = min (2000 * 2 ^ s.rounds) 10000 ∧ s.clock.toNat ≤ s.firedAt.toNat + 10000 + delay)
      (DiscoveryState.start clientId now answers timerAdded writeAdded) es := by
  refine (discovering_always ha hl).mono (fun x hx s hs => ?_)
  subst hs
  have htimeout : s.timeout = min (2000 * 2 ^ s.rounds) 10000 := hx.timeout_eq
  have honTime := hx.onTime
  exact ⟨htimeout,by omega⟩

theorem discovery_paced_lost :
    (discoverySystem 0).Legal (DiscoveryState.start 7 0 runningSetup true true) lostEndpointRun ∧
    (discoverySystem 0).Always (fun x => ∀ s, x = .ok s →
        s.timeout = min (2000 * 2 ^ s.rounds) 10000 ∧ s.clock.toNat ≤ s.firedAt.toNat + 10000 + 0)
      (DiscoveryState.start 7 0 runningSetup true true) lostEndpointRun := by
  have hl : (discoverySystem 0).Legal (DiscoveryState.start 7 0 runningSetup true true) lostEndpointRun := by
    decide +kernel
  exact ⟨hl,discovery_paced 0 7 0 runningSetup (by decide) true true lostEndpointRun hl⟩

/-- A call for writing sends a discovery packet on every interface that takes one, and waits
no longer for room. If no packet left the endpoint is replaced, and the discovery is not
tried again before the next one. -/
theorem discovery_packets_sent (delay : ℕ) (clientId : UInt32) (now : Time) (answers : SetupAnswers)
    (ha : answers.Distinct) (timerAdded writeAdded : Bool) (es : List DiscoveryEvent) (a : WriteAnswers)
    (reset : SetupAnswers)
    (hl : (discoverySystem delay).Legal (DiscoveryState.start clientId now answers timerAdded writeAdded)
      (es ++ [.endpoint ⟨false,none,some a,reset⟩])) (s : DiscoveryState)
    (hs : (discoverySystem delay).exec (DiscoveryState.start clientId now answers timerAdded writeAdded) es = .ok s)
    (hdeleted : a.deleted) :
    ∃ b, s.step (.endpoint ⟨false,none,some a,reset⟩) = .ok { s with broadcast := b } ∧
      b.sent = s.broadcast.sent ++ a.interfaces.transmissions (Broadcast.discoveryPacket s.daemon.clientId) ∧
      ¬ b.WritePending ∧
      (a.interfaces.transmissions (Broadcast.discoveryPacket s.daemon.clientId) ≠ [] →
        b.endpoint = s.broadcast.endpoint) ∧
      (a.interfaces.transmissions (Broadcast.discoveryPacket s.daemon.clientId) = [] →
        b = .renewed s.broadcast.sent reset) := by
  obtain ⟨hes,he,-⟩ := System.legal_append.mp hl
  have hwhole := (discovering_exec ha hes hs).whole
  rw [hs] at he
  obtain ⟨⟨hreset,hevents,-,-⟩,-,-⟩ := he
  simp only [DiscoveryState.step]
  generalize s.broadcast = b at hwhole hevents
  generalize s.daemon.clientId = source
  cases hwhole with
  | closed sent => exact absurd rfl hevents
  | opened fd r w p sent hne =>
    rw [Broadcast.eventCallback_opened hne source hreset]
    by_cases hnone : a.interfaces.transmissions (Broadcast.discoveryPacket source) = []
    · refine ⟨.renewed sent reset,by simp [hnone,bind,Except.bind,pure,Except.pure],?_,
        Broadcast.not_writePending_renewed,fun h => absurd hnone h,fun _ => rfl⟩
      rw [hnone,List.append_nil]
      unfold Broadcast.renewed
      split <;> rfl
    · refine ⟨.opened fd r w false (sent ++ a.interfaces.transmissions (Broadcast.discoveryPacket source)),
        by simp [hnone,hdeleted,bind,Except.bind,pure,Except.pure],rfl,by simp,fun _ => rfl,fun h => absurd h hnone⟩

/-- The second interface takes the packet, after the first one had no broadcast address. -/
theorem discovery_packets_sent_start :
    ∃ s : DiscoveryState, ∃ b, DiscoveryState.start 7 0 runningSetup true true = .ok s ∧
      s.step (.endpoint ⟨false,none,some ⟨.listed [(⟨none,true,true⟩,none),
        (⟨some (.inet,0xc0a800ff),true,true⟩,some 36)],true⟩,runningSetup⟩) = .ok { s with broadcast := b } ∧
      b.sent.map (·.addr) = [0xc0a800ff] ∧ ¬ b.WritePending := by
  obtain ⟨b,hstep,hsent,hpending,-⟩ := discovery_packets_sent 0 7 0 runningSetup (by decide) true true []
    ⟨.listed [(⟨none,true,true⟩,none),(⟨some (.inet,0xc0a800ff),true,true⟩,some 36)],true⟩ runningSetup
    (by decide +kernel) _ rfl rfl
  refine ⟨_,b,rfl,hstep,?_,hpending⟩
  rw [hsent]
  rfl

end Endpoint

section Lost
variable {delay : ℕ} {s s' : DiscoveryState}

/-- An endpoint that is closed is used only to start a discovery. -/
theorem step_closed {sent : List Transmission} (hb : s.broadcast = .closed sent) {e : DiscoveryEvent}
    (he : (discoverySystem delay).enabled (.ok s) e) (hs : s.step e = .ok s') :
    e.isTimeout = false ∧ s'.broadcast = .closed sent ∧ s'.firedAt = s.firedAt := by
  obtain ⟨he,-,-⟩ := he
  cases e with
  | timeout now timerAdded writeAdded =>
    simp only [DiscoveryState.step,DiscoveryState.discoveryTimeout,hb] at hs
    cases timerAdded <;> cases hs
  | endpoint call => exact absurd (by rw [hb]; rfl) he.2.1
  | daemon e reset writeAdded =>
    have hsame : s.broadcastStep e reset writeAdded = .ok s.broadcast ∨
        s.broadcastStep e reset writeAdded = .error .assertion := by
      unfold DiscoveryState.broadcastStep
      split
      · exact absurd (hb ▸ he.2.2 rfl) Broadcast.not_readPending_closed
      · split
        · exact .inr (by rw [hb]; rfl)
        · exact .inl rfl
      · split
        · exact .inr (by rw [hb]; rfl)
        · exact .inl rfl
    simp only [DiscoveryState.step] at hs
    rcases hsame with hsame | hsame <;> rw [hsame] at hs
    · cases hs
      exact ⟨rfl,hb,rfl⟩
    · cases hs

theorem exec_error (h : Halt) (es : List DiscoveryEvent) : (discoverySystem delay).exec (.error h) es = .error h := by
  induction es with
  | nil => rfl
  | cons e es ih => exact ih

theorem exec_closed {sent : List Transmission} (hb : s.broadcast = .closed sent) {es : List DiscoveryEvent}
    (hl : (discoverySystem delay).Legal (.ok s) es) (hs : (discoverySystem delay).exec (.ok s) es = .ok s') :
    (∀ e ∈ es, e.isTimeout = false) ∧ s'.broadcast = .closed sent ∧ s'.firedAt = s.firedAt := by
  induction es generalizing s with
  | nil =>
    cases hs
    exact ⟨fun _ h => (List.not_mem_nil h).elim,hb,rfl⟩
  | cons e es ih =>
    obtain ⟨he,hl⟩ := hl
    have hnext : (discoverySystem delay).step (.ok s) e = s.step e := rfl
    rw [System.exec_cons,hnext] at hs
    rw [hnext] at hl
    cases hstep : s.step e with
    | error h =>
      rw [hstep,exec_error] at hs
      cases hs
    | ok t =>
      rw [hstep] at hs hl
      obtain ⟨hkind,hbt,hfired⟩ := step_closed hb he hstep
      obtain ⟨hrest,hb',hfired'⟩ := ih hbt hl hs
      exact ⟨List.forall_mem_cons.mpr ⟨hkind,hrest⟩,hb',hfired'.trans hfired⟩

/-- An endpoint that could not be set up again stays closed. The daemon stops when it needs
the endpoint next, which is when the timer fires, if not before. -/
theorem lost_endpoint_stops_daemon (delay : ℕ) (clientId : UInt32) (now : Time) (answers : SetupAnswers)
    (ha : answers.Distinct) (timerAdded writeAdded : Bool) (es es' : List DiscoveryEvent)
    (hl : (discoverySystem delay).Legal (DiscoveryState.start clientId now answers timerAdded writeAdded)
      (es ++ es')) (s s' : DiscoveryState)
    (hs : (discoverySystem delay).exec (DiscoveryState.start clientId now answers timerAdded writeAdded) es = .ok s)
    (hlost : s.broadcast.endpoint.socket = none)
    (hs' : (discoverySystem delay).exec (DiscoveryState.start clientId now answers timerAdded writeAdded)
      (es ++ es') = .ok s') :
    (∀ e ∈ es', e.isTimeout = false) ∧ s'.broadcast = s.broadcast ∧
      s'.clock.toNat ≤ s.firedAt.toNat + 10000 + delay := by
  obtain ⟨hes,hes'⟩ := System.legal_append.mp hl
  have hwhole := (discovering_exec ha hes hs).whole
  have hend := discovering_exec ha hl hs'
  rw [System.exec_append,hs] at hs'
  rw [hs] at hes'
  have hclosed : ∃ sent, s.broadcast = .closed sent := by
    generalize s.broadcast = b at hwhole hlost
    cases hwhole with
    | closed sent => exact ⟨sent,rfl⟩
    | opened fd r w p sent hne => cases hlost
  obtain ⟨sent,hb⟩ := hclosed
  obtain ⟨hkinds,hb',hfired⟩ := exec_closed hb hes' hs'
  have htimeout : s'.timeout ≤ 10000 := hend.timeout_eq ▸ min_le_right _ _
  have honTime := hend.onTime
  rw [hfired] at honTime
  exact ⟨hkinds,hb'.trans hb.symm,by omega⟩

theorem lost_endpoint_stops_daemon_run :
    ∃ s s' : DiscoveryState, ∃ e, e = .daemon (.watchdog 2500) runningSetup true ∧
      (discoverySystem 0).exec (DiscoveryState.start 7 0 runningSetup true true) lostEndpointRun = .ok s ∧
      (discoverySystem 0).exec (DiscoveryState.start 7 0 runningSetup true true) (lostEndpointRun ++ [e]) = .ok s' ∧
      s'.broadcast = s.broadcast ∧ s'.clock.toNat ≤ s.firedAt.toNat + 10000 + 0 := by
  have h := lost_endpoint_stops_daemon 0 7 0 runningSetup (by decide) true true lostEndpointRun
    [.daemon (.watchdog 2500) runningSetup true] (by decide +kernel) _ _ rfl rfl rfl
  exact ⟨_,_,_,rfl,rfl,rfl,h.2⟩

end Lost

section Survival
variable {delay : ℕ} {s : DiscoveryState}

/-- The calls made for an event succeed. -/
def DiscoveryEvent.Succeeds : DiscoveryEvent → Prop
  | timeout _ timerAdded writeAdded => timerAdded ∧ writeAdded
  | endpoint call => call.reset.handles.isSome ∧ ∀ a ∈ call.write, a.deleted
  | daemon _ reset writeAdded => reset.handles.isSome ∧ writeAdded

/-- The daemon has not stopped. -/
def Continues {α : Type} (P : α → Prop) (x : Except Halt α) : Prop := ∃ a, x = .ok a ∧ P a

theorem Continues.bind {α β : Type} {P : α → Prop} {Q : β → Prop} {x : Except Halt α} {f : α → Except Halt β}
    (hx : Continues P x) (hf : ∀ a, P a → Continues Q (f a)) : Continues Q (x >>= f) := by
  obtain ⟨a,rfl,ha⟩ := hx
  exact hf a ha

theorem continues_eventCallback {b : Broadcast} (hb : b.Usable) (clientId : UInt32) {c : EndpointCall}
    (hc : c.reset.Distinct) (hhandles : c.reset.handles.isSome) (hdeleted : ∀ a ∈ c.write, a.deleted) :
    Continues Broadcast.Usable (b.eventCallback clientId c) := by
  obtain ⟨fd,r,w,p,sent,rfl,hne⟩ := hb
  have hrenewed := @Broadcast.usable_renewed sent c.reset hc hhandles
  rw [Broadcast.eventCallback_opened hne clientId hc]
  split_ifs
  · exact ⟨_,rfl,hrenewed⟩
  · split
    · exact ⟨_,rfl,fd,r,w,p,sent,rfl,hne⟩
    · rename_i a hwrite
      rw [if_pos (hdeleted a hwrite)]
      split_ifs
      · exact ⟨_,rfl,hrenewed⟩
      · exact ⟨_,rfl,fd,r,w,false,_,rfl,hne⟩

theorem continues_discovery {b : Broadcast} (hb : b.Usable) (added : Bool) :
    Continues (fun x => x.1.Usable ∧ x.2 = added) (b.discovery added) := by
  obtain ⟨fd,r,w,p,sent,rfl,hne⟩ := hb
  exact ⟨_,Broadcast.discovery_opened hne added,⟨fd,r,w,_,sent,rfl,hne⟩,rfl⟩

theorem continues_discoveryTimeout (hb : s.broadcast.Usable) (now : Time) :
    Continues (fun s => s.broadcast.Usable) (s.discoveryTimeout now true true) := by
  refine Continues.bind (continues_discovery hb true) ?_
  rintro ⟨b,ok⟩ ⟨hb,rfl⟩
  exact ⟨_,rfl,hb⟩

/-- Calls that succeed leave an endpoint that can be used. -/
theorem continues_step (hb : s.broadcast.Usable) {e : DiscoveryEvent}
    (he : (discoverySystem delay).enabled (.ok s) e) (hok : e.Succeeds) :
    Continues (fun s => s.broadcast.Usable) (s.step e) := by
  obtain ⟨he,-,-⟩ := he
  cases e with
  | timeout now timerAdded writeAdded =>
    obtain ⟨rfl,rfl⟩ := hok
    exact continues_discoveryTimeout hb now
  | endpoint call =>
    exact Continues.bind (continues_eventCallback hb _ he.1 hok.1 hok.2) (fun _ hb => ⟨_,rfl,hb⟩)
  | daemon e reset writeAdded =>
    have hbroadcast : Continues Broadcast.Usable (s.broadcastStep e reset writeAdded) := by
      unfold DiscoveryState.broadcastStep
      split
      · exact continues_eventCallback hb _ he.2.1 hok.1 (fun _ h => by cases h)
      · split
        · exact Continues.bind (continues_discovery hb writeAdded) (fun _ h => ⟨_,rfl,h.1⟩)
        · exact ⟨_,rfl,hb⟩
      · split
        · refine Continues.bind (continues_discovery hb writeAdded) ?_
          rintro ⟨b,ok⟩ ⟨hb,hadded⟩
          rw [show ok = true from hadded.trans hok.2]
          exact ⟨_,rfl,hb⟩
        · exact ⟨_,rfl,hb⟩
    exact Continues.bind hbroadcast (fun _ hb => ⟨_,rfl,hb⟩)

theorem continues_start (clientId : UInt32) (now : Time) {answers : SetupAnswers} (ha : answers.Distinct)
    (hstart : answers.handles.isSome) :
    Continues (fun s => s.broadcast.Usable) (DiscoveryState.start clientId now answers true true) := by
  have husable := @Broadcast.usable_renewed [] answers ha hstart
  obtain ⟨⟨fd,r,w⟩,hh⟩ := Option.isSome_iff_exists.mp hstart
  have hsetup : ({} : Broadcast).setup answers = _ := Broadcast.setup_closed ha
  rw [hh] at hsetup
  rw [Broadcast.renewed,hh] at husable
  rw [DiscoveryState.start,hsetup]
  exact continues_discoveryTimeout husable now

theorem continues_always {x : Except Halt DiscoveryState} (hx : Continues (fun s => s.broadcast.Usable) x)
    {es : List DiscoveryEvent} (hl : (discoverySystem delay).Legal x es) (hok : ∀ e ∈ es, e.Succeeds) :
    (discoverySystem delay).Always (Continues fun s => s.broadcast.Usable) x es := by
  induction es generalizing x with
  | nil => exact System.always_nil.mpr hx
  | cons e es ih =>
    obtain ⟨hok,hrest⟩ := List.forall_mem_cons.mp hok
    obtain ⟨s,rfl,hb⟩ := hx
    exact System.always_cons.mpr ⟨⟨s,rfl,hb⟩,ih (continues_step hb hl.1 hok) hl.2 hrest⟩

/-- A daemon whose endpoint can be set up again whenever it is lost is not stopped by its
discovery, and its endpoint always waits for packets. -/
theorem discovery_survives (delay : ℕ) (clientId : UInt32) (now : Time) (answers : SetupAnswers)
    (ha : answers.Distinct) (hstart : answers.handles.isSome) (es : List DiscoveryEvent)
    (hl : (discoverySystem delay).Legal (DiscoveryState.start clientId now answers true true) es)
    (hok : ∀ e ∈ es, e.Succeeds) :
    (discoverySystem delay).Always (Continues fun s => s.broadcast.ReadPending)
      (DiscoveryState.start clientId now answers true true) es := by
  refine (continues_always (continues_start clientId now ha hstart) hl hok).mono (fun x hx => ?_)
  obtain ⟨s,rfl,fd,r,w,p,sent,hb,-⟩ := hx
  exact ⟨s,rfl,by simp [hb]⟩

/-- No interface takes the second packet, and the endpoint is set up again. -/
theorem discovery_survives_reset :
    (discoverySystem 0).Always (Continues fun s => s.broadcast.ReadPending)
      (DiscoveryState.start 7 0 runningSetup true true)
      (lostEndpointRun.take 2 ++ [.endpoint ⟨false,none,some ⟨.listed [],true⟩,runningSetup⟩]) := by
  refine discovery_survives 0 7 0 runningSetup (by decide) rfl _ (by decide +kernel) (fun e he => ?_)
  simp only [lostEndpointRun,List.take_succ_cons,List.take_zero,List.cons_append,List.nil_append,List.mem_cons,
    List.not_mem_nil,or_false] at he
  rcases he with rfl | rfl | rfl
  · exact ⟨rfl,fun a ha => by cases ha; rfl⟩
  · exact ⟨rfl,rfl⟩
  · exact ⟨rfl,fun a ha => by cases ha; rfl⟩

end Survival

end Lightsd.Core
