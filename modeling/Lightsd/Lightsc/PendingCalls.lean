import Lightsd.Library.Runs

/-! # The calls of the Python client

A pipeline of calls is written to the connection and registered once the writer has
drained. A listener takes the responses off the connection in batches and looks their calls
up among the registered ones, and a timer per registered call answers for a server that does
not. Between any two steps at which a coroutine waits all others may run.
-/
namespace Lightsd.Lightsc

/-- What the server says about a call. -/
inductive Body (ρ ε : Type*) where
  | result (r : ρ)
  | error (message : ε)
  deriving DecidableEq

structure Response (κ ρ ε : Type*) where
  id : κ
  body : Body ρ ε
  deriving DecidableEq

/-- What the future of a call can be set to. -/
inductive Answer (ρ ε : Type*) where
  | body (b : Body ρ ε)
  | timeoutError
  deriving DecidableEq

/-- The written pipelines that are not drained, the registered calls and their timers, the
futures that have been set, and whether the listener is still there. The ids of all calls,
the responses the listener took and the timers that fired are a record of the past, as is
whether a step has raised. -/
structure Client (κ ρ ε : Type*) where
  draining : List (List κ) := []
  pendingCalls : List κ := []
  timers : List κ := []
  futures : List (κ × Answer ρ ε) := []
  listening : Bool := true
  created : List κ := []
  taken : List (Response κ ρ ε) := []
  fired : List κ := []
  raised : Bool := false

variable {κ ρ ε : Type*} [DecidableEq κ]

namespace Client

def answered (s : Client κ ρ ε) : List κ := s.futures.map Prod.fst

/-- Setting a future twice is an error. -/
def setFuture (s : Client κ ρ ε) (id : κ) (a : Answer ρ ε) : Client κ ρ ε × Bool :=
  if id ∈ s.answered then (s,true) else ({ s with futures := s.futures ++ [(id,a)] },false)

def cancelTimer (s : Client κ ρ ε) (id : κ) : Client κ ρ ε := { s with timers := s.timers.erase id }

/-- Taking a call out of the registered ones is an error if it is not there. -/
def popCall (s : Client κ ρ ε) (id : κ) : Client κ ρ ε × Bool :=
  if id ∈ s.pendingCalls then ({ s with pendingCalls := s.pendingCalls.erase id },false) else (s,true)

/-- The state after a result or, without one, a timeout, and whether an error was raised. -/
def handleResponse (s : Client κ ρ ε) (id : κ) (response : Option ρ) : Client κ ρ ε × Bool :=
  match s.popCall id with
  | (s,true) => (s,true)
  | (s,false) =>
    match response with
    | none => s.setFuture id .timeoutError
    | some r => (s.cancelTimer id).setFuture id (.body (.result r))

def handleError (s : Client κ ρ ε) (id : κ) (message : ε) : Client κ ρ ε × Bool :=
  match s.popCall id with
  | (s,true) => (s,true)
  | (s,false) =>
    match s.setFuture id (.body (.error message)) with
    | (s,true) => (s,true)
    | (s,false) => (s.cancelTimer id,false)

/-- One response of a batch. -/
def listenOne (s : Client κ ρ ε) (r : Response κ ρ ε) : Client κ ρ ε × Bool :=
  match r.body with
  | .result x => s.handleResponse r.id (some x)
  | .error message => s.handleError r.id message

def take (s : Client κ ρ ε) (r : Response κ ρ ε) : Client κ ρ ε :=
  match s.listenOne r with
  | (s,raised) =>
    { s with taken := s.taken ++ [r], listening := s.listening && !raised, raised := s.raised || raised }

/-- An error ends the listener in the middle of the batch. -/
def listen (s : Client κ ρ ε) : List (Response κ ρ ε) → Client κ ρ ε
  | [] => s
  | r :: batch => if (s.take r).listening then listen (s.take r) batch else s.take r

def write (s : Client κ ρ ε) (pipeline : List κ) : Client κ ρ ε :=
  { s with draining := s.draining ++ [pipeline], created := s.created ++ pipeline }

def registerOne (s : Client κ ρ ε) (id : κ) : Client κ ρ ε :=
  { s with timers := id :: s.timers, pendingCalls := s.pendingCalls.insert id }

def register (s : Client κ ρ ε) (pipeline : List κ) : Client κ ρ ε :=
  pipeline.foldl registerOne { s with draining := s.draining.erase pipeline }

/-- A timer that fires is no longer there to be cancelled. -/
def timeout (s : Client κ ρ ε) (id : κ) : Client κ ρ ε :=
  match (s.cancelTimer id).handleResponse id none with
  | (s,raised) => { s with fired := s.fired ++ [id], raised := s.raised || raised }

end Client

inductive Event (κ ρ ε : Type*) where
  | write (pipeline : List κ)
  | register (pipeline : List κ)
  | listen (batch : List (Response κ ρ ε))
  | timeout (id : κ)

/-- The ids of new calls are random and differ from all earlier ones. -/
def Event.enabled (s : Client κ ρ ε) : Event κ ρ ε → Prop
  | .write pipeline => pipeline ≠ [] ∧ pipeline.Nodup ∧ ∀ id ∈ pipeline, id ∉ s.created
  | .register pipeline => pipeline ∈ s.draining
  | .listen _ => s.listening = true
  | .timeout id => id ∈ s.timers

instance (s : Client κ ρ ε) : ∀ e : Event κ ρ ε, Decidable (e.enabled s)
  | .write pipeline =>
    inferInstanceAs (Decidable (pipeline ≠ [] ∧ pipeline.Nodup ∧ ∀ id ∈ pipeline, id ∉ s.created))
  | .register pipeline => inferInstanceAs (Decidable (pipeline ∈ s.draining))
  | .listen _ => inferInstanceAs (Decidable (s.listening = true))
  | .timeout id => inferInstanceAs (Decidable (id ∈ s.timers))

def Event.apply (s : Client κ ρ ε) : Event κ ρ ε → Client κ ρ ε
  | .write pipeline => s.write pipeline
  | .register pipeline => s.register pipeline
  | .listen batch => s.listen batch
  | .timeout id => s.timeout id

def clientSystem (κ ρ ε : Type*) [DecidableEq κ] : Runs.System (Client κ ρ ε) (Event κ ρ ε) where
  enabled s e := e.enabled s
  step := Event.apply

instance (s : Client κ ρ ε) (e : Event κ ρ ε) : Decidable ((clientSystem κ ρ ε).enabled s e) :=
  inferInstanceAs (Decidable (e.enabled s))

/-- Futures are set at most once, to a response of the call that was taken or to a timeout
that fired; a call whose response was taken or whose timer fired has its future set; no step
has raised, and the listener is still there. -/
structure AnsweredOnce (s : Client κ ρ ε) : Prop where
  once : s.answered.Nodup
  own : ∀ id b, (id,.body b) ∈ s.futures → ⟨id,b⟩ ∈ s.taken
  late : ∀ id, (id,.timeoutError) ∈ s.futures → id ∈ s.fired
  taken : ∀ r ∈ s.taken, r.id ∈ s.created → r.id ∈ s.answered
  fired : ∀ id ∈ s.fired, id ∈ s.answered
  quiet : s.raised = false
  listening : s.listening = true

/-- Every call waits for its pipeline to drain, is registered with its timer running, or has
its future set, and no two of these. -/
structure Tracked (s : Client κ ρ ε) : Prop where
  calls : (s.draining.flatten ++ s.pendingCalls ++ s.answered).Perm s.created
  distinct : s.created.Nodup
  timers : s.timers = s.pendingCalls
  own : ∀ id b, (id,.body b) ∈ s.futures → ⟨id,b⟩ ∈ s.taken
  late : ∀ id, (id,.timeoutError) ∈ s.futures → id ∈ s.fired
  taken : ∀ r ∈ s.taken, r.id ∈ s.answered
  fired : ∀ id ∈ s.fired, id ∈ s.answered
  quiet : s.raised = false
  listening : s.listening = true

/-- Each response of a batch is for a call that is registered when its turn comes. -/
def Client.Expects (s : Client κ ρ ε) : List (Response κ ρ ε) → Prop
  | [] => True
  | r :: batch => r.id ∈ s.pendingCalls ∧ (s.take r).Expects batch

instance Client.decidableExpects : ∀ (s : Client κ ρ ε) batch, Decidable (s.Expects batch)
  | _, [] => isTrue trivial
  | s, r :: batch =>
    have := decidableExpects (s.take r) batch
    inferInstanceAs (Decidable (_ ∧ _))

def Event.Expected (s : Client κ ρ ε) : Event κ ρ ε → Prop
  | .listen batch => s.Expects batch
  | _ => True

instance (s : Client κ ρ ε) : ∀ e : Event κ ρ ε, Decidable (e.Expected s)
  | .listen batch => inferInstanceAs (Decidable (s.Expects batch))
  | .write _ | .register _ | .timeout _ => isTrue trivial

namespace Client
variable {s : Client κ ρ ε}

/-- A registered call gets its answer. -/
def settle (s : Client κ ρ ε) (id : κ) (a : Answer ρ ε) : Client κ ρ ε :=
  { s with
    pendingCalls := s.pendingCalls.erase id
    timers := s.timers.erase id
    futures := s.futures ++ [(id,a)] }

theorem answered_settle (s : Client κ ρ ε) (id : κ) (a : Answer ρ ε) :
    (s.settle id a).answered = s.answered ++ [id] := by
  simp [answered,settle]

omit [DecidableEq κ] in
theorem unanswered (h : Tracked s) {id : κ} (hid : id ∈ s.pendingCalls) : id ∉ s.answered := by
  have hnodup := h.calls.nodup_iff.mpr h.distinct
  rw [List.append_assoc] at hnodup
  exact fun hdone => List.disjoint_of_nodup_append hnodup.of_append_right hid hdone

theorem setFuture_free {id : κ} (h : id ∉ s.answered) (a : Answer ρ ε) :
    s.setFuture id a = ({ s with futures := s.futures ++ [(id,a)] },false) := if_neg h

theorem popCall_pending {id : κ} (hid : id ∈ s.pendingCalls) :
    s.popCall id = ({ s with pendingCalls := s.pendingCalls.erase id },false) := by
  simp [popCall,hid]

theorem listenOne_pending (h : Tracked s) {r : Response κ ρ ε} (hr : r.id ∈ s.pendingCalls) :
    s.listenOne r = (s.settle r.id (.body r.body),false) := by
  have hfree := unanswered h hr
  unfold listenOne
  cases r.body with
  | result x =>
    simp only [handleResponse,popCall_pending hr]
    refine setFuture_free ?_ _
    exact hfree
  | error message =>
    have hset := setFuture_free (s := { s with pendingCalls := s.pendingCalls.erase r.id }) hfree
      (.body (.error message))
    simp only [handleError,popCall_pending hr,hset]
    rfl

theorem listenOne_unknown {r : Response κ ρ ε} (hr : r.id ∉ s.pendingCalls) : s.listenOne r = (s,true) := by
  have hpop : s.popCall r.id = (s,true) := by simp [popCall,hr]
  unfold listenOne
  cases r.body with
  | result x => simp only [handleResponse,hpop]
  | error message => simp only [handleError,hpop]

theorem calls_settle (h : Tracked s) {id : κ} (hid : id ∈ s.pendingCalls) (a : Answer ρ ε) :
    ((s.settle id a).draining.flatten ++ (s.settle id a).pendingCalls ++ (s.settle id a).answered).Perm
      (s.settle id a).created := by
  rw [answered_settle]
  refine List.Perm.trans ?_ h.calls
  refine List.perm_iff_count.mpr (fun x => ?_)
  have hcount := (List.perm_iff_count.mp (List.perm_cons_erase hid)) x
  simp only [settle,List.count_append,List.count_cons,List.count_nil] at hcount ⊢
  omega

theorem tracked_take (h : Tracked s) {r : Response κ ρ ε} (hr : r.id ∈ s.pendingCalls) :
    Tracked (s.take r) := by
  have hcalls := calls_settle h hr (.body r.body)
  have hanswered := answered_settle s r.id (.body r.body)
  unfold take
  rw [listenOne_pending h hr]
  refine ⟨hcalls,h.distinct,congrArg (List.erase · r.id) h.timers,?_,?_,?_,?_,?_,?_⟩
  · intro id b hb
    rcases List.mem_append.mp hb with hold | hnew
    · exact List.mem_append_left _ (h.own id b hold)
    · cases List.mem_singleton.mp hnew
      exact List.mem_append_right _ (List.mem_singleton_self _)
  · intro id hid
    rcases List.mem_append.mp hid with hold | hnew
    · exact h.late id hold
    · cases List.mem_singleton.mp hnew
  · intro r' hr'
    change r'.id ∈ (s.settle r.id (.body r.body)).answered
    rw [hanswered]
    rcases List.mem_append.mp hr' with hold | hnew
    · exact List.mem_append_left _ (h.taken r' hold)
    · cases List.mem_singleton.mp hnew
      exact List.mem_append_right _ (List.mem_singleton_self _)
  · intro id hid
    change id ∈ (s.settle r.id (.body r.body)).answered
    rw [hanswered]
    exact List.mem_append_left _ (h.fired id hid)
  · simpa [settle] using h.quiet
  · simpa [settle] using h.listening

theorem tracked_listen (h : Tracked s) {batch : List (Response κ ρ ε)} (hbatch : s.Expects batch) :
    Tracked (s.listen batch) := by
  induction batch generalizing s with
  | nil => exact h
  | cons r batch ih =>
    have htake := tracked_take h hbatch.1
    unfold listen
    rw [if_pos htake.listening]
    exact ih htake hbatch.2

/-- A response that is not expected ends the listener. -/
theorem raised_listen (h : Tracked s) {batch : List (Response κ ρ ε)} (hbatch : ¬ s.Expects batch) :
    (s.listen batch).raised = true := by
  induction batch generalizing s with
  | nil => exact absurd trivial hbatch
  | cons r batch ih =>
    unfold listen
    by_cases hr : r.id ∈ s.pendingCalls
    · have htake := tracked_take h hr
      rw [if_pos htake.listening]
      exact ih htake (fun hrest => hbatch ⟨hr,hrest⟩)
    · have hraised : (s.take r).raised = true ∧ (s.take r).listening = false := by
        simp [take,listenOne_unknown hr]
      simpa [hraised.2] using hraised.1

theorem tracked_write (h : Tracked s) {pipeline : List κ} (hnodup : pipeline.Nodup)
    (hnew : ∀ id ∈ pipeline, id ∉ s.created) : Tracked (s.write pipeline) := by
  refine ⟨?_,?_,h.timers,h.own,h.late,h.taken,h.fired,h.quiet,h.listening⟩
  · refine List.perm_iff_count.mpr (fun x => ?_)
    have hcount := List.perm_iff_count.mp h.calls x
    simp only [write,answered,List.flatten_append,List.flatten_cons,List.flatten_nil,List.append_nil,
      List.count_append] at hcount ⊢
    omega
  · exact List.nodup_append.mpr ⟨h.distinct,hnodup,fun x hx y hy hxy => hnew y hy (hxy ▸ hx)⟩

/-- The loop that registers the calls of a pipeline. -/
theorem registerOne_foldl {pipeline : List κ} (hnodup : pipeline.Nodup)
    (hnew : ∀ id ∈ pipeline, id ∉ s.pendingCalls) :
    pipeline.foldl registerOne s = { s with
      timers := pipeline.reverse ++ s.timers
      pendingCalls := pipeline.reverse ++ s.pendingCalls } := by
  induction pipeline generalizing s with
  | nil => rfl
  | cons id pipeline ih =>
    obtain ⟨hid,hrest⟩ := List.nodup_cons.mp hnodup
    have hfresh : id ∉ s.pendingCalls := hnew id List.mem_cons_self
    have hone : s.registerOne id = { s with
        timers := id :: s.timers
        pendingCalls := id :: s.pendingCalls } := by
      simp [registerOne,List.insert_of_not_mem hfresh]
    rw [List.foldl_cons,hone,ih hrest]
    · simp
    · intro x hx hmem
      rcases List.mem_cons.mp hmem with rfl | hmem
      · exact hid hx
      · exact hnew x (List.mem_cons_of_mem _ hx) hmem

theorem tracked_register (h : Tracked s) {pipeline : List κ} (hmem : pipeline ∈ s.draining) :
    Tracked (s.register pipeline) := by
  have hperm : s.draining.flatten.Perm (pipeline ++ (s.draining.erase pipeline).flatten) :=
    (List.perm_cons_erase hmem).flatten
  have hnodup := h.calls.nodup_iff.mpr h.distinct
  rw [List.append_assoc] at hnodup
  have hflat := hperm.nodup_iff.mp hnodup.of_append_left
  have hnew : ∀ id ∈ pipeline, id ∉ s.pendingCalls := by
    intro id hid hpending
    exact List.disjoint_of_nodup_append hnodup (hperm.mem_iff.mpr (List.mem_append_left _ hid))
      (List.mem_append_left _ hpending)
  unfold register
  rw [registerOne_foldl (s := { s with draining := s.draining.erase pipeline }) hflat.of_append_left hnew]
  refine ⟨?_,h.distinct,congrArg (pipeline.reverse ++ ·) h.timers,h.own,h.late,h.taken,h.fired,h.quiet,
    h.listening⟩
  refine List.perm_iff_count.mpr (fun x => ?_)
  have hcount := List.perm_iff_count.mp h.calls x
  have hflatten := List.perm_iff_count.mp hperm x
  simp only [answered,List.count_append,List.count_reverse] at hcount hflatten ⊢
  omega

theorem tracked_timeout (h : Tracked s) {id : κ} (hid : id ∈ s.timers) : Tracked (s.timeout id) := by
  have hpending : id ∈ s.pendingCalls := h.timers ▸ hid
  have hfree := unanswered h hpending
  have hpop : (s.cancelTimer id).popCall id =
      ({ s with timers := s.timers.erase id, pendingCalls := s.pendingCalls.erase id },false) :=
    popCall_pending (s := s.cancelTimer id) hpending
  have hcalls := calls_settle h hpending .timeoutError
  have hanswered := answered_settle s id .timeoutError
  have hset : (s.cancelTimer id).handleResponse id none = (s.settle id .timeoutError,false) := by
    simp only [handleResponse,hpop]
    refine setFuture_free ?_ _
    exact hfree
  unfold timeout
  rw [hset]
  refine ⟨hcalls,h.distinct,congrArg (List.erase · id) h.timers,?_,?_,?_,?_,?_,h.listening⟩
  · intro id' b hb
    rcases List.mem_append.mp hb with hold | hnew
    · exact h.own id' b hold
    · cases List.mem_singleton.mp hnew
  · intro id' hid'
    rcases List.mem_append.mp hid' with hold | hnew
    · exact List.mem_append_left _ (h.late id' hold)
    · cases List.mem_singleton.mp hnew
      exact List.mem_append_right _ (List.mem_singleton_self _)
  · intro r hr
    change r.id ∈ (s.settle id .timeoutError).answered
    rw [hanswered]
    exact List.mem_append_left _ (h.taken r hr)
  · intro id' hid'
    change id' ∈ (s.settle id .timeoutError).answered
    rw [hanswered]
    rcases List.mem_append.mp hid' with hold | hnew
    · exact List.mem_append_left _ (h.fired id' hold)
    · rw [List.mem_singleton.mp hnew]
      exact List.mem_append_right _ (List.mem_singleton_self _)
  · simpa [settle] using h.quiet

end Client

omit [DecidableEq κ] in
theorem answeredOnce_of_tracked {s : Client κ ρ ε} (h : Tracked s) : AnsweredOnce s where
  once := (h.calls.nodup_iff.mpr h.distinct).of_append_right
  own := h.own
  late := h.late
  taken := fun r hr _ => h.taken r hr
  fired := h.fired
  quiet := h.quiet
  listening := h.listening

/-- Every call is answered once and the listener goes on exactly along the schedules in which
each response is handled while its call is registered and neither answered nor timed out. -/
theorem answered_once_iff (es : List (Event κ ρ ε)) (hl : (clientSystem κ ρ ε).Legal {} es) :
    (clientSystem κ ρ ε).Always AnsweredOnce {} es ↔ ((clientSystem κ ρ ε).restrict Event.Expected).Legal {} es := by
  have hinit : Tracked ({} : Client κ ρ ε) :=
    ⟨List.Perm.refl _,List.nodup_nil,rfl,nofun,nofun,nofun,nofun,rfl,rfl⟩
  refine hl.always_iff (fun _ => answeredOnce_of_tracked) (fun s e h he hexpected => ?_)
    (fun s e h he hexpected hanswered => ?_) hinit
  · cases e with
    | write pipeline => exact Client.tracked_write h he.2.1 he.2.2
    | register pipeline => exact Client.tracked_register h he
    | listen batch => exact Client.tracked_listen h hexpected
    | timeout id => exact Client.tracked_timeout h he
  · cases e with
    | write pipeline => exact hexpected trivial
    | register pipeline => exact hexpected trivial
    | listen batch =>
      have hraised := Client.raised_listen h hexpected
      have hquiet : (s.listen batch).raised = false := hanswered.quiet
      rw [hraised] at hquiet
      cases hquiet
    | timeout id => exact hexpected trivial

/-- Two calls are answered by an error and by a timeout. -/
def answeredRun : List (Event ℕ ℕ ℕ) :=
  [.write [1,2],.register [1,2],.listen [⟨2,.error 5⟩],.timeout 1]

theorem answered_once_answeredRun :
    ((clientSystem ℕ ℕ ℕ).exec {} answeredRun).answered = [2,1] ∧
    (clientSystem ℕ ℕ ℕ).Always AnsweredOnce {} answeredRun :=
  ⟨by decide,(answered_once_iff answeredRun (by decide)).mpr (by decide)⟩

/-- The response comes before the writer has drained. -/
def earlyResponseRun : List (Event ℕ ℕ ℕ) := [.write [1],.listen [⟨1,.result 5⟩],.register [1]]

theorem listener_ends_earlyResponseRun :
    (clientSystem ℕ ℕ ℕ).Legal {} earlyResponseRun ∧
    ((clientSystem ℕ ℕ ℕ).exec {} earlyResponseRun).raised = true ∧
    ((clientSystem ℕ ℕ ℕ).exec {} earlyResponseRun).listening = false ∧
    ((clientSystem ℕ ℕ ℕ).exec {} earlyResponseRun).answered = [] ∧
    ¬ (clientSystem ℕ ℕ ℕ).Always AnsweredOnce {} earlyResponseRun := by
  refine ⟨by decide,by decide,by decide,by decide,fun h => ?_⟩
  exact absurd h.last.quiet (by decide)

end Lightsd.Lightsc
