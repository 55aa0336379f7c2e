import Lightsd.Library.Runs

/-! # The actions of a user interface component

Every component of monolight has a queue of actions and a loop that runs them. While an
action runs, a second task gets the next action from the queue, and the loop waits for
whichever of the two is done first. An action that is got before the one that runs is done
is thrown away; in all other schedules every action is run once, in order and alone.
-/
namespace Lightsd.Monolight

/-- How the task of an action ends. -/
inductive Outcome where
  | finished
  | raised
  deriving DecidableEq

/-- The task that gets the next action from the queue. -/
inductive Getter (α : Type*) where
  | pending
  | done (a : α)
  deriving DecidableEq

/-- The tasks the loop may wait for. -/
inductive Awaited where
  | action (i : ℕ)
  | get
  deriving DecidableEq

/-- Where the coroutine of the loop is suspended: in its own get from the queue, in a wait
for tasks, or nowhere since an action raised. -/
inductive Phase where
  | fetching
  | waiting (tasks : List Awaited)
  | dead
  deriving DecidableEq

/-- The tasks made for actions are kept in the order they were made; the actions the queue
ever accepted are a record of the past. -/
structure Component (α : Type*) where
  queue : List α := []
  tasks : List (α × Option Outcome) := []
  current : Option ℕ := none
  next : Option (Getter α) := none
  phase : Phase := .fetching
  accepted : List α := []

def actionQueueSize : ℕ := 1

namespace Component
variable {α : Type*}

def started (s : Component α) : List α := s.tasks.map Prod.fst

/-- What is in the queue or was got from it and not run yet. -/
def held (s : Component α) : List α :=
  match s.next with
  | some (.done a) => a :: s.queue
  | _ => s.queue

def running (s : Component α) (i : ℕ) : Bool :=
  match s.tasks[i]? with
  | some (_,none) => true
  | _ => false

def isDone (s : Component α) : Awaited → Bool
  | .action i =>
    match s.tasks[i]? with
    | some (_,some _) => true
    | _ => false
  | .get =>
    match s.next with
    | some (.done _) => true
    | _ => false

/-- A full queue refuses the action. -/
def putNowait (s : Component α) (a : α) : Component α :=
  if s.queue.length < actionQueueSize then
    { s with queue := s.queue ++ [a], accepted := s.accepted ++ [a] }
  else s

def createTask (s : Component α) (a : α) : Component α :=
  { s with tasks := s.tasks ++ [(a,none)], current := some s.tasks.length }

/-- From the top of the loop to where it waits. -/
def loopTop (s : Component α) : Component α :=
  match s.next with
  | none =>
    match s.current with
    | none => { s with phase := .fetching }
    | some i => { s with next := some .pending, phase := .waiting [.action i,.get] }
  | some _ => { s with phase := .waiting [.get] }

/-- Someone waits for an item of the queue and there is one. -/
def canGet (s : Component α) : Bool :=
  !s.queue.isEmpty && (match s.phase,s.next with
    | .fetching,_ => true
    | _,some .pending => true
    | _,_ => false)

def get (s : Component α) : Component α :=
  match s.queue with
  | [] => s
  | a :: queue =>
    if s.phase = .fetching then loopTop ({ s with queue := queue }.createTask a)
    else { s with queue := queue, next := some (.done a) }

def complete (s : Component α) (i : ℕ) (o : Outcome) : Component α :=
  { s with tasks := s.tasks.modify i (fun t => (t.1,some o)) }

/-- The loop looks at the action it ran; an error of the action ends the loop. -/
def endCurrent (s : Component α) (done : List Awaited) : Option (Component α) :=
  match s.current with
  | none => some s
  | some i =>
    if .action i ∈ done then
      if (s.tasks[i]?.bind Prod.snd) = some .raised then none else some { s with current := none }
    else some s

/-- The loop looks at the action that was got from the queue. -/
def useNext (s : Component α) (done : List Awaited) : Component α :=
  match s.next with
  | some (.done a) =>
    if .get ∈ done then
      { (if s.current = none then s.createTask a else s) with next := none }
    else s
  | _ => s

def canWake (s : Component α) : Bool :=
  match s.phase with
  | .waiting tasks => tasks.any s.isDone
  | _ => false

def wake (s : Component α) : Component α :=
  match s.phase with
  | .waiting tasks =>
    match s.endCurrent (tasks.filter s.isDone) with
    | none => { s with phase := .dead }
    | some s' => loopTop (s'.useNext (tasks.filter s.isDone))
  | _ => s

end Component

inductive Event (α : Type*) where
  | putNowait (a : α)
  | get
  | complete (i : ℕ) (o : Outcome)
  | wake

variable {α : Type*}

def Event.enabled (s : Component α) : Event α → Bool
  | .putNowait _ => true
  | .get => s.canGet
  | .complete i _ => s.running i
  | .wake => s.canWake

def Event.apply (s : Component α) : Event α → Component α
  | .putNowait a => s.putNowait a
  | .get => s.get
  | .complete i o => s.complete i o
  | .wake => s.wake

def componentSystem (α : Type*) : Runs.System (Component α) (Event α) where
  enabled s e := e.enabled s = true
  step := Event.apply

instance (s : Component α) (e : Event α) : Decidable ((componentSystem α).enabled s e) :=
  inferInstanceAs (Decidable (e.enabled s = true))

/-- The actions that were started are the first ones accepted, in the same order; those
accepted after them are still held; and at most one action is running. -/
structure NoneLost (s : Component α) : Prop where
  order : s.started <+: s.accepted
  held : ∀ rest, s.accepted = s.started ++ rest → rest.Subperm s.held
  single : ∀ i j, s.running i = true → s.running j = true → i = j

/-- What the schedules keep in which no action is thrown away. -/
structure Orderly (s : Component α) : Prop where
  accepted : s.accepted = s.started ++ s.held
  running : ∀ i, s.running i = true → s.current = some i
  fetching : s.phase = .fetching → s.current = none ∧ s.next = none
  waiting : ∀ tasks, s.phase = .waiting tasks →
    tasks = (s.current.map Awaited.action).toList ++ [.get] ∧ s.next ≠ none

/-- The loop is only woken when the action it runs, if any, is done. -/
def Event.Timely (s : Component α) : Event α → Prop
  | .wake => ∀ i, s.current = some i → s.isDone (.action i) = true
  | _ => True

instance (s : Component α) : ∀ e : Event α, Decidable (e.Timely s)
  | .wake => inferInstanceAs (Decidable (∀ i ∈ s.current, s.isDone (.action i) = true))
  | .putNowait _ | .get | .complete _ _ => isTrue trivial

namespace Component
variable {s : Component α}

theorem running_createTask {a : α} {i : ℕ} (h : (s.createTask a).running i = true) :
    s.running i = true ∨ i = s.tasks.length := by
  rcases lt_trichotomy i s.tasks.length with hlt | heq | hgt
  · left
    simpa [running,createTask,List.getElem?_append_left hlt] using h
  · exact Or.inr heq
  · have hnone : (s.tasks ++ [(a,none)])[i]? = none := List.getElem?_eq_none (by simpa using hgt)
    simp [running,createTask,hnone] at h

theorem orderly_loopTop (haccepted : s.accepted = s.started ++ s.held)
    (hrunning : ∀ i, s.running i = true → s.current = some i) (hnext : s.next ≠ none → s.current = none) :
    Orderly s.loopTop := by
  unfold loopTop
  cases hn : s.next with
  | none =>
    have hheld : s.held = s.queue := by simp [held,hn]
    rw [hheld] at haccepted
    cases hc : s.current with
    | none =>
      rw [hc] at hrunning
      refine ⟨?_,hrunning,fun _ => ⟨rfl,rfl⟩,nofun⟩
      simpa [held,started,hn] using haccepted
    | some i =>
      rw [hc] at hrunning
      refine ⟨?_,hrunning,nofun,fun tasks htasks => ?_⟩
      · simpa [held,started] using haccepted
      · cases htasks
        exact ⟨rfl,nofun⟩
  | some getter =>
    have hc := hnext (by simp [hn])
    refine ⟨?_,hrunning,nofun,fun tasks htasks => ?_⟩
    · simpa [held,started,hn] using haccepted
    · cases htasks
      exact ⟨by simp [hc],nofun⟩

theorem orderly_putNowait (h : Orderly s) (a : α) : Orderly (s.putNowait a) := by
  unfold putNowait
  split
  · refine ⟨?_,h.running,h.fetching,h.waiting⟩
    have haccepted := h.accepted
    cases hn : s.next with
    | none => simp_all [held,started]
    | some getter => cases getter <;> simp_all [held,started]
  · exact h

theorem orderly_get (h : Orderly s) (hcan : s.canGet = true) : Orderly s.get := by
  unfold get
  cases hq : s.queue with
  | nil => exact h
  | cons a queue =>
    simp only
    have haccepted := h.accepted
    split
    · rename_i hphase
      obtain ⟨hc,hn⟩ := h.fetching hphase
      have hidle : ∀ i, s.running i ≠ true := by
        intro i hi
        cases hc.symm.trans (h.running i hi)
      refine orderly_loopTop ?_ (fun i hi => ?_) (fun hne => absurd hn hne)
      · simpa [held,hn,hq,started,createTask] using haccepted
      · rcases running_createTask hi with hold | heq
        · exact absurd hold (hidle i)
        · exact congrArg some heq.symm
    · rename_i hphase
      have hn : s.next = some .pending := by
        unfold canGet at hcan
        cases hp : s.phase <;> simp_all <;> split at hcan <;> simp_all
      refine ⟨?_,h.running,fun hf => absurd hf hphase,fun tasks htasks => ⟨(h.waiting tasks htasks).1,nofun⟩⟩
      simpa [held,hn,hq,started] using haccepted

theorem started_complete (s : Component α) (i : ℕ) (o : Outcome) : (s.complete i o).started = s.started := by
  refine List.ext_getElem? (fun j => ?_)
  simp only [started,complete,List.getElem?_map,List.getElem?_modify]
  cases s.tasks[j]? with
  | none => rfl
  | some t =>
    simp only [Option.map_some]
    split <;> rfl

theorem running_complete {i j : ℕ} {o : Outcome} (h : (s.complete i o).running j = true) :
    s.running j = true := by
  unfold running complete at h
  unfold running
  rw [List.getElem?_modify] at h
  cases ht : s.tasks[j]? with
  | none => simp [ht] at h
  | some t =>
    obtain ⟨a,outcome⟩ := t
    by_cases hij : i = j
    · simp [ht,hij] at h
    · simpa [ht,hij] using h

theorem orderly_complete (h : Orderly s) (i : ℕ) (o : Outcome) : Orderly (s.complete i o) := by
  refine ⟨?_,fun j hj => h.running j (running_complete hj),h.fetching,h.waiting⟩
  rw [started_complete]
  exact h.accepted

/-- The end of the action that ran is looked at where it is done. -/
theorem endCurrent_done {i : ℕ} {done : List Awaited} (hc : s.current = some i) (hi : .action i ∈ done) :
    s.endCurrent done = none ∨ s.endCurrent done = some { s with current := none } := by
  unfold endCurrent
  simp only [hc,hi,if_true]
  split
  · exact Or.inl rfl
  · exact Or.inr rfl

/-- An action that was got is started when no action runs. -/
theorem orderly_useNext {done : List Awaited} (haccepted : s.accepted = s.started ++ s.held)
    (hidle : ∀ i, s.running i ≠ true) (hc : s.current = none) (hget : s.isDone .get = true → .get ∈ done) :
    Orderly (s.useNext done).loopTop := by
  unfold useNext
  cases hn : s.next with
  | none => exact orderly_loopTop haccepted (fun i hi => absurd hi (hidle i)) (fun _ => hc)
  | some getter =>
    cases getter with
    | pending => exact orderly_loopTop haccepted (fun i hi => absurd hi (hidle i)) (fun _ => hc)
    | done a =>
      simp only [hget (by simp [isDone,hn]),hc,if_true]
      refine orderly_loopTop ?_ (fun i hi => ?_) (fun hne => absurd rfl hne)
      · simpa [held,hn,started,createTask] using haccepted
      · rcases running_createTask hi with hold | heq
        · exact absurd hold (hidle i)
        · exact congrArg some heq.symm

theorem not_running_of_done {i : ℕ} (h : s.isDone (.action i) = true) : s.running i ≠ true := by
  unfold isDone at h
  unfold running
  cases ht : s.tasks[i]? with
  | none => simp
  | some t =>
    obtain ⟨a,outcome⟩ := t
    cases outcome with
    | none => simp [ht] at h
    | some o => simp

theorem orderly_wake (h : Orderly s) (htimely : ∀ i, s.current = some i → s.isDone (.action i) = true) :
    Orderly s.wake := by
  unfold wake
  cases hp : s.phase with
  | fetching => exact h
  | dead => exact h
  | waiting tasks =>
    obtain ⟨htasks,-⟩ := h.waiting tasks hp
    have hget : s.isDone .get = true → .get ∈ tasks.filter s.isDone :=
      fun hd => List.mem_filter.mpr ⟨by simp [htasks],hd⟩
    simp only
    cases hc : s.current with
    | none =>
      have hidle : ∀ i, s.running i ≠ true := fun i hi => nomatch hc.symm.trans (h.running i hi)
      have hend : s.endCurrent (tasks.filter s.isDone) = some s := by simp [endCurrent,hc]
      rw [hend]
      exact orderly_useNext h.accepted hidle hc hget
    | some i =>
      have hdone := htimely i hc
      have hidle : ∀ j, s.running j ≠ true := by
        intro j hj
        have hij := hc.symm.trans (h.running j hj)
        cases hij
        exact not_running_of_done hdone hj
      have hmem : .action i ∈ tasks.filter s.isDone := List.mem_filter.mpr ⟨by simp [htasks,hc],hdone⟩
      rcases endCurrent_done hc hmem with hend | hend
      · rw [hend]
        exact ⟨h.accepted,fun j hj => hc.symm.trans (h.running j hj),nofun,nofun⟩
      · rw [hend]
        exact orderly_useNext h.accepted hidle rfl hget

/-- A woken loop whose action is still running throws away the action that was got. -/
theorem held_wake_early (h : Orderly s) (hcan : s.canWake = true) {i : ℕ} (hc : s.current = some i)
    (hrun : s.isDone (.action i) ≠ true) :
    s.wake.accepted = s.accepted ∧ s.wake.started = s.started ∧ s.wake.held.length < s.held.length := by
  unfold canWake at hcan
  unfold wake
  cases hp : s.phase with
  | fetching => simp [hp] at hcan
  | dead => simp [hp] at hcan
  | waiting tasks =>
    obtain ⟨htasks,-⟩ := h.waiting tasks hp
    have hdone : tasks.any s.isDone = true := by simpa [hp] using hcan
    have hget : s.isDone .get = true := by simpa [htasks,hc,hrun] using hdone
    have hmem : .get ∈ tasks.filter s.isDone := List.mem_filter.mpr ⟨by simp [htasks],hget⟩
    have hnot : .action i ∉ tasks.filter s.isDone := fun hm => hrun (List.mem_filter.mp hm).2
    have hend : s.endCurrent (tasks.filter s.isDone) = some s := by simp [endCurrent,hc,hnot]
    obtain ⟨a,hn⟩ : ∃ a, s.next = some (.done a) := by
      cases hn : s.next with
      | none => simp [isDone,hn] at hget
      | some getter =>
        cases getter with
        | pending => simp [isDone,hn] at hget
        | done a => exact ⟨a,rfl⟩
    simp [hend,useNext,hn,hmem,hc,loopTop,started,held]

end Component

theorem noneLost_of_orderly {s : Component α} (h : Orderly s) : NoneLost s where
  order := ⟨s.held,h.accepted.symm⟩
  held := by
    intro rest hrest
    have heq := List.append_cancel_left (hrest.symm.trans h.accepted)
    exact heq ▸ List.Subperm.refl _
  single := fun i j hi hj => Option.some_inj.mp ((h.running i hi).symm.trans (h.running j hj))

/-- No accepted action is lost exactly along the schedules in which the loop is never woken
by the next action while one is running. -/
theorem none_lost_iff (es : List (Event α)) (hl : (componentSystem α).Legal {} es) :
    (componentSystem α).Always NoneLost {} es ↔ ((componentSystem α).restrict Event.Timely).Legal {} es := by
  have hinit : Orderly ({} : Component α) := ⟨rfl,fun i hi => by simp [Component.running] at hi,
    fun _ => ⟨rfl,rfl⟩,nofun⟩
  refine hl.always_iff (fun _ => noneLost_of_orderly) (fun s e h he ht => ?_) (fun s e h he ht hlost => ?_) hinit
  · cases e with
    | putNowait a => exact Component.orderly_putNowait h a
    | get => exact Component.orderly_get h he
    | complete i o => exact Component.orderly_complete h i o
    | wake => exact Component.orderly_wake h ht
  · cases e with
    | putNowait a => exact ht trivial
    | get => exact ht trivial
    | complete i o => exact ht trivial
    | wake =>
      simp only [Event.Timely,not_forall] at ht
      obtain ⟨i,hc,hrun⟩ := ht
      obtain ⟨haccepted,hstarted,hshort⟩ := Component.held_wake_early h he hc hrun
      have hsub := hlost.held s.held (by
        change s.wake.accepted = s.wake.started ++ s.held
        rw [haccepted,hstarted,h.accepted])
      exact absurd hsub.length_le (not_le.mpr hshort)

/-- The second action is accepted while the first one runs and got once it is done. -/
def patientRun : List (Event ℕ) :=
  [.putNowait 1,.get,.putNowait 2,.complete 0 .finished,.wake,.get,.wake]

theorem none_lost_patientRun :
    ((componentSystem ℕ).exec {} patientRun).started = [1,2] ∧
    (componentSystem ℕ).Always NoneLost {} patientRun := by
  exact ⟨by decide,(none_lost_iff patientRun (by decide)).mpr (by decide)⟩

/-- The second action is got while the first one runs, and is gone. -/
def hastyRun : List (Event ℕ) := [.putNowait 1,.get,.putNowait 2,.get,.wake]

theorem action_lost_hastyRun :
    (componentSystem ℕ).Legal {} hastyRun ∧
    ((componentSystem ℕ).exec {} hastyRun).accepted = [1,2] ∧
    ((componentSystem ℕ).exec {} hastyRun).started = [1] ∧
    ((componentSystem ℕ).exec {} hastyRun).held = [] ∧
    ¬ (componentSystem ℕ).Always NoneLost {} hastyRun := by
  refine ⟨by decide,by decide,by decide,by decide,fun h => ?_⟩
  have hsub := h.last.held [2] (by decide)
  exact absurd hsub.length_le (by decide)

end Lightsd.Monolight
