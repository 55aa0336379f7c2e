import Lightsd.Lifx.WireProto

/-! # The broadcast endpoint

Discovery packets leave through one udp socket, with an event for reading from it and one
for writing to it. The calls to the operating system and to libevent may fail: what they
answer is an argument. Descriptors and events are handles, and using one that has been given
back stops the daemon, as a failed assertion or an exit does.
-/
namespace Lightsd.Lifx

/-- Why the daemon stops before its time. -/
inductive Halt
  | assertion
  | exit (status : ℕ)
  | dangling
  deriving DecidableEq

structure SocketEvent where
  id : ℕ
  fd : ℕ
  write : Bool
  pending : Bool
  deriving DecidableEq

/-- No descriptor is -1, and no event is a null pointer. -/
structure Endpoint where
  socket : Option ℕ := none
  readEv : Option ℕ := none
  writeEv : Option ℕ := none
  deriving DecidableEq

structure Transmission where
  addr : UInt32
  port : UInt16
  packet : Header
  deriving DecidableEq

/-- The endpoint, the handles it has been given, and the packets that left. -/
structure Broadcast where
  endpoint : Endpoint := {}
  sockets : List ℕ := []
  events : List SocketEvent := []
  sent : List Transmission := []
  deriving DecidableEq

/-- What the calls in the set-up of the endpoint answer. -/
structure SetupAnswers where
  socket : Option ℕ
  broadcast : Bool
  reuseable : Bool
  nonblocking : Bool
  bind : Bool
  readEv : Option ℕ
  writeEv : Option ℕ
  added : Bool
  deriving DecidableEq

namespace SetupAnswers

/-- The handles of a set-up in which every call succeeds. -/
def handles (a : SetupAnswers) : Option (ℕ × ℕ × ℕ) :=
  if a.broadcast && a.reuseable && a.nonblocking && a.bind && a.added then
    a.socket.bind fun fd => a.readEv.bind fun r => a.writeEv.map fun w => (fd,r,w)
  else none

/-- Events that exist at the same time are different. -/
def Distinct (a : SetupAnswers) : Prop := a.readEv = none ∨ a.readEv ≠ a.writeEv

instance : DecidablePred Distinct := fun _ => inferInstanceAs (Decidable (_ ∨ _))

end SetupAnswers

def lifxProtocolPort : UInt16 := 56700
def inaddrBroadcast : UInt32 := 0xffffffff

/-- What the first call to sendto answers that no signal interrupts: the number of bytes, or
none for an error. -/
abbrev SendAnswer := Option ℕ

inductive Family
  | inet
  | inet6
  | other
  deriving DecidableEq

structure Interface where
  broadaddr : Option (Family × UInt32)
  broadcast : Bool
  netmask : Bool
  deriving DecidableEq

/-- The address that packets for an interface are sent to, if they are. -/
def Interface.destination (ifa : Interface) : Option UInt32 :=
  match ifa.broadaddr with
  | some (.inet,addr) => if ifa.broadcast && ifa.netmask then some addr else none
  | _ => none

/-- The interfaces with the answers to what is sent on them, or the answer to what is sent
to the default address if there is no list. -/
inductive Interfaces
  | unavailable (answer : SendAnswer)
  | listed (interfaces : List (Interface × SendAnswer))

/-- The packet that leaves through an interface, if the whole of it does. -/
def Interface.transmission (pkt : Header) (ifa : Interface × SendAnswer) : Option Transmission :=
  if ifa.2 = some headerSize then ifa.1.destination.map fun addr => ⟨addr,lifxProtocolPort,pkt⟩ else none

def Interfaces.transmissions (pkt : Header) : Interfaces → List Transmission
  | .unavailable answer => if answer = some headerSize then [⟨inaddrBroadcast,lifxProtocolPort,pkt⟩] else []
  | .listed interfaces => interfaces.filterMap (Interface.transmission pkt)

structure WriteAnswers where
  interfaces : Interfaces
  deleted : Bool

/-- A call of the event callback: its flags, and what the calls made from it answer. -/
structure EndpointCall where
  timeout : Bool
  read : Option Bool
  write : Option WriteAnswers
  reset : SetupAnswers

namespace Broadcast

def mapEvent (b : Broadcast) (ev : ℕ) (f : SocketEvent → SocketEvent) : Except Halt Broadcast :=
  if ev ∈ b.events.map SocketEvent.id then
    .ok { b with events := b.events.map fun e => if e.id = ev then f e else e }
  else .error .dangling

def eventAdd (b : Broadcast) (ev : ℕ) : Except Halt Broadcast := b.mapEvent ev ({ · with pending := true })
def eventDel (b : Broadcast) (ev : ℕ) : Except Halt Broadcast := b.mapEvent ev ({ · with pending := false })

def eventFree (b : Broadcast) (ev : ℕ) : Except Halt Broadcast :=
  if ev ∈ b.events.map SocketEvent.id then .ok { b with events := b.events.filter (·.id ≠ ev) }
  else .error .dangling

def closesocket (b : Broadcast) (fd : ℕ) : Except Halt Broadcast :=
  if fd ∈ b.sockets then .ok { b with sockets := b.sockets.filter (· ≠ fd) } else .error .dangling

def eventNew (b : Broadcast) (ev : Option ℕ) (fd : ℕ) (write : Bool) : Broadcast :=
  { b with events := (ev.map fun id => ⟨id,fd,write,false⟩).toList ++ b.events }

def close (b : Broadcast) : Except Halt Broadcast := do
  let b ← match b.endpoint.readEv with
    | some ev => do
      let b ← (← b.eventDel ev).eventFree ev
      pure { b with endpoint := { b.endpoint with readEv := none } }
    | none => pure b
  let b ← match b.endpoint.writeEv with
    | some ev => do
      let b ← (← b.eventDel ev).eventFree ev
      pure { b with endpoint := { b.endpoint with writeEv := none } }
    | none => pure b
  match b.endpoint.socket with
  | some fd => do
    let b ← b.closesocket fd
    pure { b with endpoint := { b.endpoint with socket := none } }
  | none => pure b

def setupError (b : Broadcast) : Except Halt (Broadcast × Bool) := do return (← b.close,false)

def setup (b : Broadcast) (a : SetupAnswers) : Except Halt (Broadcast × Bool) :=
  if b.endpoint.socket ≠ none ∨ b.endpoint.readEv ≠ none ∨ b.endpoint.writeEv ≠ none then .error .assertion
  else match a.socket with
    | none => .ok (b,false)
    | some fd =>
      let b := { b with sockets := fd :: b.sockets, endpoint := { b.endpoint with socket := some fd } }
      if !a.broadcast || !a.reuseable || !a.nonblocking || !a.bind then b.setupError
      else
        let b := (b.eventNew a.readEv fd false).eventNew a.writeEv fd true
        let b := { b with endpoint := ⟨some fd,a.readEv,a.writeEv⟩ }
        match a.readEv,a.writeEv with
        | some readEv,some _ =>
          if a.added then do return (← b.eventAdd readEv,true) else b.setupError
        | _,_ => b.setupError

/-- A packet leaves in full or not at all. -/
def sendPacket (b : Broadcast) (pkt : Header) (addr : UInt32) (nbytes : SendAnswer) : Broadcast × Bool :=
  if nbytes = some headerSize then ({ b with sent := b.sent ++ [⟨addr,lifxProtocolPort,pkt⟩] },true)
  else (b,false)

def discoveryPacket (clientId : UInt32) : Header :=
  setupHeader clientId .allDevices none (.requestOnly .getPanGateway 0)

/-- One round of the loop over the interfaces. -/
def sendOn (pkt : Header) (r : Broadcast × Bool) (ifa : Interface × SendAnswer) : Broadcast × Bool :=
  match ifa.1.destination with
  | some addr =>
    let (b,sent) := r.1.sendPacket pkt addr ifa.2
    (b,sent || r.2)
  | none => r

def sendAll (b : Broadcast) (pkt : Header) : Interfaces → Broadcast × Bool
  | .unavailable answer => b.sendPacket pkt inaddrBroadcast answer
  | .listed interfaces => interfaces.foldl (sendOn pkt) (b,false)

def handleWrite (b : Broadcast) (clientId : UInt32) (w : WriteAnswers) : Except Halt (Broadcast × Bool) :=
  match b.endpoint.socket with
  | none => .error .assertion
  | some _ =>
    match b.sendAll (discoveryPacket clientId) w.interfaces with
    | (b,false) => .ok (b,false)
    | (b,true) =>
      match b.endpoint.writeEv with
      | none => .error .dangling
      | some ev => if w.deleted then do return (← b.eventDel ev,true) else .error (.exit 1)

/-- What the set-up returns is not looked at. -/
def reset (b : Broadcast) (a : SetupAnswers) : Except Halt Broadcast := do
  let b ← b.close
  return (← b.setup a).1

def eventCallback (b : Broadcast) (clientId : UInt32) (c : EndpointCall) : Except Halt Broadcast :=
  if c.timeout then b.reset c.reset
  else match c.read with
    | some false => b.reset c.reset
    | _ =>
      match c.write with
      | none => .ok b
      | some w => do
        match ← b.handleWrite clientId w with
        | (b,true) => pure b
        | (b,false) => b.reset c.reset

def discovery (b : Broadcast) (added : Bool) : Except Halt (Broadcast × Bool) :=
  match b.endpoint.writeEv with
  | none => .error .assertion
  | some ev => if added then do return (← b.eventAdd ev,true) else .ok (b,false)

section Shapes
variable {fd r w : ℕ} {p : Bool} {sent : List Transmission}

/-- An endpoint without handles. -/
def closed (sent : List Transmission) : Broadcast := { sent := sent }

/-- An endpoint with a socket and both events on it; the one for writing may be pending. -/
def opened (fd r w : ℕ) (p : Bool) (sent : List Transmission) : Broadcast where
  endpoint := ⟨some fd,some r,some w⟩
  sockets := [fd]
  events := [⟨w,fd,true,p⟩,⟨r,fd,false,true⟩]
  sent := sent

/-- Nothing is held, or everything is, and nothing else. -/
inductive Whole : Broadcast → Prop
  | closed (sent : List Transmission) : Whole (closed sent)
  | opened (fd r w : ℕ) (p : Bool) (sent : List Transmission) (hne : r ≠ w) : Whole (opened fd r w p sent)

/-- An endpoint that can be used. -/
def Usable (b : Broadcast) : Prop := ∃ fd r w p sent, b = opened fd r w p sent ∧ r ≠ w

theorem close_closed : (closed sent).close = .ok (closed sent) := rfl

theorem close_opened (hne : r ≠ w) : (opened fd r w p sent).close = .ok (closed sent) := by
  simp [close,opened,closed,eventDel,mapEvent,eventFree,closesocket,hne,hne.symm,bind,Except.bind,pure,Except.pure]

/-- The set-up is all or nothing: what it has is given back when a call fails. -/
theorem setup_closed {a : SetupAnswers} (ha : a.Distinct) :
    (closed sent).setup a = .ok (match a.handles with
      | some (fd,r,w) => (opened fd r w false sent,true)
      | none => (closed sent,false)) := by
  obtain ⟨socket,broadcast,reuseable,nonblocking,bound,readEv,writeEv,added⟩ := a
  cases socket with
  | none => simp [setup,closed,SetupAnswers.handles]
  | some fd =>
    by_cases hcalls : (broadcast && reuseable && nonblocking && bound) = true
    · simp only [Bool.and_eq_true] at hcalls
      obtain ⟨⟨⟨rfl,rfl⟩,rfl⟩,rfl⟩ := hcalls
      rcases readEv with _ | r <;> rcases writeEv with _ | w
      · simp [setup,closed,SetupAnswers.handles,eventNew,setupError,close,closesocket,bind,Except.bind,pure,
          Except.pure]
      · simp [setup,closed,SetupAnswers.handles,eventNew,setupError,close,eventDel,mapEvent,eventFree,closesocket,
          bind,Except.bind,pure,Except.pure]
      · simp [setup,closed,SetupAnswers.handles,eventNew,setupError,close,eventDel,mapEvent,eventFree,closesocket,
          bind,Except.bind,pure,Except.pure]
      · have hne : r ≠ w := by simpa [SetupAnswers.Distinct] using ha
        cases added <;>
          simp [setup,closed,opened,SetupAnswers.handles,eventNew,setupError,close,eventAdd,eventDel,mapEvent,eventFree,
            closesocket,bind,Except.bind,pure,Except.pure,hne,hne.symm]
    · have hfail : (!broadcast || !reuseable || !nonblocking || !bound) = true := by grind
      have hhandles : (broadcast && reuseable && nonblocking && bound && added) = false := by
        rw [Bool.eq_false_iff.mpr hcalls,Bool.false_and]
      simp [setup,closed,SetupAnswers.handles,hfail,hhandles,setupError,close,closesocket,bind,Except.bind,pure,
        Except.pure]

/-- What a reset makes of an endpoint. -/
def renewed (sent : List Transmission) (a : SetupAnswers) : Broadcast :=
  match a.handles with
  | some (fd,r,w) => opened fd r w false sent
  | none => closed sent

theorem reset_whole {b : Broadcast} (hb : Whole b) {a : SetupAnswers} (ha : a.Distinct) :
    b.reset a = .ok (renewed b.sent a) := by
  have hclose : b.close = .ok (closed b.sent) := by
    cases hb with
    | closed sent => exact close_closed
    | opened fd r w p sent hne => exact close_opened hne
  rw [reset,hclose]
  simp only [bind,Except.bind,setup_closed ha,renewed]
  rcases a.handles with _ | ⟨fd,r,w⟩ <;> rfl

theorem sendOn_eq (pkt : Header) (b : Broadcast) (ok : Bool) (ifa : Interface × SendAnswer) :
    sendOn pkt (b,ok) ifa = ({ b with sent := b.sent ++ (Interface.transmission pkt ifa).toList },
      (Interface.transmission pkt ifa).isSome || ok) := by
  simp only [sendOn,Interface.transmission,sendPacket]
  cases ifa.1.destination with
  | none => simp
  | some addr => by_cases h : ifa.2 = some headerSize <;> simp [h]

theorem foldl_sendOn (pkt : Header) (interfaces : List (Interface × SendAnswer)) (b : Broadcast) (ok : Bool) :
    interfaces.foldl (sendOn pkt) (b,ok) =
      ({ b with sent := b.sent ++ interfaces.filterMap (Interface.transmission pkt) },
        ok || !(interfaces.filterMap (Interface.transmission pkt)).isEmpty) := by
  induction interfaces generalizing b ok with
  | nil => simp
  | cons ifa interfaces ih =>
    rw [List.foldl_cons,sendOn_eq,ih,List.filterMap_cons]
    cases Interface.transmission pkt ifa <;> simp

/-- A packet is sent on every interface, whatever happens on the others. -/
theorem sendAll_eq (b : Broadcast) (pkt : Header) (interfaces : Interfaces) :
    b.sendAll pkt interfaces = ({ b with sent := b.sent ++ interfaces.transmissions pkt },
      !(interfaces.transmissions pkt).isEmpty) := by
  cases interfaces with
  | unavailable answer =>
    simp only [sendAll,sendPacket,Interfaces.transmissions]
    split <;> simp
  | listed interfaces => simpa [sendAll,Interfaces.transmissions] using foldl_sendOn pkt interfaces b false

theorem handleWrite_opened (hne : r ≠ w) (clientId : UInt32) (a : WriteAnswers) :
    (opened fd r w p sent).handleWrite clientId a =
      if a.interfaces.transmissions (discoveryPacket clientId) = [] then .ok (opened fd r w p sent,false)
      else if a.deleted then
        .ok (opened fd r w false (sent ++ a.interfaces.transmissions (discoveryPacket clientId)),true)
      else .error (.exit 1) := by
  simp only [handleWrite,sendAll_eq]
  generalize a.interfaces.transmissions (discoveryPacket clientId) = out
  cases out with
  | nil => simp [opened]
  | cons t out =>
    cases a.deleted <;>
      simp [opened,eventDel,mapEvent,hne,hne.symm,bind,Except.bind,pure,Except.pure]

theorem discovery_opened (hne : r ≠ w) (added : Bool) :
    (opened fd r w p sent).discovery added = .ok (opened fd r w (p || added) sent,added) := by
  cases added <;> simp [discovery,opened,eventAdd,mapEvent,hne,hne.symm,bind,Except.bind,pure,Except.pure]

/-- The event that waits for packets, and the one that waits for room to send one. -/
def ReadPending (b : Broadcast) : Prop := ∃ e ∈ b.events, e.write = false ∧ e.pending
def WritePending (b : Broadcast) : Prop := ∃ e ∈ b.events, e.write ∧ e.pending

instance : DecidablePred ReadPending := fun b => inferInstanceAs (Decidable (∃ e ∈ b.events, _ ∧ _))
instance : DecidablePred WritePending := fun b => inferInstanceAs (Decidable (∃ e ∈ b.events, _ ∧ _))

@[simp] theorem readPending_opened : (opened fd r w p sent).ReadPending := by simp [ReadPending,opened]
@[simp] theorem writePending_opened : (opened fd r w p sent).WritePending ↔ p = true := by
  simp [WritePending,opened]
@[simp] theorem not_readPending_closed : ¬ (closed sent).ReadPending := by simp [ReadPending,closed]
@[simp] theorem not_writePending_closed : ¬ (closed sent).WritePending := by simp [WritePending,closed]

theorem whole_renewed {a : SetupAnswers} (ha : a.Distinct) : Whole (renewed sent a) := by
  unfold renewed
  split
  · rename_i fd r w h
    refine .opened fd r w false sent ?_
    simp only [SetupAnswers.handles,Option.ite_none_right_eq_some,Option.bind_eq_some_iff,Option.map_eq_some_iff] at h
    obtain ⟨-,fd',-,r',hr,w',hw,heq⟩ := h
    cases heq
    rcases ha with hnone | hne
    · simp [hr] at hnone
    · rintro rfl
      exact hne (hr.trans hw.symm)
  · exact .closed sent

theorem usable_renewed {a : SetupAnswers} (ha : a.Distinct) (h : a.handles.isSome) : Usable (renewed sent a) := by
  have hwhole := @whole_renewed sent a ha
  generalize hb : renewed sent a = b at hwhole
  cases hwhole with
  | closed sent' =>
    obtain ⟨⟨fd,r,w⟩,hh⟩ := Option.isSome_iff_exists.mp h
    rw [renewed,hh] at hb
    cases hb
  | opened fd r w p sent' hne => exact ⟨fd,r,w,p,sent',rfl,hne⟩

theorem not_writePending_renewed {a : SetupAnswers} : ¬ (renewed sent a).WritePending := by
  unfold renewed
  split <;> simp

/-- What a call of the event callback of an open endpoint can do. -/
theorem eventCallback_opened (hne : r ≠ w) (clientId : UInt32) {c : EndpointCall} (hc : c.reset.Distinct) :
    (opened fd r w p sent).eventCallback clientId c =
      if c.timeout ∨ c.read = some false then .ok (renewed sent c.reset)
      else match c.write with
        | none => .ok (opened fd r w p sent)
        | some a =>
          if a.interfaces.transmissions (discoveryPacket clientId) = [] then .ok (renewed sent c.reset)
          else if a.deleted then
            .ok (opened fd r w false (sent ++ a.interfaces.transmissions (discoveryPacket clientId)))
          else .error (.exit 1) := by
  have hreset : (opened fd r w p sent).reset c.reset = .ok (renewed sent c.reset) :=
    reset_whole (.opened fd r w p sent hne) hc
  rcases c with ⟨_ | _,_ | _ | _,_ | a,answers⟩ <;>
    simp only [eventCallback,hreset,handleWrite_opened hne,Bool.false_eq_true,if_false,if_true,reduceCtorEq,or_self,
      true_or,or_true,Option.some.injEq]
  all_goals split_ifs <;> simp [hreset,bind,Except.bind,pure,Except.pure]

end Shapes

end Broadcast
end Lightsd.Lifx
