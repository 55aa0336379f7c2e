import Lightsd.Lifx.PacketRingQueue
import Lightsd.Lifx.RefreshRequests

/-! # The flag of a pending refresh

A gateway notes that it has asked for the state of its bulbs when it sends the two requests
for that, whether or not there was room for them, and forgets it when a request for the
labels of tags has been written, whether or not there is another one. Light states ask again
only if the flag is not set, the timer asks in any case. So the flag is right as long as
there is room for the requests and the timer does not add a second pair to the first one.
-/
namespace Lightsd.Lifx

open RingWindow Runs

namespace Gateway

/-- How many of the requests that end a refresh are queued and not completely written. -/
def refreshes (gw : Gateway) : ℕ := (gw.occupied.map Message.type).count (some .getTagLabels)

/-- The flag is set exactly while a refresh is queued, and there are never two of them. -/
structure Truthful (gw : Gateway) : Prop where
  flag_iff : gw.pendingRefreshReq = true ↔ 0 < gw.refreshes
  once : gw.refreshes ≤ 1

end Gateway

/-- What happens to a gateway: its timer fires, a light state arrives, another packet is
sent, and bytes are written. -/
inductive RefreshEvent
  | refreshTimer
  | lightStatus (receivedAt : Time) (replies : List OutPacket)
  | enqueue (p : OutPacket)
  | write (now : Time) (k : ℕ)

namespace RefreshEvent

def Enabled (gw : Gateway) : RefreshEvent → Prop
  | refreshTimer => True
  | lightStatus _ replies => ∀ p ∈ replies, Other p
  | enqueue p => Other p
  | write now k => (QueueEvent.write now (.wrote k)).Enabled gw

instance (gw : Gateway) : DecidablePred (Enabled gw)
  | refreshTimer => isTrue trivial
  | lightStatus _ replies => inferInstanceAs (Decidable (∀ p ∈ replies, p.info.type ≠ .getTagLabels))
  | enqueue p => inferInstanceAs (Decidable (p.info.type ≠ .getTagLabels))
  | write _ k => inferInstanceAs (Decidable (gw.socketEvPending = true ∧ (k : ℤ) ≤ gw.toWrite ∧ k ≤ gw.writeBuf.length))

def apply (clientId : UInt32) (gw : Gateway) : RefreshEvent → Gateway
  | refreshTimer => gw.sendGetAllLightState clientId
  | lightStatus receivedAt replies => gw.lightStatus clientId receivedAt replies
  | enqueue p => gw.enqueuePacket p
  | write now k => gw.written now (.wrote k)

/-- The timer adds a refresh if there is none, and then there is room for it, or else there
is not. There is room for the refresh that a light state asks for. -/
def Timely (gw : Gateway) : RefreshEvent → Prop
  | refreshTimer => 0 < gw.refreshes ↔ ringSize < gw.occupiedCount + 2
  | lightStatus receivedAt replies =>
    ¬ (gw.noted receivedAt).latency < minRefreshInterval → gw.pendingRefreshReq = false →
      gw.occupiedCount + replies.length + 2 ≤ ringSize
  | enqueue _ | write _ _ => True

end RefreshEvent

def refreshSystem (clientId : UInt32) : System Gateway RefreshEvent where
  enabled := RefreshEvent.Enabled
  step := RefreshEvent.apply clientId

instance (clientId : UInt32) (gw : Gateway) (e : RefreshEvent) : Decidable ((refreshSystem clientId).enabled gw e) :=
  inferInstanceAs (Decidable (RefreshEvent.Enabled gw e))

/-- The ring of a gateway holds packets of the given types. -/
def Gateway.Queues (gw : Gateway) (queue : List PacketType) : Prop := ∃ slots, Backed ⟨gw,queue⟩ slots

namespace Gateway.Queues
variable {gw : Gateway} {queue : List PacketType}

theorem length_le (h : gw.Queues queue) : queue.length ≤ ringSize := by
  obtain ⟨slots,h⟩ := h
  simpa [h.length_eq] using h.stores.length_le

theorem occupiedCount_eq (h : gw.Queues queue) : gw.occupiedCount = queue.length := by
  obtain ⟨slots,h⟩ := h
  exact h.stores.count_eq.trans h.length_eq

theorem refreshes_eq (h : gw.Queues queue) : gw.refreshes = queue.count .getTagLabels := by
  obtain ⟨slots,h⟩ := h
  rw [refreshes,h.simulatesQueue.types]
  exact List.count_map_of_injective _ _ (Option.some_injective _) _

theorem enqueue (h : gw.Queues queue) (p : OutPacket) :
    (gw.enqueuePacket p).Queues (push ringSize queue p.info.type) := by
  obtain ⟨slots,h⟩ := h
  exact h.enqueue p

theorem flagged (h : gw.Queues queue) (flag : Bool) : ({ gw with pendingRefreshReq := flag }).Queues queue := by
  obtain ⟨slots,h⟩ := h
  exact ⟨slots,h.stores,h.types,h.pos,h.covers,h.pending⟩

theorem noted (h : gw.Queues queue) (receivedAt : Time) : (gw.noted receivedAt).Queues queue := by
  obtain ⟨slots,h⟩ := h
  exact ⟨slots,h.stores,h.types,h.pos,h.covers,h.pending⟩

theorem enqueue_counts (h : gw.Queues queue) (p : OutPacket) : ∃ queue', (gw.enqueuePacket p).Queues queue' ∧
    queue'.length = min (queue.length + 1) ringSize ∧
    queue'.count .getTagLabels = queue.count .getTagLabels +
      (if p.info.type = .getTagLabels ∧ queue.length < ringSize then 1 else 0) := by
  refine ⟨_,h.enqueue p,?_⟩
  have hle := h.length_le
  rw [push]
  split
  next hlt =>
    rw [List.length_append,List.count_append,List.length_singleton,List.count_singleton]
    refine ⟨by omega,?_⟩
    by_cases htype : p.info.type = .getTagLabels <;> simp [htype,hlt]
  next hfull =>
    refine ⟨by omega,?_⟩
    simp [hfull]

theorem enqueueAll_counts (h : gw.Queues queue) {ps : List OutPacket} (hps : ∀ p ∈ ps, RefreshEvent.Other p) :
    ∃ queue', (gw.enqueueAll ps).Queues queue' ∧ queue'.length = min (queue.length + ps.length) ringSize ∧
      queue'.count .getTagLabels = queue.count .getTagLabels := by
  induction ps generalizing gw queue with
  | nil => exact ⟨queue,h,by simpa using h.length_le,rfl⟩
  | cons p ps ih =>
    obtain ⟨queue',hqueue,hlen,hcount⟩ := h.enqueue_counts p
    obtain ⟨queue'',hqueue',hlen',hcount'⟩ := ih hqueue (fun q hq => hps q (List.mem_cons_of_mem p hq))
    have hother : p.info.type ≠ .getTagLabels := hps p List.mem_cons_self
    refine ⟨queue'',hqueue',?_,?_⟩
    · rw [hlen',hlen,List.length_cons]
      omega
    · rw [hcount',hcount,if_neg (fun hboth => hother hboth.1),Nat.add_zero]

/-- A refresh is queued exactly if there is room for both of its requests. -/
theorem refresh_counts (h : gw.Queues queue) (clientId : UInt32) :
    ∃ queue', (gw.sendGetAllLightState clientId).Queues queue' ∧
      queue'.count .getTagLabels = queue.count .getTagLabels + (if queue.length + 2 ≤ ringSize then 1 else 0) := by
  obtain ⟨queue',hqueue,hlen,hcount⟩ := h.enqueue_counts (Request.getLightState.packet clientId .site gw.site)
  obtain ⟨queue'',hqueue',-,hcount'⟩ := hqueue.enqueue_counts
    ((Request.getTagLabels (BitVec.allOnes 64)).packet clientId .site (gw.enqueuePacket _).site)
  have hfirst : ¬ ((Request.getLightState.packet clientId .site gw.site).info.type = .getTagLabels ∧
      queue.length < ringSize) := nofun
  refine ⟨queue'',hqueue'.flagged true,?_⟩
  rw [hcount',hcount,if_neg hfirst,hlen,Nat.add_zero]
  congr 1
  exact if_congr (by simp [Request.packet,Request.info,PacketInfo.requestOnly]; omega) rfl rfl

end Gateway.Queues

open RefreshEvent

section Steps
variable {gw : Gateway} {queue : List PacketType}

theorem truthful_iff (h : gw.Queues queue) : gw.Truthful ↔
    (gw.pendingRefreshReq = true ↔ 0 < queue.count .getTagLabels) ∧ queue.count .getTagLabels ≤ 1 := by
  rw [← h.refreshes_eq]
  exact ⟨fun ht => ⟨ht.flag_iff,ht.once⟩,fun ht => ⟨ht.1,ht.2⟩⟩

theorem step_refresh (h : gw.Queues queue) (ht : gw.Truthful) (clientId : UInt32) :
    ∃ queue', (gw.sendGetAllLightState clientId).Queues queue' ∧
      ((gw.sendGetAllLightState clientId).Truthful ↔ (0 < gw.refreshes ↔ ringSize < gw.occupiedCount + 2)) := by
  obtain ⟨queue',hqueue,hcount⟩ := h.refresh_counts clientId
  have honce := ht.once
  have hflag : (gw.sendGetAllLightState clientId).pendingRefreshReq = true := rfl
  refine ⟨queue',hqueue,?_⟩
  rw [truthful_iff hqueue,hcount,hflag,h.occupiedCount_eq,h.refreshes_eq]
  rw [h.refreshes_eq] at honce
  simp only [true_iff]
  by_cases hroom : queue.length + 2 ≤ ringSize
  · rw [if_pos hroom]
    omega
  · rw [if_neg hroom]
    omega

theorem pending_enqueueAll (gw : Gateway) (ps : List OutPacket) :
    (gw.enqueueAll ps).pendingRefreshReq = gw.pendingRefreshReq ∧ (gw.enqueueAll ps).latency = gw.latency := by
  induction ps generalizing gw with
  | nil => exact ⟨rfl,rfl⟩
  | cons p ps ih =>
    have hone : (gw.enqueuePacket p).pendingRefreshReq = gw.pendingRefreshReq ∧
        (gw.enqueuePacket p).latency = gw.latency := by
      cases hfull : gw.pktRingFull <;> simp [Gateway.enqueuePacket,Gateway.latency,hfull]
    rw [← hone.1,← hone.2]
    exact ih (gw.enqueuePacket p)

theorem step_lightStatus (h : gw.Queues queue) (ht : gw.Truthful) (clientId : UInt32) (receivedAt : Time)
    {replies : List OutPacket} (hothers : ∀ p ∈ replies, Other p) :
    ∃ queue', (gw.lightStatus clientId receivedAt replies).Queues queue' ∧
      ((gw.lightStatus clientId receivedAt replies).Truthful ↔ Timely gw (.lightStatus receivedAt replies)) := by
  obtain ⟨queue',hqueue,hlen,hcount⟩ := (h.noted receivedAt).enqueueAll_counts hothers
  obtain ⟨hpending,hlatency⟩ := pending_enqueueAll (gw.noted receivedAt) replies
  have hsame : ((gw.noted receivedAt).enqueueAll replies).Truthful := by
    rw [truthful_iff hqueue,hpending,hcount]
    exact (truthful_iff h).mp ht
  unfold Gateway.lightStatus Gateway.refreshIfSlow Timely
  rw [hpending,hlatency]
  split
  next hfast => exact ⟨queue',hqueue,iff_of_true hsame (fun hslow => absurd hfast hslow)⟩
  next hslow =>
    split
    next hset =>
      refine ⟨queue',hqueue,iff_of_true hsame (fun _ hclear => ?_)⟩
      rw [Gateway.noted] at hset
      exact absurd hset (by simp [hclear])
    next hclear =>
      obtain ⟨queue'',hqueue',hiff⟩ := step_refresh hqueue hsame clientId
      have hunset : gw.pendingRefreshReq = false := Bool.eq_false_iff.mpr hclear
      have hnone : ¬ 0 < ((gw.noted receivedAt).enqueueAll replies).refreshes := by
        rw [← hsame.flag_iff,hpending]
        exact hclear
      refine ⟨queue'',hqueue',hiff.trans ?_⟩
      rw [hqueue.occupiedCount_eq,h.occupiedCount_eq,hlen]
      constructor
      · intro hnext _ _
        omega
      · intro hroom
        have hfree := hroom hslow hunset
        omega

theorem step_enqueue (h : gw.Queues queue) (ht : gw.Truthful) {p : OutPacket} (hother : Other p) :
    ∃ queue', (gw.enqueuePacket p).Queues queue' ∧ (gw.enqueuePacket p).Truthful := by
  have hsingle : ∀ q ∈ [p], Other q := by simpa using hother
  obtain ⟨queue',hqueue,-,hcount⟩ := h.enqueueAll_counts hsingle
  have hpending := (pending_enqueueAll gw [p]).1
  refine ⟨queue',hqueue,(truthful_iff hqueue).mpr ?_⟩
  rw [hcount,hpending]
  exact (truthful_iff h).mp ht

/-- A written refresh was the only one. -/
theorem step_write (h : gw.Queues queue) (ht : gw.Truthful) (now : Time) {k : ℕ}
    (he : (QueueEvent.write now (.wrote k)).Enabled gw) :
    ∃ queue', (gw.written now (.wrote k)).Queues queue' ∧ (gw.written now (.wrote k)).Truthful := by
  obtain ⟨slots,hbacked⟩ := h
  have hcounts := (truthful_iff ⟨slots,hbacked⟩).mp ht
  obtain ⟨m,rest,rfl⟩ := hbacked.slots_cons he.1
  have hfirst : gw.pktRing gw.pktRingTail = m := hbacked.stores.first
  obtain ⟨t,ts,rfl⟩ : ∃ t ts, queue = t :: ts := List.exists_cons_of_length_eq_add_one hbacked.length_eq.symm
  have htype : m.type = some t := (List.cons.inj hbacked.types).1
  have hafter : (gw.written now (.wrote k)).Queues (if gw.Completes (.wrote k) then ts else t :: ts) :=
    hbacked.step he
  refine ⟨_,hafter,(truthful_iff hafter).mpr ?_⟩
  have hflag : (gw.written now (.wrote k)).pendingRefreshReq =
      if gw.Completes (.wrote k) ∧ t = .getTagLabels then false else gw.pendingRefreshReq := by
    simp only [Gateway.written,hfirst,htype,Option.some.injEq,Gateway.Completes,Gateway.toWrite]
  rw [hflag]
  by_cases hdone : gw.Completes (.wrote k)
  · by_cases htag : t = .getTagLabels
    · subst htag
      rw [List.count_cons_self] at hcounts
      simp only [hdone,and_self,if_true]
      simp only [Bool.false_eq_true,false_iff]
      omega
    · rw [List.count_cons_of_ne htag] at hcounts
      simp only [hdone,htag,and_false,if_true,if_false]
      exact hcounts
  · simp only [hdone,false_and,if_false]
    exact hcounts

end Steps

/-- All along a run of a fresh gateway the flag is set exactly while a refresh is queued, and
no second one is, if and only if every event is timely. -/
theorem refresh_flag_iff (clientId : UInt32) (peer : SockAddr) (site : Addr) (t : Time) (es : List RefreshEvent)
    (hl : (refreshSystem clientId).Legal (Gateway.opened peer site t) es) :
    (refreshSystem clientId).Always Gateway.Truthful (Gateway.opened peer site t) es ↔
      ((refreshSystem clientId).restrict Timely).Legal (Gateway.opened peer site t) es := by
  have hstep : ∀ gw e, (∃ queue, gw.Queues queue) ∧ gw.Truthful → Enabled gw e →
      (∃ queue, (apply clientId gw e).Queues queue) ∧ ((apply clientId gw e).Truthful ↔ Timely gw e) := by
    rintro gw e ⟨⟨queue,hqueue⟩,ht⟩ he
    cases e with
    | refreshTimer =>
      obtain ⟨queue',hqueue',hiff⟩ := step_refresh hqueue ht clientId
      exact ⟨⟨queue',hqueue'⟩,hiff⟩
    | lightStatus receivedAt replies =>
      obtain ⟨queue',hqueue',hiff⟩ := step_lightStatus hqueue ht clientId receivedAt he
      exact ⟨⟨queue',hqueue'⟩,hiff⟩
    | enqueue p =>
      obtain ⟨queue',hqueue',ht'⟩ := step_enqueue hqueue ht he
      exact ⟨⟨queue',hqueue'⟩,iff_of_true ht' trivial⟩
    | write now k =>
      obtain ⟨queue',hqueue',ht'⟩ := step_write hqueue ht now he
      exact ⟨⟨queue',hqueue'⟩,iff_of_true ht' trivial⟩
  have hopened : (Gateway.opened peer site t).Queues [] := ⟨[],backed_opened peer site t⟩
  exact hl.always_iff (I := fun gw => (∃ queue, gw.Queues queue) ∧ gw.Truthful) (fun gw h => h.2)
    (fun gw e h he hgood => ⟨(hstep gw e h he).1,(hstep gw e h he).2.mpr hgood⟩)
    (fun gw e h he hbad => mt (hstep gw e h he).2.mp hbad)
    ⟨⟨[],hopened⟩,(truthful_iff hopened).mpr (by simp [Gateway.opened])⟩

/-- A gateway that has just been opened. -/
def freshGateway : Gateway := .opened [] (Vector.replicate 6 0) 0

/-- A refresh that is queued and written. -/
def oneRefresh : List RefreshEvent := [.refreshTimer,.write 1 36,.write 2 44]

theorem refresh_flag_iff_oneRefresh : (refreshSystem 7).Always Gateway.Truthful freshGateway oneRefresh := by
  have hl : (refreshSystem 7).Legal freshGateway oneRefresh := by decide +kernel
  refine (refresh_flag_iff 7 [] (Vector.replicate 6 0) 0 oneRefresh hl).mpr ⟨⟨trivial,?_⟩,⟨hl.2.1,trivial⟩,
    ⟨hl.2.2.1,trivial⟩,trivial⟩
  exact iff_of_false (by decide +kernel) (by decide +kernel)

/-- Fifteen packets of other types, and then the timer. -/
def crowdedRefresh : List RefreshEvent := List.replicate 15 (.enqueue getLightStatePacket) ++ [.refreshTimer]

/-- The timer twice, and then the requests up to the first one for the labels of tags are
written. -/
def twoRefreshes : List RefreshEvent := [.refreshTimer,.refreshTimer,.write 1 36,.write 2 44]

/-- The flag is set without a refresh in the ring, or not set with one in it. -/
theorem refresh_flag_wrong :
    ((refreshSystem 7).Legal freshGateway crowdedRefresh ∧
      ((refreshSystem 7).exec freshGateway crowdedRefresh).pendingRefreshReq = true ∧
      ((refreshSystem 7).exec freshGateway crowdedRefresh).refreshes = 0) ∧
    (refreshSystem 7).Legal freshGateway twoRefreshes ∧
      ((refreshSystem 7).exec freshGateway twoRefreshes).pendingRefreshReq = false ∧
      ((refreshSystem 7).exec freshGateway twoRefreshes).refreshes = 1 := by
  decide +kernel

end Lightsd.Lifx
