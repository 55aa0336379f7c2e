import Lightsd.Core.TagPlacement

/-! # Labels that do not fit

Labels are stored in 32 bytes with a terminating zero, but the tag command looks them up as
they come and does not clip them first. As long as the labels clients send fit, the labels
of tags differ, the assertions about their length hold, and the tag command uses the tag the
clipped label is found under. A longer label fails the assertion at once, whatever the state.
-/
namespace Lightsd.Lifx.Daemon

open Tagging Lightsd.Core

/-- No assertion about the length of a label has failed in between. -/
def Brief (d d' : Daemon) : Prop := ∀ label, .longLabel label ∈ d'.faults → .longLabel label ∈ d.faults

theorem Brief.trans {d d' d'' : Daemon} (h : Brief d d') (h' : Brief d' d'') : Brief d d'' :=
  fun label hmem => h label (h' label hmem)

theorem brief_fault (d : Daemon) {f : Fault} (hf : ∀ label, f ≠ .longLabel label) : Brief d (d.fault f) := by
  intro label hmem
  rcases List.mem_append.mp hmem with hmem | hmem
  · exact hmem
  · exact (hf label (List.mem_singleton.mp hmem).symm).elim

theorem brief_tags : TagRule {label | label.length < labelSize} Brief where
  refl := fun _ _ hmem => hmem
  trans := Brief.trans
  shortLabel := fun d label hlabel => by
    rw [check_short d hlabel]
    exact fun _ hmem => hmem
  fault := fun d _ _ hf => brief_fault d hf
  registry := fun _ _ _ _ _ hmem => hmem
  setTag := fun _ _ _ _ _ hmem => hmem
  clearTag := fun _ _ _ _ hmem => hmem

theorem longLabel_of_ok {d : Daemon} (h : d.tagging.ok) (label : List UInt8) : .longLabel label ∉ d.faults :=
  fun hmem => h _ hmem rfl

/-- The labels in packets fit. -/
theorem longLabel_dispatch {d : Daemon} (h : d.tagging.ok) (now : Time) (g : GatewayRef) (info : PacketInfo)
    (hdr : Header) (pkt : Buffer) (env : Env) (label : List UInt8) :
    .longLabel label ∉ (d.dispatch now g info hdr pkt env).faults := by
  by_cases hinfo : info.handle = .tagLabels
  · obtain ⟨d',hsilent,heq⟩ := exists_dispatch d now g info hdr pkt env
    intro hmem
    rw [← hsilent.tagging] at h
    rw [heq,hinfo] at hmem
    exact longLabel_of_ok h label
      (brief_tags.handleTagLabels (label_decodeTagLabels pkt) d' g env label hmem)
  · have hok : (d.dispatch now g info hdr pkt env).tagging.ok := by
      rw [tagging_dispatch hinfo]
      exact h
    exact longLabel_of_ok hok label

theorem longLabel_handlePacket {d : Daemon} (h : d.tagging.ok) (now : Time) (gw : Option GatewayRef)
    (peer : SockAddr) (info : PacketInfo) (hdr : Header) (pkt : Buffer) (env : Env) (label : List UInt8) :
    .longLabel label ∉ (d.handlePacket now gw peer info hdr pkt env).faults := by
  unfold handlePacket
  cases gw with
  | some g =>
    refine longLabel_dispatch ?_ now g info hdr pkt env label
    rw [tagging_check rfl]
    exact h
  | none =>
    cases d.gatewayGet peer with
    | some g => exact longLabel_dispatch h now g info hdr pkt env label
    | none =>
      simp only
      split
      · refine longLabel_dispatch ?_ now d.nextGw info hdr pkt env label
        rw [tagging_gatewayOpen]
        exact h
      · exact longLabel_of_ok h label

theorem longLabel_handleReceive {d : Daemon} (h : d.tagging.ok) (now : Time) (gw : Option GatewayRef)
    (dg : Datagram) (env : Env) (label : List UInt8) :
    .longLabel label ∉ (d.handleReceive now gw dg env).1.faults := by
  unfold handleReceive
  cases dg.receive with
  | error => exact longLabel_of_ok h label
  | ignored => exact longLabel_of_ok h label
  | packet info hdr => exact longLabel_handlePacket h now gw dg.peer info hdr _ env label

end Lightsd.Lifx.Daemon

namespace Lightsd.Core

open Lifx Lifx.Daemon Lifx.Tagging Runs

/-- The daemon ends with the first assertion that fails. -/
def aliveSystem : System Daemon Event := daemonSystem.restrict (fun d _ => d.faults = [])

instance (d : Daemon) (e : Event) : Decidable (aliveSystem.enabled d e) :=
  inferInstanceAs (Decidable (Event.Enabled d e ∧ d.faults = []))

/-- The labels of tags differ, and the assertions about their length have held. -/
structure LabelsFit (d : Daemon) : Prop where
  unique : ∀ t ∈ d.tags, ∀ t' ∈ d.tags, (d.tag t).label = (d.tag t').label → t = t'
  length : ∀ label, .longLabel label ∉ d.faults

/-- A tag command that succeeds on some bulb has used the tag that the label is found under
once it is clipped: that is the tag the gateways of the bulbs have an id for. -/
def Event.TagFound (d : Daemon) : Event → Prop
  | e@(command now (.tag targets label)) =>
    (d.protoTag now targets label).2 = .result true → d.targetsToDevices targets ≠ [] →
      ∃ t, (e.apply d).findTag (label.take (labelSize - 1)) = some t ∧
        ∀ b ∈ d.targetsToDevices targets, ∃ id, ((e.apply d).gw (d.bulb b).gw).getTagId t = some id
  | _ => True

theorem tagFound_of_short {d : Daemon} (hr : Regular d) (hok : d.tagging.ok) (now : Time)
    (targets : List TargetName) {label : List UInt8} (hlabel : label.length < labelSize) :
    Event.TagFound d (.command now (.tag targets label)) := by
  intro hreply _
  obtain ⟨d₁,t,⟨d₂,ok⟩,hprep,halloc,heq,-⟩ :=
    protoTag_stages hr.partition (hr.numbered hok) (hr.sound hok) hlabel now targets
  rw [heq] at hreply
  cases ok with
  | false => cases hreply
  | true =>
    have hsend := (silent_sendTagLabels d₂ t label).trans
      (Silent.foldl (silent_sendSetTags now t) _ (d.targetsToDevices targets))
    have hend : (d.protoTag now targets label).1.tagging = d₂.tagging := by
      rw [heq]
      exact hsend.tagging
    obtain ⟨hsound,hmem,hlabel₂,-⟩ := halloc.links.sound hprep.sound hprep.mem
    have htake : label.take (labelSize - 1) = label := List.take_of_length_le (by omega)
    refine ⟨t,?_,fun b hb => ?_⟩
    · have hfind := KeyedList.find?_key hsound.labels hmem
      rw [hlabel₂.trans hprep.labelled] at hfind
      have hview : (d.protoTag now targets label).1.findTag label =
          (d.protoTag now targets label).1.tagging.tags.find?
            (fun t => ((d.protoTag now targets label).1.tagging.tag t).label = label) := rfl
      rw [htake]
      exact hview.trans (by rw [hend]; exact hfind)
    · obtain ⟨id,hid⟩ := halloc.placed rfl b hb
      rw [hprep.bulb] at hid
      have hids := congrFun (congrArg Tagging.tagIds hend) (d.bulb b).gw
      have htags := congrFun (congrArg Tagging.table hend) (d.bulb b).gw
      exact ⟨id,(tagIdFor_congr hids htags t).2.trans hid⟩

theorem Event.longLabel_apply {d : Daemon} {e : Event} (h : d.tagging.Sound) (he : e.Enabled d)
    (hcmd : e.tagLabel? = none) (label : List UInt8) : .longLabel label ∉ (e.apply d).faults := by
  cases hrecv : e.isReceive with
  | false => exact longLabel_of_ok (Event.sound_other h he hcmd hrecv).ok label
  | true =>
    cases e with
    | broadcastReceive now dg env => exact longLabel_handleReceive h.ok now none dg env label
    | gatewayReceive g now dg env =>
      have hread := longLabel_handleReceive h.ok now (some g) dg env label
      change .longLabel label ∉ (d.socketRead g now dg env).faults
      unfold socketRead
      unfold handleReceive at hread ⊢
      cases hdg : dg.receive with
      | error => exact longLabel_of_ok (sound_gatewayClose h he.1).ok label
      | ignored => simpa only [hdg] using hread
      | packet info hdr => simpa only [hdg] using hread
    | _ => cases hrecv

/-- One event of a daemon whose assertions have held so far. -/
theorem Event.labelsFit_apply {d : Daemon} {e : Event} (hr : Regular d) (hok : d.tagging.ok)
    (he : e.Enabled d) :
    (LabelsFit (e.apply d) ∧ e.TagFound d) ↔
      ∀ label, e.tagLabel? = some label → label.length < labelSize := by
  cases hcmd : e.tagLabel? with
  | none =>
    refine ⟨fun _ => nofun,fun _ => ⟨⟨?_,?_⟩,?_⟩⟩
    · exact ((hr.numbered hok).changes (Event.changes d hcmd)).labels
    · exact Event.longLabel_apply (hr.sound hok) he hcmd
    · unfold Event.TagFound
      split
      · cases hcmd
      · trivial
  | some label =>
    obtain ⟨now,targets,rfl⟩ := Event.eq_of_tagLabel? hcmd
    constructor
    · rintro ⟨hfit,-⟩ _ ⟨⟩
      by_contra hlong
      exact hfit.length label (longLabel_protoTag now targets (hr.numbered hok).short hlong)
    · intro hshort
      have hlabel := hshort label rfl
      have hsound := sound_protoTag now targets hr.partition (hr.sound hok) hlabel
      exact ⟨⟨hsound.labels,longLabel_of_ok hsound.ok⟩,tagFound_of_short hr hok now targets hlabel⟩

theorem labelsFit_run {d : Daemon} {es : List Event} (hr : Regular d) (hfit : LabelsFit d)
    (hl : aliveSystem.Legal d es) :
    (aliveSystem.Always LabelsFit d es ∧ (aliveSystem.restrict (fun d e => e.TagFound d)).Legal d es) ↔
    ∀ e ∈ es, ∀ label, e.tagLabel? = some label → label.length < labelSize := by
  induction es generalizing d with
  | nil =>
    refine ⟨fun _ => nofun,fun _ => ⟨System.always_nil.mpr hfit,trivial⟩⟩
  | cons e es ih =>
    obtain ⟨⟨he,hfaults⟩,hl⟩ := hl
    have hok : d.tagging.ok := by
      intro f hf
      rw [hfaults] at hf
      cases hf
    have hstep := Event.labelsFit_apply hr hok he
    rw [System.always_cons,List.forall_mem_cons,← hstep]
    constructor
    · rintro ⟨⟨-,hall⟩,⟨⟨-,hfound⟩,hlegal⟩⟩
      exact ⟨⟨hall.head,hfound⟩,(ih (hr.step he) hall.head hl).mp ⟨hall,hlegal⟩⟩
    · rintro ⟨⟨hfit',hfound⟩,hrest⟩
      obtain ⟨hall,hlegal⟩ := (ih (hr.step he) hfit' hl).mpr hrest
      exact ⟨⟨hfit,hall⟩,⟨⟨⟨he,hfaults⟩,hfound⟩,hlegal⟩⟩

/-- Along the runs of a daemon that ends with its first failed assertion, the labels of tags
differ, the assertions about their length hold and tags are found under their clipped labels,
exactly if the labels of all tag commands are shorter than 32 bytes. -/
theorem labels_fit_iff (clientId : UInt32) (es : List Event)
    (hl : aliveSystem.Legal (started clientId) es) :
    (aliveSystem.Always LabelsFit (started clientId) es ∧
      (aliveSystem.restrict (fun d e => e.TagFound d)).Legal (started clientId) es) ↔
    ∀ e ∈ es, ∀ label, e.tagLabel? = some label → label.length < labelSize :=
  labelsFit_run (regular_started clientId) ⟨nofun,nofun⟩ hl

/-- A bulb is tagged twice with the same label. -/
def tagTwiceRun (label : List UInt8) : List Event :=
  lampsRun [[0,0,0,0,0,0,0,0]] ++ [.command 3 (.tag [[42]] label),.command 4 (.tag [[42]] label)]

theorem labels_fit_tagTwiceRun :
    (aliveSystem.exec (started 7) (tagTwiceRun [120])).tags = [0] ∧
    aliveSystem.Always LabelsFit (started 7) (tagTwiceRun [120]) ∧
    (aliveSystem.restrict (fun d e => e.TagFound d)).Legal (started 7) (tagTwiceRun [120]) := by
  refine ⟨by decide +kernel,(labels_fit_iff 7 (tagTwiceRun [120]) (by decide +kernel)).mpr ?_⟩
  simp [tagTwiceRun,lampsRun,Event.tagLabel?,labelSize]

/-- The first of two commands with a label of 32 bytes. -/
def longLabelRun : List Event := (tagTwiceRun (List.replicate 32 120)).take 3

/-- The label is clipped when it is stored, twice by one command. -/
theorem long_label_duplicated :
    aliveSystem.Legal (started 7) longLabelRun ∧
    (aliveSystem.exec (started 7) longLabelRun).tags = [1,0] ∧
    ((aliveSystem.exec (started 7) longLabelRun).tag 0).label =
      ((aliveSystem.exec (started 7) longLabelRun).tag 1).label ∧
    .longLabel (List.replicate 32 120) ∈ (aliveSystem.exec (started 7) longLabelRun).faults ∧
    ¬ (aliveSystem.Always LabelsFit (started 7) longLabelRun ∧
      (aliveSystem.restrict (fun d e => e.TagFound d)).Legal (started 7) longLabelRun) := by
  have hfault : .longLabel (List.replicate 32 120) ∈ (aliveSystem.exec (started 7) longLabelRun).faults := by
    decide +kernel
  exact ⟨by decide +kernel,by decide +kernel,by decide +kernel,hfault,fun h => h.1.last.length _ hfault⟩

end Lightsd.Core
