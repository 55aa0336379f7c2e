import Lightsd.Core.Proto
import Lightsd.Library.Runs
import Lightsd.Lifx.Registry

/-! # A rule for what the tag functions keep

Whatever the daemon does to its tags is made of few actions: an assertion about a label or a
tag, a change of the list of tags or of a tag, and an entry set or cleared in the table of a
gateway. A relation between states that each of them establishes is established by every
function that allocates, shares or gives back tags.
-/
namespace Lightsd.Lifx.Daemon

open Lightsd.Core Runs

/-- What the allocation of one id establishes, their allocation on all gateways does. -/
theorem allocateOnGateways_related {R : Daemon → Daemon → Prop} (hrefl : ∀ d, R d d)
    (htrans : ∀ {d d' d''}, R d d' → R d' d'' → R d d'') {label : List UInt8}
    (halloc : ∀ d g, R d (d.allocateTagId g (-1) label true true).1) (t : TagRef) (bs : List BulbRef) (d : Daemon) :
    R d (allocateOnGateways t label d bs).1 := by
  induction bs generalizing d with
  | nil => exact hrefl d
  | cons b bs ih =>
    have hone := halloc d (d.bulb b).gw
    unfold allocateOnGateways
    simp only
    split
    · exact ih d
    · generalize d.allocateTagId (d.bulb b).gw (-1) label true true = s at hone
      obtain ⟨d',tagId⟩ := s
      simp only
      split
      · exact hone
      · exact htrans hone (ih d')

/-- A relation established by each of the actions that the tag functions are made of, for
the labels in a set. -/
structure TagRule (L : Set (List UInt8)) (R : Daemon → Daemon → Prop) : Prop where
  refl : ∀ d, R d d
  trans : ∀ {d d' d''}, R d d' → R d' d'' → R d d''
  shortLabel : ∀ d, ∀ label ∈ L, R d (d.check (label.length < labelSize) (.longLabel label))
  fault : ∀ d f, f.isTagging = true → (∀ label, f ≠ .longLabel label) → R d (d.fault f)
  registry : ∀ (d : Daemon) (tags : List TagRef) (tag : TagRef → Tag) (next : TagRef),
    R d { d with tags := tags, tag := tag, nextTag := next }
  setTag : ∀ d g id t, R d (d.modifyGw g (·.setTag id t))
  clearTag : ∀ d g id, R d (d.modifyGw g (·.clearTag id))

namespace TagRule
variable {L : Set (List UInt8)} {R : Daemon → Daemon → Prop} {label : List UInt8} (h : TagRule L R)
include h

theorem check (d : Daemon) (c : Bool) {f : Fault} (hf : f.isTagging = true)
    (hlong : ∀ label, f ≠ .longLabel label) : R d (d.check c f) := by
  cases c with
  | true => exact h.refl d
  | false => exact h.fault d f hf hlong

theorem deallocateTag (d : Daemon) (t : TagRef) : R d (d.deallocateTag t) :=
  h.trans (h.check d (d.tag t).sites.isEmpty (f := .sitesLeft t) rfl (by simp)) (h.registry _ _ _ _)

theorem decref (d : Daemon) (t : TagRef) (g : GatewayRef) : R d (d.decref t g) := by
  unfold Daemon.decref
  split
  · have hsite : R d (d.modifyTag t (·.removeSite g)) := h.registry d _ _ _
    simp only
    split
    · exact h.trans hsite (h.deallocateTag _ t)
    · exact hsite
  · exact h.fault d _ rfl (by simp)

theorem releaseTag (g : GatewayRef) (d : Daemon) (id : ℕ) : R d (Daemon.releaseTag g d id) := by
  unfold Daemon.releaseTag
  split
  · exact h.decref d _ g
  · exact h.refl d

theorem findOrAllocateTag (hlabel : label ∈ L) (d : Daemon) (tagOk : Bool) :
    R d (d.findOrAllocateTag label tagOk).1 := by
  unfold Daemon.findOrAllocateTag
  split
  · exact h.refl d
  · split
    · exact h.trans (h.shortLabel d label hlabel) (h.registry _ _ _ _)
    · exact h.refl d

theorem addSite (d : Daemon) (t : TagRef) (g : GatewayRef) (id : ℕ) (created siteOk : Bool) :
    R d (d.addSite t g id created siteOk).1 := by
  unfold Daemon.addSite
  split
  · exact h.check d _ rfl (by simp)
  · split
    · exact h.registry d _ _ _
    · simp only
      split
      · exact h.deallocateTag d t
      · exact h.refl d

theorem incref (hlabel : label ∈ L) (d : Daemon) (g : GatewayRef) (id : ℕ) (tagOk siteOk : Bool) :
    R d (d.incref label g id tagOk siteOk).1 := by
  have hcheck := h.shortLabel d label hlabel
  unfold Daemon.incref
  simp only
  generalize d.check (label.length < labelSize) (.longLabel label) = d₁ at hcheck
  have hfind := h.trans hcheck (h.findOrAllocateTag hlabel d₁ tagOk)
  generalize d₁.findOrAllocateTag label tagOk = s at hfind
  obtain ⟨d₂,o⟩ := s
  cases o with
  | none => exact hfind
  | some t => exact h.trans hfind (h.addSite d₂ t g id _ siteOk)

theorem allocateTagId (hlabel : label ∈ L) (d : Daemon) (g : GatewayRef) (tagId : ℤ) (tagOk siteOk : Bool) :
    R d (d.allocateTagId g tagId label tagOk siteOk).1 := by
  unfold Daemon.allocateTagId
  simp only
  generalize (if tagId = -1 then bitscan64Forward (~~~(d.gw g).tagIds) else tagId) = id
  split
  · exact h.refl d
  · split
    · exact h.refl d
    · have hincref := h.incref hlabel d g id.toNat tagOk siteOk
      generalize d.incref label g id.toNat tagOk siteOk = s at hincref
      obtain ⟨d',o⟩ := s
      cases o with
      | none => exact hincref
      | some t => exact h.trans hincref (h.setTag d' g id.toNat t)

theorem deallocateTagId (d : Daemon) (g : GatewayRef) (id : ℕ) : R d (d.deallocateTagId g id) := by
  unfold Daemon.deallocateTagId
  split
  · simp only
    split
    · exact h.trans (h.decref d _ g) (h.clearTag _ g id)
    · exact h.trans (h.fault d _ rfl (by simp)) (h.clearTag _ g id)
  · exact h.refl d

theorem handleTagLabel (hlabel : label ∈ L) (g : GatewayRef) (env : Env) (d : Daemon) (id : ℕ) :
    R d (Daemon.handleTagLabel g env label d id) := by
  unfold Daemon.handleTagLabel
  split
  · exact h.allocateTagId hlabel d g id _ _
  · split
    · exact h.deallocateTagId d g id
    · exact h.refl d

theorem foldl_handleTagLabel (hlabel : label ∈ L) (g : GatewayRef) (env : Env) (d : Daemon) (ids : List ℕ) :
    R d (ids.foldl (Daemon.handleTagLabel g env label) d) :=
  foldl_related h.refl h.trans (fun d id _ => h.handleTagLabel hlabel g env d id) d

theorem handleTagLabels {pkt : TagLabels} (hlabel : cString pkt.label.toList ∈ L) (d : Daemon)
    (g : GatewayRef) (env : Env) : R d (d.handleTagLabels g env pkt) :=
  h.foldl_handleTagLabel hlabel g env d _

theorem allocateOnGateways (hlabel : label ∈ L) (t : TagRef) (bs : List BulbRef) (d : Daemon) :
    R d (Daemon.allocateOnGateways t label d bs).1 :=
  allocateOnGateways_related h.refl h.trans (fun d g => h.allocateTagId hlabel d g (-1) true true) t bs d

theorem abandonTag (d : Daemon) (t : TagRef) : R d (d.abandonTag t) := by
  unfold Daemon.abandonTag
  split
  · exact h.deallocateTag d t
  · exact foldl_related h.refl h.trans (fun d site _ => h.deallocateTagId d site.gw site.tagId) d

/-- The tag command also sends packets, to the gateways of the tag and to the bulbs. -/
theorem protoTag (hlabel : label ∈ L) {now : Time} (hlabels : ∀ d t, R d (d.sendTagLabels t label))
    (hset : ∀ t d b, R d (sendSetTags now t d b)) (d : Daemon) (targets : List TargetName) :
    R d (d.protoTag now targets label).1 := by
  have hfind := h.findOrAllocateTag hlabel d true
  unfold Daemon.protoTag
  simp only
  generalize d.findOrAllocateTag label true = s at hfind
  obtain ⟨d₁,o⟩ := s
  cases o with
  | none => exact hfind
  | some t =>
    have halloc := h.trans hfind (h.allocateOnGateways hlabel t (d.targetsToDevices targets) d₁)
    simp only
    generalize Daemon.allocateOnGateways t label d₁ (d.targetsToDevices targets) = s₂ at halloc
    obtain ⟨d₂,ok⟩ := s₂
    cases ok with
    | true => exact h.trans (h.trans halloc (hlabels d₂ t)) (foldl_related h.refl h.trans (fun d b _ => hset t d b) _)
    | false => exact h.trans halloc (h.abandonTag d₂ t)

end TagRule

/-- Recorded faults stay recorded, so a fault inside a change of tags is visible afterwards. -/
theorem faults_tags : TagRule Set.univ (fun d d' => d.faults ⊆ d'.faults) where
  refl := fun _ => List.Subset.refl _
  trans := List.Subset.trans
  shortLabel := fun d label _ => by
    unfold Daemon.check
    split
    · exact List.Subset.refl _
    · exact List.subset_append_left _ _
  fault := fun _ _ _ _ => List.subset_append_left _ _
  registry := fun _ _ _ _ => List.Subset.refl _
  setTag := fun _ _ _ _ => List.Subset.refl _
  clearTag := fun _ _ _ => List.Subset.refl _

end Lightsd.Lifx.Daemon
