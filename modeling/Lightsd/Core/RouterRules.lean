import Lightsd.Core.Router
import Lightsd.Library.Runs

/-! # A rule for what the router keeps

Sending a request to targets is made of three actions: an assertion about a tag, a
packet queued on a gateway, and a note on a bulb. A relation between states that each
of them establishes is established by the whole loop over the targets.
-/
namespace Lightsd.Lifx.Daemon

open Lightsd.Core

/-- A relation established by each of the actions that sending a request is made of. -/
structure RouterRule (now : Time) (req : Request) (R : Daemon → Daemon → Prop) : Prop where
  refl : ∀ d, R d d
  trans : ∀ {d d' d''}, R d d' → R d' d'' → R d d''
  check : ∀ d c t g id, R d (d.check c (.routedTag t g id))
  enqueue : ∀ d g target, R d (d.enqueue g target req)
  expectPower : ∀ d b, R d (d.expectPower now req b)

namespace RouterRule

variable {now : Time} {req : Request} {R : Daemon → Daemon → Prop}

theorem foldl {α : Type} (h : RouterRule now req R) {f : Daemon → α → Daemon}
    (hf : ∀ d x, R d (f d x)) (d : Daemon) (l : List α) : R d (l.foldl f d) :=
  Runs.foldl_related h.refl h.trans (fun d x _ => hf d x) d

theorem sendToDevice (h : RouterRule now req R) (d : Daemon) (b : BulbRef) :
    R d (d.sendToDevice now req b) := h.trans (h.enqueue d _ _) (h.expectPower _ b)

theorem broadcast (h : RouterRule now req R) (d : Daemon) : R d (d.broadcast now req) :=
  h.foldl (fun d g => h.trans (h.enqueue d g .allDevices) (h.foldl h.expectPower _ _)) d _

theorem sendToTag (h : RouterRule now req R) (d : Daemon) (t : TagRef) :
    R d (d.sendToTag now req t) := by
  refine h.foldl (fun d site => ?_) d _
  have hmark : ∀ d b, R d (expectPowerIfTagged now req site.tagId d b) := by
    intro d b
    unfold expectPowerIfTagged
    split
    · exact h.expectPower d b
    · exact h.refl d
  unfold sendToSiteOfTag
  exact h.trans (h.trans (h.check d _ t site.gw site.tagId) (h.enqueue _ site.gw _))
    (h.foldl hmark _ _)

theorem sendToLabel (h : RouterRule now req R) (d : Daemon) (label : List UInt8) :
    R d (d.sendToLabel now req label) := by
  refine h.foldl (fun d b => ?_) d _
  unfold sendIfLabelled
  split
  · exact h.sendToDevice d b
  · exact h.refl d

theorem sendToTarget (h : RouterRule now req R) (s : Daemon × Bool) (target : TargetName) :
    R s.1 (sendToTarget now req s target).1 := by
  obtain ⟨d,rv⟩ := s
  simp only [Daemon.sendToTarget]
  split
  · exact h.broadcast d
  · split
    · exact h.refl d
    · split
      · split
        · exact h.sendToTag d _
        · exact h.refl d
      · split
        · split
          · exact h.sendToDevice d _
          · exact h.sendToLabel d _
        · exact h.sendToLabel d _

theorem routerSend (h : RouterRule now req R) (d : Daemon) (targets : List TargetName) :
    R d (d.routerSend now targets req).1 := by
  have hrun : ∀ s : Daemon × Bool, R s.1 (targets.foldl (Daemon.sendToTarget now req) s).1 := by
    intro s
    induction targets generalizing s with
    | nil => exact h.refl _
    | cons target targets ih => exact h.trans (h.sendToTarget s target) (ih _)
  exact hrun (d,true)

end RouterRule
end Lightsd.Lifx.Daemon
