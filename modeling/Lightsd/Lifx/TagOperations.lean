import Lightsd.Lifx.DeviceOperations

/-! # Operations on the registry of tags

What creating, linking, unlinking and forgetting tags does to the view of the tags,
where the daemon's own assertions hold.
-/
namespace Lightsd.Lifx

namespace Tagging

/-- Remove the gateway from the sites of a tag, and the tag itself with its last site. -/
def detach (v : Tagging) (t : TagRef) (g : GatewayRef) : Tagging :=
  { v with
    tag := Function.update v.tag t ((v.tag t).removeSite g)
    tags := if ((v.tag t).removeSite g).sites.isEmpty then v.tags.erase t else v.tags }

def attach (v : Tagging) (t : TagRef) (g : GatewayRef) (id : ℕ) : Tagging :=
  { v with tag := Function.update v.tag t ((v.tag t).addSite id g) }

def setEntry (v : Tagging) (g : GatewayRef) (id : ℕ) (t : TagRef) : Tagging :=
  { v with
    tagIds := Function.update v.tagIds g (v.tagIds g ||| tagIdToValue id)
    table := Function.update v.table g (Function.update (v.table g) id (some t)) }

def clearEntry (v : Tagging) (g : GatewayRef) (id : ℕ) : Tagging :=
  { v with
    tagIds := Function.update v.tagIds g (v.tagIds g &&& ~~~tagIdToValue id)
    table := Function.update v.table g (Function.update (v.table g) id none) }

def newTag (v : Tagging) (label : List UInt8) : Tagging :=
  { v with
    tag := Function.update v.tag v.nextTag { label := label }
    tags := v.nextTag :: v.tags
    nextTag := v.nextTag + 1 }

def dropTag (v : Tagging) (t : TagRef) : Tagging := { v with tags := v.tags.erase t }

def openGateway (v : Tagging) : Tagging :=
  { v with
    gateways := v.nextGw :: v.gateways
    nextGw := v.nextGw + 1
    tagIds := Function.update v.tagIds v.nextGw 0
    table := Function.update v.table v.nextGw (fun _ => none) }

def dropGateway (v : Tagging) (g : GatewayRef) : Tagging := { v with gateways := v.gateways.erase g }

/-- Unlink the tag a gateway knows under an id, without forgetting the id. -/
def release (g : GatewayRef) (v : Tagging) (id : ℕ) : Tagging :=
  match v.table g id with
  | some t => v.detach t g
  | none => v

end Tagging

namespace Daemon

theorem tagging_modifyGw (d : Daemon) (g : GatewayRef) (f : Gateway → Gateway) :
    (d.modifyGw g f).tagging = { d.tagging with
      tagIds := Function.update d.tagging.tagIds g (f (d.gw g)).tagIds
      table := Function.update d.tagging.table g (f (d.gw g)).tags } := by
  simp only [tagging,modifyGw,update_field Gateway.tagIds,update_field Gateway.tags]

theorem tagging_setTag (d : Daemon) (g : GatewayRef) (id : ℕ) (t : TagRef) :
    (d.modifyGw g (·.setTag id t)).tagging = d.tagging.setEntry g id t := tagging_modifyGw d g _

theorem tagging_clearTag (d : Daemon) (g : GatewayRef) (id : ℕ) :
    (d.modifyGw g (·.clearTag id)).tagging = d.tagging.clearEntry g id := tagging_modifyGw d g _

theorem tagging_allocateTag {d : Daemon} {label : List UInt8} (h : label.length < labelSize) :
    (d.allocateTag label).tagging = d.tagging.newTag label := by
  have htake : label.take (labelSize - 1) = label := List.take_of_length_le (by omega)
  have hcheck : d.check (label.length < labelSize) (.longLabel label) = d := by
    rw [check,if_pos (decide_eq_true h)]
  unfold allocateTag
  rw [hcheck,htake]
  rfl

theorem tagging_deallocateTag {d : Daemon} {t : TagRef} (h : (d.tag t).sites = []) :
    (d.deallocateTag t).tagging = d.tagging.dropTag t := by
  have hcheck : d.check (d.tag t).sites.isEmpty (.sitesLeft t) = d := by
    rw [check,if_pos (List.isEmpty_iff.mpr h)]
  unfold deallocateTag
  rw [hcheck]
  rfl

theorem tagging_decref {d : Daemon} {t : TagRef} (g : GatewayRef) (ht : t ∈ d.tags) :
    (d.decref t g).tagging = d.tagging.detach t g := by
  have hself : (d.modifyTag t (·.removeSite g)).tag t = (d.tag t).removeSite g :=
    Function.update_self _ _ _
  have hview : (d.modifyTag t (·.removeSite g)).tagging =
      { d.tagging with tag := Function.update d.tag t ((d.tag t).removeSite g) } := rfl
  have htag : d.tagging.tag t = d.tag t := rfl
  unfold decref Tagging.detach
  simp only [if_pos ht,hself,htag]
  by_cases hempty : ((d.tag t).removeSite g).sites.isEmpty = true
  · rw [if_pos hempty,if_pos hempty,tagging_deallocateTag (by rw [hself]; exact List.isEmpty_iff.mp hempty),
      hview]
    rfl
  · rw [if_neg hempty,if_neg hempty,hview]
    rfl

theorem tagging_gatewayOpen (d : Daemon) (peer : SockAddr) (site : Addr) (now : Time) :
    (d.gatewayOpen peer site now).tagging = d.tagging.openGateway := by
  rw [gatewayOpen,tagging_statsAdd]
  simp only [Tagging.openGateway,tagging,update_field Gateway.tagIds,update_field Gateway.tags,
    Gateway.opened]

end Daemon
end Lightsd.Lifx
