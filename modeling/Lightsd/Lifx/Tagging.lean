import Lightsd.Lifx.State

/-! # Tags and their sites

A tag is shared by all gateways that know its label; its site list says under
which id each of them knows it. Decreasing the reference of a tag that is no longer
in the global list is a use of freed memory and is recorded as such.
-/
namespace Lightsd.Lifx

namespace Tag

def addSite (tag : Tag) (id : ℕ) (g : GatewayRef) : Tag := { tag with sites := ⟨id,g⟩ :: tag.sites }

def removeSite (tag : Tag) (g : GatewayRef) : Tag :=
  { tag with sites := tag.sites.eraseP (fun s => s.gw = g) }

end Tag

namespace Daemon

def findTag (d : Daemon) (label : List UInt8) : Option TagRef :=
  d.tags.find? (fun t => (d.tag t).label = label)

def findSite (sites : List Site) (g : GatewayRef) : Option Site := sites.find? (fun s => s.gw = g)

/-- The label is copied with `strncpy` into 32 zeroed bytes, the last of which is
never written. -/
def allocateTag (d : Daemon) (label : List UInt8) : Daemon :=
  let d := d.check (label.length < labelSize) (.longLabel label)
  { d with
    tag := Function.update d.tag d.nextTag { label := label.take (labelSize - 1) }
    tags := d.nextTag :: d.tags
    nextTag := d.nextTag + 1 }

def deallocateTag (d : Daemon) (t : TagRef) : Daemon :=
  let d := d.check (d.tag t).sites.isEmpty (.sitesLeft t)
  { d with tags := d.tags.erase t }

/-- The tag with the given label, created when there is none and memory allows. -/
def findOrAllocateTag (d : Daemon) (label : List UInt8) (tagOk : Bool) : Daemon × Option TagRef :=
  match d.findTag label with
  | some t => (d,some t)
  | none => if tagOk then (d.allocateTag label,some d.nextTag) else (d,none)

/-- Add the gateway to the sites of the tag unless it is there already. A tag that was
created for the occasion is taken back when the site cannot be allocated. -/
def addSite (d : Daemon) (t : TagRef) (g : GatewayRef) (id : ℕ) (created siteOk : Bool) :
    Daemon × Option TagRef :=
  match findSite (d.tag t).sites g with
  | some site => (d.check (site.tagId = id) (.siteTagId t g id),some t)
  | none =>
    if siteOk then
      (d.modifyTag t (·.addSite id g),some t)
    else (if created then d.deallocateTag t else d,none)

def incref (d : Daemon) (label : List UInt8) (g : GatewayRef) (id : ℕ) (tagOk siteOk : Bool) :
    Daemon × Option TagRef :=
  let d := d.check (label.length < labelSize) (.longLabel label)
  let created := (d.findTag label).isNone
  match d.findOrAllocateTag label tagOk with
  | (d,none) => (d,none)
  | (d,some t) => d.addSite t g id created siteOk

def decref (d : Daemon) (t : TagRef) (g : GatewayRef) : Daemon :=
  if t ∈ d.tags then
    let d := d.modifyTag t (·.removeSite g)
    if (d.tag t).sites.isEmpty then d.deallocateTag t else d
  else d.fault (.freedTag t)

end Daemon
end Lightsd.Lifx
