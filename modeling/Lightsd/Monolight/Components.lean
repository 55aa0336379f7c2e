import Mathlib

/-! # Nested components

The user interface is a tree: containers have a place in their container and a size, and so
have the components that draw and take key presses. A component is inserted where it fits
and does not collide with another one. Drawing hands down canvases that shift what is drawn
on them, a key press is handed down with the offset of each component taken from it.
-/
namespace Lightsd.Monolight.Ui

@[ext] structure Position where
  x : ℤ
  y : ℤ
  deriving DecidableEq

namespace Position

instance : Add Position := ⟨fun p q => ⟨p.x + q.x,p.y + q.y⟩⟩
instance : Sub Position := ⟨fun p q => ⟨p.x - q.x,p.y - q.y⟩⟩
instance : Zero Position := ⟨⟨0,0⟩⟩

@[simp] theorem add_x (p q : Position) : (p + q).x = p.x + q.x := rfl
@[simp] theorem add_y (p q : Position) : (p + q).y = p.y + q.y := rfl
@[simp] theorem sub_x (p q : Position) : (p - q).x = p.x - q.x := rfl
@[simp] theorem sub_y (p q : Position) : (p - q).y = p.y - q.y := rfl
@[simp] theorem zero_x : (0 : Position).x = 0 := rfl
@[simp] theorem zero_y : (0 : Position).y = 0 := rfl

end Position

structure Dimensions where
  height : ℤ
  width : ℤ
  deriving DecidableEq

/-- The positions of an area, counted from its corner. -/
structure Dimensions.Contains (d : Dimensions) (p : Position) : Prop where
  left : 0 ≤ p.x
  right : p.x < d.width
  top : 0 ≤ p.y
  bottom : p.y < d.height

section Frames

/-- Where a component is in its container, and how large it is. -/
structure Frame where
  offset : Position
  size : Dimensions
  deriving DecidableEq

namespace Frame

def nwCorner (f : Frame) : Position := f.offset - ⟨1,1⟩

def seCorner (f : Frame) : Position := ⟨f.offset.x + f.size.width - 1,f.offset.y + f.size.height - 1⟩

def collides (f g : Frame) : Bool :=
  f.nwCorner.x < g.seCorner.x && f.seCorner.x > g.nwCorner.x && f.nwCorner.y < g.seCorner.y &&
    f.seCorner.y > g.nwCorner.y

def fits (f g : Frame) : Bool := g.seCorner.x < f.size.width && g.seCorner.y < f.size.height

/-- `_UIPosition`. -/
def uiPosition (p : Position) : Frame := ⟨p,⟨1,1⟩⟩

/-- The offset is not negative and the size is positive. -/
structure Sound (f : Frame) : Prop where
  x : 0 ≤ f.offset.x
  y : 0 ≤ f.offset.y
  width : 0 < f.size.width
  height : 0 < f.size.height

theorem collides_iff (f g : Frame) : f.collides g = true ↔
    f.offset.x < g.offset.x + g.size.width ∧ g.offset.x < f.offset.x + f.size.width ∧
      f.offset.y < g.offset.y + g.size.height ∧ g.offset.y < f.offset.y + f.size.height := by
  simp only [collides,Bool.and_eq_true,decide_eq_true_eq,gt_iff_lt]
  simp only [nwCorner,seCorner,Position.sub_x,Position.sub_y]
  omega

/-- A position collides with a frame exactly if it is inside of it. -/
theorem collides_uiPosition (f : Frame) (p : Position) :
    f.collides (uiPosition p) = true ↔ f.size.Contains (p - f.offset) := by
  rw [collides_iff]
  constructor
  · intro h
    simp only [uiPosition] at h
    constructor <;> simp only [Position.sub_x,Position.sub_y] <;> omega
  · rintro ⟨hl,hr,ht,hb⟩
    simp only [Position.sub_x,Position.sub_y] at hl hr ht hb
    simp only [uiPosition]
    omega

theorem fits_iff (f g : Frame) : f.fits g = true ↔
    g.offset.x + g.size.width ≤ f.size.width ∧ g.offset.y + g.size.height ≤ f.size.height := by
  simp only [fits,Bool.and_eq_true,decide_eq_true_eq]
  simp only [seCorner]
  omega

theorem contains_of_fits {f g : Frame} (hg : g.Sound) (hfits : f.fits g = true) {p : Position}
    (hp : g.size.Contains p) : f.size.Contains (g.offset + p) := by
  obtain ⟨hx,hy,-,-⟩ := hg
  obtain ⟨hw,hh⟩ := (fits_iff f g).mp hfits
  obtain ⟨hl,hr,ht,hb⟩ := hp
  constructor <;> simp only [Position.add_x,Position.add_y] <;> omega

/-- Frames that do not collide have no position in common. -/
theorem not_both {f g : Frame} (h : f.collides g = false) {p : Position} (hf : f.collides (uiPosition p) = true)
    (hg : g.collides (uiPosition p) = true) : False := by
  rw [collides_iff] at hf hg
  have hcollide : f.collides g = true := by
    rw [collides_iff]
    simp only [uiPosition] at hf hg
    omega
  rw [h] at hcollide
  cases hcollide

end Frame
end Frames

/-- A component that draws and takes key presses, or a container. Every component has an
identity. -/
inductive Component
  | leaf (id : ℕ) (frame : Frame)
  | container (id : ℕ) (frame : Frame) (children : List Component)

namespace Component

def id : Component → ℕ
  | leaf id _ => id
  | container id _ _ => id

def frame : Component → Frame
  | leaf _ frame => frame
  | container _ frame _ => frame

/-- Induction with a hypothesis for every child of a container. -/
theorem childInduction {P : Component → Prop} (hleaf : ∀ id frame, P (leaf id frame))
    (hcontainer : ∀ id frame children, (∀ c ∈ children, P c) → P (container id frame children)) : ∀ t, P t
  | leaf id frame => hleaf id frame
  | container id frame children => hcontainer id frame children (fun c _ => childInduction hleaf hcontainer c)

/-- Why a component is not inserted. -/
inductive InsertionError
  | alreadyPart
  | doesNotFit
  | conflicts

def insertChild (frame : Frame) (children : List Component) (new : Component) :
    Except InsertionError (List Component) :=
  if new.id ∈ children.map id then .error .alreadyPart
  else if frame.fits new.frame = false then .error .doesNotFit
  else if children.any (·.frame.collides new.frame) then .error .conflicts
  else .ok (children ++ [new])

/-- A component is inserted into the container at the end of a path. -/
def insertAt (new : Component) : List ℕ → Component → Option Component
  | _, leaf _ _ => none
  | [], container id frame children =>
    match insertChild frame children new with
    | .ok children => some (container id frame children)
    | .error _ => none
  | i :: path, container id frame children => do
    let child ← children[i]?
    let child ← insertAt new path child
    some (container id frame (children.set i child))

mutual

/-- The identities of a component and of everything inside of it. -/
def ids : Component → List ℕ
  | leaf id _ => [id]
  | container id _ children => id :: idsOfAll children

def idsOfAll : List Component → List ℕ
  | [] => []
  | c :: cs => c.ids ++ idsOfAll cs

end

/-- Trees as they are built, with insertions in any order: a component that is inserted is not
in the tree yet. -/
inductive Built : Component → Prop
  | leaf {id : ℕ} {frame : Frame} (h : frame.Sound) : Built (leaf id frame)
  | container {id : ℕ} {frame : Frame} (h : frame.Sound) : Built (container id frame [])
  | insert {new t t' : Component} {path : List ℕ} (hnew : Built new) (ht : Built t)
      (hfresh : new.ids.Disjoint t.ids) (h : insertAt new path t = some t') : Built t'

/-- In every container the components are inside of it and apart from each other. -/
inductive Placed : Component → Prop
  | leaf {id : ℕ} {frame : Frame} (h : frame.Sound) : Placed (leaf id frame)
  | container {id : ℕ} {frame : Frame} {children : List Component} (h : frame.Sound)
      (hfits : ∀ f ∈ children.map Component.frame, frame.fits f = true)
      (hapart : (children.map Component.frame).Pairwise (fun f g => f.collides g = false))
      (hchildren : ∀ c ∈ children, Placed c) : Placed (container id frame children)

@[simp] theorem idsOfAll_eq (cs : List Component) : idsOfAll cs = cs.flatMap ids := by
  induction cs with
  | nil => simp [idsOfAll]
  | cons c cs ih => simp [idsOfAll,ih]

theorem insertChild_ok {frame : Frame} {children children' : List Component} {new : Component}
    (h : insertChild frame children new = .ok children') : children' = children ++ [new] ∧
      frame.fits new.frame = true ∧ ∀ c ∈ children, c.frame.collides new.frame = false := by
  unfold insertChild at h
  split at h
  · cases h
  split at h
  · cases h
  split at h
  · cases h
  rename_i hfits hconflicts
  cases h
  refine ⟨rfl,by simpa using hfits,?_⟩
  intro c hc
  simp only [List.any_eq_true,not_exists,not_and] at hconflicts
  simpa using hconflicts c hc

/-- What an insertion does: a child more in a container, or an insertion into one of its
children. -/
theorem insertAt_cases {new t t' : Component} {path : List ℕ} (h : insertAt new path t = some t') :
    ∃ id frame children, t = container id frame children ∧
      ((t' = container id frame (children ++ [new]) ∧ frame.fits new.frame = true ∧
          ∀ c ∈ children, c.frame.collides new.frame = false) ∨
        ∃ i rest c c', path = i :: rest ∧ children[i]? = some c ∧ insertAt new rest c = some c' ∧
          t' = container id frame (children.set i c')) := by
  cases t with
  | leaf id frame => cases path <;> simp [insertAt] at h
  | container id frame children =>
    refine ⟨id,frame,children,rfl,?_⟩
    cases path with
    | nil =>
      left
      simp only [insertAt] at h
      cases hc : insertChild frame children new with
      | error e => simp [hc] at h
      | ok children' =>
        obtain ⟨rfl,hfits,hapart⟩ := insertChild_ok hc
        simp only [hc,Option.some.injEq] at h
        exact ⟨h.symm,hfits,hapart⟩
    | cons i rest =>
      right
      simp only [insertAt,bind,Option.bind_eq_some_iff] at h
      obtain ⟨c,hc,c',hc',ht⟩ := h
      exact ⟨i,rest,c,c',rfl,hc,hc',(Option.some.inj ht).symm⟩

theorem frame_insertAt {new t t' : Component} {path : List ℕ} (h : insertAt new path t = some t') :
    t'.frame = t.frame := by
  obtain ⟨id,frame,children,rfl,⟨rfl,-⟩ | ⟨i,rest,c,c',-,-,-,rfl⟩⟩ := insertAt_cases h
  · rfl
  · rfl

theorem Placed.sound {t : Component} (h : Placed t) : t.frame.Sound := by
  cases h with
  | leaf h => exact h
  | container h => exact h

theorem Placed.child {id : ℕ} {frame : Frame} {children : List Component} (h : Placed (.container id frame children))
    {c : Component} (hc : c ∈ children) : Placed c ∧ frame.fits c.frame = true := by
  cases h with
  | container h hfits hapart hchildren => exact ⟨hchildren c hc,hfits c.frame (List.mem_map_of_mem hc)⟩

theorem Placed.append {id : ℕ} {frame : Frame} {children : List Component} {new : Component}
    (h : Placed (.container id frame children)) (hnew : Placed new) (hfits : frame.fits new.frame = true)
    (hapart : ∀ c ∈ children, c.frame.collides new.frame = false) :
    Placed (.container id frame (children ++ [new])) := by
  cases h with
  | container hsound hfits' hapart' hchildren =>
    refine .container hsound ?_ ?_ ?_
    · intro f hf
      rw [List.map_append,List.mem_append] at hf
      rcases hf with hf | hf
      · exact hfits' f hf
      · obtain rfl : f = new.frame := by simpa using hf
        exact hfits
    · rw [List.map_append,List.pairwise_append]
      refine ⟨hapart',by simp,?_⟩
      intro f hf g hg
      obtain ⟨c,hc,rfl⟩ := List.mem_map.mp hf
      obtain rfl : g = new.frame := by simpa using hg
      exact hapart c hc
    · intro c hc
      rcases List.mem_append.mp hc with hc | hc
      · exact hchildren c hc
      · obtain rfl : c = new := by simpa using hc
        exact hnew

theorem Placed.set {id : ℕ} {frame : Frame} {children : List Component} {i : ℕ} {c c' : Component}
    (h : Placed (.container id frame children)) (hc : children[i]? = some c) (hc' : Placed c')
    (hframe : c'.frame = c.frame) : Placed (.container id frame (children.set i c')) := by
  have hframes : (children.set i c').map Component.frame = children.map Component.frame := by
    obtain ⟨hi,rfl⟩ := List.getElem?_eq_some_iff.mp hc
    apply List.ext_getElem (by simp)
    intro j _ _
    by_cases hj : i = j
    · subst hj
      simp [hframe]
    · simp [hj]
  cases h with
  | container hsound hfits hapart hchildren =>
    refine .container hsound (by simpa only [hframes] using hfits) (by simpa only [hframes] using hapart) ?_
    intro d hd
    rcases List.mem_or_eq_of_mem_set hd with hd | rfl
    · exact hchildren d hd
    · exact hc'

theorem Placed.insertAt {new : Component} (hnew : Placed new) {path : List ℕ} {t t' : Component} (ht : Placed t)
    (h : insertAt new path t = some t') : Placed t' := by
  induction path generalizing t t' with
  | nil =>
    obtain ⟨id,frame,children,rfl,⟨rfl,hfits,hapart⟩ | ⟨i,rest,c,c',hpath,-⟩⟩ := insertAt_cases h
    · exact ht.append hnew hfits hapart
    · cases hpath
  | cons i path ih =>
    obtain ⟨id,frame,children,rfl,⟨rfl,hfits,hapart⟩ | ⟨j,rest,c,c',hpath,hc,hc',rfl⟩⟩ := insertAt_cases h
    · exact ht.append hnew hfits hapart
    · cases hpath
      have hplaced := ih (ht.child (List.mem_of_getElem? hc)).1 hc'
      exact ht.set hc hplaced (frame_insertAt hc')

theorem ids_insertAt {new : Component} {path : List ℕ} {t t' : Component} (h : insertAt new path t = some t') :
    t'.ids.Perm (t.ids ++ new.ids) := by
  induction path generalizing t t' with
  | nil =>
    obtain ⟨id,frame,children,rfl,⟨rfl,-⟩ | ⟨i,rest,c,c',hpath,-⟩⟩ := insertAt_cases h
    · simp [ids]
    · cases hpath
  | cons i path ih =>
    obtain ⟨id,frame,children,rfl,⟨rfl,-⟩ | ⟨j,rest,c,c',hpath,hc,hc',rfl⟩⟩ := insertAt_cases h
    · simp [ids]
    · cases hpath
      obtain ⟨hi,rfl⟩ := List.getElem?_eq_some_iff.mp hc
      have hset : (children.set i c').flatMap ids =
          (children.take i).flatMap ids ++ (c'.ids ++ (children.drop (i + 1)).flatMap ids) := by
        rw [List.set_eq_take_append_cons_drop,if_pos hi]
        simp
      have hchildren : children.flatMap ids =
          (children.take i).flatMap ids ++ (children[i].ids ++ (children.drop (i + 1)).flatMap ids) := by
        have hsplit : children = children.take i ++ children[i] :: children.drop (i + 1) := by simp
        have hflat := congrArg (List.flatMap ids) hsplit
        rwa [List.flatMap_append,List.flatMap_cons] at hflat
      simp only [ids,idsOfAll_eq,hset,hchildren,List.cons_append,List.append_assoc]
      refine ((List.Perm.append_left _ ?_)).cons id
      have hperm := (ih hc').append_right ((children.drop (i + 1)).flatMap ids)
      refine hperm.trans ?_
      rw [List.append_assoc]
      exact List.Perm.append_left _ List.perm_append_comm

/-- In a tree that was built, components are inside of their container and apart from each
other, and no component is in it twice. -/
theorem Built.placed {t : Component} (h : Built t) : Placed t ∧ t.ids.Nodup := by
  induction h with
  | leaf h => exact ⟨.leaf h,by simp [ids]⟩
  | container h => exact ⟨.container h (by simp) (by simp) (by simp),by simp [ids]⟩
  | insert _ _ hfresh h ihnew iht =>
    refine ⟨Placed.insertAt ihnew.1 iht.1 h,?_⟩
    rw [(ids_insertAt h).nodup_iff,List.nodup_append']
    exact ⟨iht.2,ihnew.2,hfresh.symm⟩

end Component
end Lightsd.Monolight.Ui
