import Lightsd.Monolight.Components

/-! # Drawing and listening

A layer draws itself by handing its canvas down the tree, shifted at each container, and it
hands a key press down to the components the position collides with. Both walks are followed
to the place a component has in its layer: where a component draws is where it listens.
-/
namespace Lightsd.Monolight.Ui

section Canvases
variable {α : Type}

/-- Subscripts of a list: those below zero count from its end, others are errors. -/
def listIndex (length : ℕ) (i : ℤ) : Option ℕ :=
  let j := if i < 0 then i + length else i
  if 0 ≤ j ∧ j < length then some j.toNat else none

structure LedCanvas (α : Type) where
  size : Dimensions
  levels : List α
  sized : levels.length = (size.height * size.width).toNat

namespace LedCanvas

def new (size : Dimensions) (level : α) : LedCanvas α where
  size := size
  levels := List.replicate (size.height * size.width).toNat level
  sized := List.length_replicate

def index (c : LedCanvas α) (offset : Position) : ℤ := c.size.width * offset.y + offset.x

def set (c : LedCanvas α) (offset : Position) (level : α) : Option (LedCanvas α) :=
  (listIndex c.levels.length (c.index offset)).map (fun i =>
    ⟨c.size,c.levels.set i level,by rw [List.length_set,c.sized]⟩)

def get (c : LedCanvas α) (offset : Position) : Option α :=
  (listIndex c.levels.length (c.index offset)).bind (fun i => c.levels[i]?)

/-- Only the cell at a position changes, to a level. -/
structure ChangesOnly (c c' : LedCanvas α) (p : Position) (level : α) : Prop where
  size : c'.size = c.size
  cell : c'.get p = some level
  others : ∀ r, c.size.Contains r → r ≠ p → c'.get r = c.get r

end LedCanvas

/-- The canvas of the layer, or a canvas that shifts what is drawn on another one. -/
inductive Canvas
  | led
  | proxy (canvas : Canvas) (shift : Position)

namespace Canvas

def shift (c : Canvas) (offset : Position) : Canvas := proxy c offset

def set : Canvas → LedCanvas α → Position → α → Option (LedCanvas α)
  | led, c, offset, level => c.set offset level
  | proxy canvas shift, c, offset, level => canvas.set c (offset + shift) level

/-- How far a canvas shifts in all. -/
def total : Canvas → Position
  | led => 0
  | proxy canvas shift => canvas.total + shift

theorem set_eq (canvas : Canvas) (c : LedCanvas α) (offset : Position) (level : α) :
    canvas.set c offset level = c.set (canvas.total + offset) level := by
  induction canvas generalizing offset with
  | led =>
    have hzero : (0 : Position) + offset = offset := by ext <;> simp
    simp [set,total,hzero]
  | proxy canvas shift ih =>
    have hassoc : canvas.total + (offset + shift) = canvas.total + shift + offset := by
      ext <;> simp <;> ring
    simp [set,total,ih,hassoc]

end Canvas

namespace LedCanvas

/-- A position of the canvas has a cell. -/
theorem listIndex_index (c : LedCanvas α) {p : Position} (hp : c.size.Contains p) :
    ∃ i, i < c.levels.length ∧ listIndex c.levels.length (c.index p) = some i ∧ (i : ℤ) = c.index p := by
  obtain ⟨hl,hr,ht,hb⟩ := hp
  have hwidth : 0 < c.size.width := by omega
  have hnonneg : 0 ≤ c.index p := by
    have hrow : 0 ≤ c.size.width * p.y := mul_nonneg hwidth.le ht
    simp only [index]
    omega
  have hbelow : c.index p < c.size.height * c.size.width := by
    calc c.index p < c.size.width * p.y + c.size.width := by simp only [index]; omega
      _ = c.size.width * (p.y + 1) := by ring
      _ ≤ c.size.width * c.size.height := mul_le_mul_of_nonneg_left (by omega) hwidth.le
      _ = c.size.height * c.size.width := mul_comm _ _
  have hlength : (c.levels.length : ℤ) = c.size.height * c.size.width := by
    rw [c.sized]
    omega
  refine ⟨(c.index p).toNat,by omega,?_,by omega⟩
  simp only [listIndex]
  have hkept : ¬ c.index p < 0 := by omega
  have hrange : 0 ≤ c.index p ∧ c.index p < c.levels.length := by omega
  simp [hkept,hrange]

/-- Different positions of the canvas have different cells. -/
theorem index_inj (c : LedCanvas α) {p q : Position} (hp : c.size.Contains p) (hq : c.size.Contains q)
    (h : c.index p = c.index q) : p = q := by
  have hdivide : ∀ r, c.size.Contains r → c.index r / c.size.width = r.y := by
    intro r hr
    have hwidth : c.size.width ≠ 0 := by
      have := hr.left
      have := hr.right
      omega
    rw [index,add_comm,Int.add_mul_ediv_left _ _ hwidth,Int.ediv_eq_zero_of_lt hr.left hr.right,zero_add]
  have hy : p.y = q.y := by rw [← hdivide p hp,← hdivide q hq,h]
  simp only [index,hy] at h
  ext
  · omega
  · exact hy

theorem set_changesOnly (c : LedCanvas α) {p : Position} (hp : c.size.Contains p) (level : α) :
    ∃ c', c.set p level = some c' ∧ c.ChangesOnly c' p level := by
  obtain ⟨i,hi,hindex,hval⟩ := c.listIndex_index hp
  refine ⟨⟨c.size,c.levels.set i level,by rw [List.length_set,c.sized]⟩,by simp [set,hindex],rfl,?_,?_⟩
  · have hcell : listIndex c.levels.length (c.size.width * p.y + p.x) = some i := hindex
    simp [get,index,hcell,hi]
  · intro r hr hne
    obtain ⟨j,hj,hindexr,hvalr⟩ := c.listIndex_index hr
    have hcell : listIndex c.levels.length (c.size.width * r.y + r.x) = some j := hindexr
    have hdiffer : i ≠ j := by
      intro hij
      exact hne (c.index_inj hr hp (by omega))
    simp [get,index,hcell,List.getElem?_set_ne hdiffer]

end LedCanvas
end Canvases

namespace Component

section Walks
variable {σ : Type}

def isContainer : Component → Bool
  | leaf _ _ => false
  | container _ _ _ => true

def vec (offset : Position) (c : Component) : Position :=
  if c.isContainer then offset else offset + c.frame.offset

mutual

/-- `draw` of a component, which tells if something was drawn: `leafDraw` is `draw` of the components
that are no containers. -/
def draw (leafDraw : ℕ → Canvas → σ → Bool × σ) : Component → Canvas → σ → Bool × σ
  | leaf id _, canvas, s => leafDraw id canvas s
  | container _ frame children, canvas, s => drawAll leafDraw frame.offset children canvas false s

def drawAll (leafDraw : ℕ → Canvas → σ → Bool × σ) (offset : Position) :
    List Component → Canvas → Bool → σ → Bool × σ
  | [], _, dirty, s => (dirty,s)
  | c :: cs, canvas, dirty, s =>
    let (drawn,s) := draw leafDraw c (canvas.shift (c.vec offset)) s
    drawAll leafDraw offset cs canvas (drawn || dirty) s

end

mutual

/-- The components a key press reaches, and the offset each one is given. -/
def handleInput : Component → Position → List (ℕ × Position)
  | leaf id _, offset => [(id,offset)]
  | container _ _ children, offset => handleInputAll children offset

def handleInputAll : List Component → Position → List (ℕ × Position)
  | [], _ => []
  | c :: cs, offset =>
    (if c.frame.collides (Frame.uiPosition offset) then handleInput c (offset - c.frame.offset) else []) ++
      handleInputAll cs offset

end

def submitInput (t : Component) (offset : Position) : Bool × List (ℕ × Position) :=
  if t.frame.collides (Frame.uiPosition offset) then (true,t.handleInput (offset - t.frame.offset))
  else (false,[])

/-- A leaf that records how it is drawn. -/
def record (id : ℕ) (canvas : Canvas) (calls : List (ℕ × Canvas)) : Bool × List (ℕ × Canvas) :=
  (false,calls ++ [(id,canvas)])

/-- The draws of leaves that a draw leads to, in their order. -/
def drawCalls (t : Component) (canvas : Canvas) : List (ℕ × Canvas) := (t.draw record canvas []).2

/-- A component that is no container, at a position from the corner of a component. -/
inductive Sits (id : ℕ) (size : Dimensions) : Component → Position → Prop
  | leaf {frame : Frame} (h : frame.size = size) : Sits id size (leaf id frame) 0
  | child {cid : ℕ} {frame : Frame} {children : List Component} {c : Component} {v : Position} (hc : c ∈ children)
      (h : Sits id size c v) : Sits id size (container cid frame children) (c.frame.offset + v)

theorem drawAll_snd (leafDraw : ℕ → Canvas → σ → Bool × σ) (offset : Position) (cs : List Component)
    (canvas : Canvas) (dirty : Bool) (s : σ) : (drawAll leafDraw offset cs canvas dirty s).2 =
      cs.foldl (fun s c => (c.draw leafDraw (canvas.shift (c.vec offset)) s).2) s := by
  induction cs generalizing dirty s with
  | nil => simp [drawAll]
  | cons c cs ih => simp [drawAll,ih]

theorem handleInputAll_eq (cs : List Component) (offset : Position) : handleInputAll cs offset =
    cs.flatMap (fun c => if c.frame.collides (Frame.uiPosition offset) then c.handleInput (offset - c.frame.offset)
      else []) := by
  induction cs with
  | nil => simp [handleInputAll]
  | cons c cs ih => simp [handleInputAll,ih]

theorem foldl_drawCalls {cs : List Component} {canvas : Canvas} {offset : Position} (calls : List (ℕ × Canvas))
    (h : ∀ c ∈ cs, ∀ canvas calls, (c.draw record canvas calls).2 = calls ++ c.drawCalls canvas) :
    cs.foldl (fun s c => (c.draw record (canvas.shift (c.vec offset)) s).2) calls =
      calls ++ cs.flatMap (fun c => c.drawCalls (canvas.shift (c.vec offset))) := by
  induction cs generalizing calls with
  | nil => simp
  | cons c cs ih =>
    rw [List.foldl_cons,h c List.mem_cons_self,ih _ (fun d hd => h d (List.mem_cons_of_mem c hd)),List.flatMap_cons,
      List.append_assoc]

theorem draw_record (t : Component) (canvas : Canvas) (calls : List (ℕ × Canvas)) :
    (t.draw record canvas calls).2 = calls ++ t.drawCalls canvas := by
  induction t using childInduction generalizing canvas calls with
  | hleaf id frame => simp [draw,drawCalls,record]
  | hcontainer id frame children ih =>
    simp only [drawCalls,draw,drawAll_snd]
    rw [foldl_drawCalls calls ih,foldl_drawCalls [] ih,List.nil_append]

@[simp] theorem drawCalls_leaf (id : ℕ) (frame : Frame) (canvas : Canvas) :
    (leaf id frame).drawCalls canvas = [(id,canvas)] := by
  simp [drawCalls,draw,record]

@[simp] theorem drawCalls_container (id : ℕ) (frame : Frame) (children : List Component) (canvas : Canvas) :
    (container id frame children).drawCalls canvas =
      children.flatMap (fun c => c.drawCalls (canvas.shift (c.vec frame.offset))) := by
  rw [drawCalls,draw,drawAll_snd,foldl_drawCalls [] (fun c _ => c.draw_record),List.nil_append]

end Walks

section Places

/-- Where drawing the inside of a component starts. -/
def start (t : Component) (canvas : Canvas) : Position :=
  if t.isContainer then canvas.total + t.frame.offset else canvas.total

theorem start_shift (c : Component) (canvas : Canvas) (offset : Position) :
    c.start (canvas.shift (c.vec offset)) = canvas.total + offset + c.frame.offset := by
  cases c with
  | leaf id frame =>
    ext <;> simp [start,vec,isContainer,Canvas.shift,Canvas.total,Component.frame] <;> ring
  | container id frame children => simp [start,vec,isContainer,Canvas.shift,Canvas.total]

theorem Sits.mem_ids {id : ℕ} {size : Dimensions} {t : Component} {v : Position} (h : Sits id size t v) :
    id ∈ t.ids := by
  induction h with
  | leaf h => simp [ids]
  | child hc h ih =>
    simp only [ids,idsOfAll_eq]
    exact List.mem_cons_of_mem _ (List.mem_flatMap.mpr ⟨_,hc,ih⟩)

/-- A leaf is drawn on a canvas that shifts to its place. -/
theorem Sits.drawn {id : ℕ} {size : Dimensions} {t : Component} {v : Position} (h : Sits id size t v)
    (canvas : Canvas) : ∃ c, (id,c) ∈ t.drawCalls canvas ∧ c.total = t.start canvas + v := by
  induction h generalizing canvas with
  | leaf h =>
    refine ⟨canvas,by simp,?_⟩
    ext <;> simp [start,isContainer]
  | @child cid frame children d v hd h ih =>
    obtain ⟨c,hc,htotal⟩ := ih (canvas.shift (d.vec frame.offset))
    refine ⟨c,?_,?_⟩
    · rw [drawCalls_container]
      exact List.mem_flatMap.mpr ⟨d,hd,hc⟩
    · rw [htotal,start_shift]
      ext <;> simp [start,isContainer,Component.frame] <;> ring

theorem map_fst_drawCalls (t : Component) (canvas : Canvas) :
    ((t.drawCalls canvas).map Prod.fst).Sublist t.ids := by
  induction t using childInduction generalizing canvas with
  | hleaf id frame => simp [ids]
  | hcontainer id frame children ih =>
    rw [drawCalls_container,List.map_flatMap,ids,idsOfAll_eq]
    apply List.Sublist.cons
    induction children with
    | nil => simp
    | cons c cs ihcs =>
      rw [List.flatMap_cons,List.flatMap_cons]
      exact (ih c List.mem_cons_self _).append (ihcs (fun d hd => ih d (List.mem_cons_of_mem c hd)))

/-- In a tree no leaf is in two places. -/
theorem Sits.unique {id : ℕ} {size size' : Dimensions} {t : Component} {v v' : Position} (ht : t.ids.Nodup)
    (h : Sits id size t v) (h' : Sits id size' t v') : v = v' := by
  induction h generalizing v' with
  | leaf h =>
    cases h'
    rfl
  | @child cid frame children c v hc h ih =>
    cases h' with
    | @child _ _ _ c' v' hc' h' =>
      simp only [ids,idsOfAll_eq] at ht
      obtain ⟨hnodup,hdisjoint⟩ := List.nodup_flatMap.mp (List.nodup_cons.mp ht).2
      by_cases hcc : c = c'
      · subst hcc
        rw [ih (hnodup c hc) h']
      · have : Std.Symm (Function.onFun List.Disjoint ids) := ⟨fun _ _ hd => List.Disjoint.symm hd⟩
        have hapart : List.Disjoint c.ids c'.ids := hdisjoint.forall hc hc' hcc
        exact (hapart h.mem_ids h'.mem_ids).elim

/-- A key press that reaches a leaf is given to it from its place. -/
theorem sits_of_handleInput {t : Component} {p q : Position} {id : ℕ} (h : (id,q) ∈ t.handleInput p) :
    ∃ size v, Sits id size t v ∧ p = v + q := by
  induction t using childInduction generalizing p with
  | hleaf lid frame =>
    simp only [handleInput,List.mem_singleton,Prod.mk.injEq] at h
    obtain ⟨rfl,rfl⟩ := h
    refine ⟨frame.size,0,.leaf rfl,?_⟩
    ext <;> simp
  | hcontainer cid frame children ih =>
    rw [handleInput,handleInputAll_eq] at h
    obtain ⟨c,hc,h⟩ := List.mem_flatMap.mp h
    split at h
    · obtain ⟨size,v,hsits,hp⟩ := ih c hc h
      refine ⟨size,c.frame.offset + v,.child hc hsits,?_⟩
      have hx := congrArg Position.x hp
      have hy := congrArg Position.y hp
      simp only [Position.sub_x,Position.add_x,Position.sub_y,Position.add_y] at hx hy
      ext <;> simp only [Position.add_x,Position.add_y] <;> omega
    · cases h

/-- Each position of a leaf is reached by the key press at it, which is inside of the component. -/
theorem Sits.reached {id : ℕ} {size : Dimensions} {t : Component} {v q : Position} (h : Sits id size t v)
    (ht : Placed t) (hq : size.Contains q) :
    (id,q) ∈ t.handleInput (v + q) ∧ t.frame.size.Contains (v + q) := by
  induction h with
  | @leaf frame h =>
    have hzero : (0 : Position) + q = q := by ext <;> simp
    subst h
    simpa [handleInput,hzero,Component.frame] using hq
  | @child cid frame children c v hc h ih =>
    obtain ⟨hplaced,hfits⟩ := ht.child hc
    obtain ⟨hmem,hinside⟩ := ih hplaced
    have hsub : c.frame.offset + v + q - c.frame.offset = v + q := by
      ext <;> simp <;> ring
    have hassoc : c.frame.offset + v + q = c.frame.offset + (v + q) := by
      ext <;> simp <;> ring
    have hcollides : c.frame.collides (Frame.uiPosition (c.frame.offset + v + q)) = true := by
      rw [Frame.collides_uiPosition,hsub]
      exact hinside
    constructor
    · rw [handleInput,handleInputAll_eq]
      refine List.mem_flatMap.mpr ⟨c,hc,?_⟩
      rw [if_pos hcollides,hsub]
      exact hmem
    · rw [hassoc]
      exact Frame.contains_of_fits hplaced.sound hfits hinside

theorem length_handleInput {t : Component} (ht : Placed t) (p : Position) : (t.handleInput p).length ≤ 1 := by
  induction ht generalizing p with
  | leaf h => simp [handleInput]
  | @container id frame children h hfits hapart hchildren ih =>
    rw [handleInput,handleInputAll_eq]
    clear hfits hchildren
    induction children with
    | nil => simp
    | cons c cs ihcs =>
      rw [List.map_cons,List.pairwise_cons] at hapart
      have htail := ihcs hapart.2 (fun d hd => ih d (List.mem_cons_of_mem c hd))
      rw [List.flatMap_cons,List.length_append]
      by_cases hcollides : c.frame.collides (Frame.uiPosition p) = true
      · have hrest : cs.flatMap (fun d => if d.frame.collides (Frame.uiPosition p) then
            d.handleInput (p - d.frame.offset) else []) = [] := by
          rw [List.flatMap_eq_nil_iff]
          intro d hd
          apply if_neg
          exact fun hd' => Frame.not_both (hapart.1 d.frame (List.mem_map_of_mem hd)) hcollides hd'
        rw [if_pos hcollides,hrest]
        exact ih c List.mem_cons_self _
      · rw [if_neg hcollides]
        simpa using htail

end Places

/-- `UILayer`: a container at the corner of its own canvas. -/
def layer (id : ℕ) (size : Dimensions) (children : List Component) : Component := container id ⟨0,size⟩ children

theorem mem_submitInput_layer {lid : ℕ} {size : Dimensions} {children : List Component} {p : Position}
    {x : ℕ × Position} : x ∈ ((layer lid size children).submitInput p).2 ↔
      size.Contains p ∧ x ∈ (layer lid size children).handleInput p := by
  have hsub : p - (0 : Position) = p := by ext <;> simp
  have hcollides : (layer lid size children).frame.collides (Frame.uiPosition p) = true ↔ size.Contains p := by
    rw [Frame.collides_uiPosition]
    simp only [layer,Component.frame,hsub]
  unfold submitInput
  by_cases hp : size.Contains p
  · rw [if_pos (hcollides.mpr hp)]
    simp [layer,Component.frame,hsub,hp]
  · rw [if_neg (fun h => hp (hcollides.mp h))]
    simp [hp]

/-- A layer draws where it listens: every leaf is drawn once, on a canvas where setting a
position of the leaf changes one cell of the layer, and the key press at that cell is the one
which reaches the leaf with that position. No key press reaches two leaves. -/
theorem draws_where_it_listens {α : Type} {lid : ℕ} {size : Dimensions} {children : List Component}
    (hb : Built (layer lid size children)) :
    (∀ id leafSize v, Sits id leafSize (layer lid size children) v →
      ∃ canvas, (∀ c, (id,c) ∈ (layer lid size children).drawCalls .led ↔ c = canvas) ∧
        ∀ q, leafSize.Contains q → ∃ p, size.Contains p ∧
          (∀ p', (id,q) ∈ ((layer lid size children).submitInput p').2 ↔ p' = p) ∧
          ∀ (led : LedCanvas α) level, led.size = size →
            ∃ led', canvas.set led q level = some led' ∧ led.ChangesOnly led' p level) ∧
      ∀ p, ((layer lid size children).submitInput p).2.length ≤ 1 := by
  obtain ⟨hplaced,hnodup⟩ := hb.placed
  refine ⟨?_,?_⟩
  · intro id leafSize v hsits
    obtain ⟨canvas,hdrawn,htotal⟩ := hsits.drawn .led
    have hplace : canvas.total = v := by
      rw [htotal]
      ext <;> simp [start,isContainer,layer,Canvas.total,Component.frame]
    refine ⟨canvas,?_,?_⟩
    · intro c
      refine ⟨fun hc => ?_,fun hc => hc ▸ hdrawn⟩
      have hcalls := (map_fst_drawCalls (layer lid size children) .led).nodup hnodup
      exact congrArg Prod.snd (List.inj_on_of_nodup_map hcalls hc hdrawn rfl)
    · intro q hq
      obtain ⟨hreached,hinside⟩ := hsits.reached hplaced hq
      refine ⟨v + q,hinside,?_,?_⟩
      · intro p'
        rw [mem_submitInput_layer]
        constructor
        · rintro ⟨-,h⟩
          obtain ⟨size',v',hsits',rfl⟩ := sits_of_handleInput h
          rw [hsits.unique hnodup hsits']
        · rintro rfl
          exact ⟨hinside,hreached⟩
      · rintro led level rfl
        rw [Canvas.set_eq,hplace]
        exact led.set_changesOnly hinside level
  · intro p
    unfold submitInput
    split
    · exact length_handleInput hplaced _
    · simp

/-- A group at `1, 1` of a layer, with a button at its lower right corner. -/
def pad : Component := layer 0 ⟨4,4⟩ [container 1 ⟨⟨1,1⟩,⟨2,2⟩⟩ [leaf 2 ⟨⟨1,1⟩,⟨1,1⟩⟩]]

theorem built_pad : Built pad := by
  have hbutton : Built (leaf 2 ⟨⟨1,1⟩,⟨1,1⟩⟩) := .leaf ⟨by decide,by decide,by decide,by decide⟩
  have hgroup : Built (container 1 ⟨⟨1,1⟩,⟨2,2⟩⟩ []) := .container ⟨by decide,by decide,by decide,by decide⟩
  have hlayer : Built (layer 0 ⟨4,4⟩ []) := .container ⟨by decide,by decide,by decide,by decide⟩
  have hinserted : Built (layer 0 ⟨4,4⟩ [container 1 ⟨⟨1,1⟩,⟨2,2⟩⟩ []]) :=
    @Built.insert _ _ _ [] hgroup hlayer (by simp [ids,layer]) rfl
  exact @Built.insert _ _ _ [0] hbutton hinserted (by simp [ids,layer]) rfl

theorem draws_where_it_listens_pad : Sits 2 ⟨1,1⟩ pad ⟨2,2⟩ ∧
    ∃ canvas, (∀ c, (2,c) ∈ pad.drawCalls .led ↔ c = canvas) ∧
      ∃ p, (∀ p', (2,(0 : Position)) ∈ (pad.submitInput p').2 ↔ p' = p) ∧
        ∀ (led : LedCanvas ℕ) level, led.size = ⟨4,4⟩ →
          ∃ led', canvas.set led 0 level = some led' ∧ led.ChangesOnly led' p level := by
  have hbutton : Sits 2 ⟨1,1⟩ (leaf 2 ⟨⟨1,1⟩,⟨1,1⟩⟩) 0 := .leaf rfl
  have hgroup : Sits 2 ⟨1,1⟩ (container 1 ⟨⟨1,1⟩,⟨2,2⟩⟩ [leaf 2 ⟨⟨1,1⟩,⟨1,1⟩⟩]) ⟨1,1⟩ :=
    .child List.mem_cons_self hbutton
  have hsits : Sits 2 ⟨1,1⟩ pad ⟨2,2⟩ := .child List.mem_cons_self hgroup
  obtain ⟨canvas,hcanvas,hcells⟩ := (draws_where_it_listens (α := ℕ) built_pad).1 2 ⟨1,1⟩ ⟨2,2⟩ hsits
  obtain ⟨p,-,hreached,hset⟩ := hcells 0 ⟨by decide,by decide,by decide,by decide⟩
  exact ⟨hsits,canvas,hcanvas,p,hreached,hset⟩

end Component
end Lightsd.Monolight.Ui
