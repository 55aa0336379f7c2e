import Lightsd.Lifx.State
import Lightsd.Lifx.TagIds

/-! # The bulb table and the statistics

The red-black tree of the source is kept as its in-order list, sorted by hardware
address. Closing a bulb recounts the tags of the gateway it was on, as the source
does in its debug builds.
-/
namespace Lightsd.Lifx

inductive Counter
  | gateways | bulbs | bulbsPoweredOn
  deriving DecidableEq

def Stats.get (s : Stats) : Counter → ℤ
  | .gateways => s.gateways
  | .bulbs => s.bulbs
  | .bulbsPoweredOn => s.bulbsPoweredOn

def Stats.add (s : Stats) (c : Counter) (value : ℤ) : Stats :=
  match c with
  | .gateways => { s with gateways := s.gateways + value }
  | .bulbs => { s with bulbs := s.bulbs + value }
  | .bulbsPoweredOn => { s with bulbsPoweredOn := s.bulbsPoweredOn + value }

namespace Daemon

def statsAdd (d : Daemon) (c : Counter) (value : ℤ) : Daemon :=
  let d := d.check (0 ≤ d.counters.get c + value) .negativeCounter
  { d with counters := d.counters.add c value }

def bulbGet (d : Daemon) (addr : Addr) : Option BulbRef :=
  d.bulbs.find? (fun b => (d.bulb b).addr = addr)

/-- Insertion into the table, which leaves it alone when the address is taken. -/
def insertBulb (addr : BulbRef → Addr) (b : BulbRef) : List BulbRef → List BulbRef
  | [] => [b]
  | x :: xs =>
    if addr b = addr x then x :: xs
    else if (addr b).toList < (addr x).toList then b :: x :: xs
    else x :: insertBulb addr b xs

theorem insertBulb_perm {addr : BulbRef → Addr} {b : BulbRef} {l : List BulbRef}
    (h : ∀ x ∈ l, addr b ≠ addr x) : (insertBulb addr b l).Perm (b :: l) := by
  induction l with
  | nil => exact List.Perm.refl _
  | cons x xs ih =>
    have hx := h x List.mem_cons_self
    have hxs := ih (fun y hy => h y (List.mem_cons_of_mem _ hy))
    simp only [insertBulb,if_neg hx]
    split
    · exact List.Perm.refl _
    · exact (hxs.cons x).trans (List.Perm.swap b x xs)

def bulbOpen (d : Daemon) (g : GatewayRef) (addr : Addr) (now : Time) : Daemon :=
  let d := { d with
    bulb := Function.update d.bulb d.nextBulb { gw := g, addr := addr, lastLightStateAt := now }
    nextBulb := d.nextBulb + 1
    bulbs := insertBulb (Function.update (fun b => (d.bulb b).addr) d.nextBulb addr)
      d.nextBulb d.bulbs }
  d.statsAdd .bulbs 1

/-- How many bulbs in the list of the gateway have the given tag id set. -/
def countTagged (d : Daemon) (g : GatewayRef) (id : ℕ) : ℕ :=
  (d.gw g).bulbs.countP (fun b => hasTagId (d.bulb b).state.tags id)

/-- The assertions of a debug build on closing a bulb, for one of its tag ids. -/
def recountTag (b : BulbRef) (d : Daemon) (id : ℕ) : Daemon :=
  let g := (d.bulb b).gw
  let d := d.check (b ∉ (d.gw g).bulbs) (.bulbStillListed b)
  d.check (((d.gw g).tagRefcounts id).toNat = d.countTagged g id) (.recount b id)

def bulbClose (d : Daemon) (b : BulbRef) : Daemon :=
  let d := (foreachTagId (d.bulb b).state.tags).foldl (recountTag b) d
  let d := d.statsAdd .bulbs (-1)
  let d := if (d.bulb b).state.power = powerOn then d.statsAdd .bulbsPoweredOn (-1) else d
  { d with bulbs := d.bulbs.erase b }

end Daemon

/-- Labels longer than the 32 bytes of a bulb's label are clipped. -/
def Bulb.hasLabel (b : Bulb) (label : List UInt8) : Bool :=
  label.take labelSize = cString b.state.label.toList

end Lightsd.Lifx
