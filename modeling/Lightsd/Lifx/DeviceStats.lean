import Lightsd.Library.Census
import Lightsd.Lifx.DeviceTransitions

/-! # Statistics of the registry

The counters of the daemon are the sizes of the registry, and the number of bulbs that
are on. The latter relies on bulbs having one of two powers only, which the packet
decoders ensure.
-/
namespace Lightsd.Lifx.Devices

open Census

def isOn (power : UInt16) : Bool := power = powerOn

@[simp] theorem isOn_powerOn : isOn powerOn = true := rfl
@[simp] theorem isOn_powerOff : isOn powerOff = false := rfl

theorem isOn_of_ne {power : UInt16} (h : power ≠ powerOn) : isOn power = false := decide_eq_false h

structure Counted (r : Devices) : Prop where
  powers : ∀ b ∈ r.bulbs, r.power b = powerOff ∨ r.power b = powerOn
  poweredOn : r.counters.bulbsPoweredOn = r.bulbs.countP (fun b => isOn (r.power b))
  bulbs : r.counters.bulbs = r.bulbs.length
  gateways : r.counters.gateways = r.gateways.length
  ok : r.statsOk

namespace Counted

variable {r : Devices}

theorem openGateway (h : r.Counted) (peer : SockAddr) : (r.openGateway peer).Counted := by
  have hg := h.gateways
  refine ⟨h.powers,h.poweredOn,h.bulbs,?_,h.ok,?_⟩
  · simp only [Devices.openGateway,count,Stats.add,List.length_cons,hg,Nat.cast_add,Nat.cast_one]
  · simp only [Stats.get,hg]
    omega

theorem openBulb (h : r.Counted) (hp : r.Partition) {g : GatewayRef} {addr : Addr}
    (new : ∀ b ∈ r.bulbs, r.addr b ≠ addr) : (r.openBulb g addr).Counted := by
  have hperm := hp.insertBulb_perm new
  have hb := h.bulbs
  have hfresh : r.nextBulb ∉ r.bulbs := fun hm => (hp.bulbs_lt _ hm).ne rfl
  have hoff : isOn 0 = false := isOn_powerOff
  refine ⟨?_,?_,?_,h.gateways,h.ok,?_⟩
  · intro b hmem
    simp only [Devices.openBulb,count]
    rcases List.mem_cons.mp (hperm.mem_iff.mp hmem) with rfl | hmem
    · rw [Function.update_self]
      exact Or.inl rfl
    · have hne : b ≠ r.nextBulb := fun e => hfresh (e ▸ hmem)
      rw [Function.update_of_ne hne]
      exact h.powers b hmem
  · simp only [Devices.openBulb,count,Stats.add]
    rw [hperm.countP_eq,List.countP_cons,countP_update_of_notMem isOn r.power hfresh 0]
    simp only [Function.update_self,hoff,Bool.false_eq_true,if_false,add_zero]
    exact h.poweredOn
  · simp only [Devices.openBulb,count,Stats.add,hperm.length_eq,List.length_cons,hb,Nat.cast_add,
      Nat.cast_one]
  · simp only [Stats.get,hb]
    omega

theorem forgetBulb (h : r.Counted) {b : BulbRef} (live : b ∈ r.bulbs) :
    (r.forgetBulb b).counters.bulbs = (r.bulbs.erase b).length ∧
    (r.forgetBulb b).counters.bulbsPoweredOn =
      (r.bulbs.erase b).countP (fun b => isOn (r.power b)) ∧
    (r.forgetBulb b).counters.gateways = r.gateways.length ∧ (r.forgetBulb b).statsOk := by
  have hlen := List.length_erase_of_mem live
  have hpos := List.length_pos_of_mem live
  have hon := countP_erase_add (fun b => isOn (r.power b)) live
  have hb := h.bulbs
  have hp := h.poweredOn
  have hpower : (r.count .bulbs (-1)).power b = r.power b := rfl
  simp only [Devices.forgetBulb,hpower]
  by_cases hpb : r.power b = powerOn
  · simp only [hpb,isOn_powerOn,if_true] at hon ⊢
    refine ⟨?_,?_,h.gateways,⟨h.ok,?_⟩,?_⟩
    · simp only [count,Stats.add,hb]
      omega
    · simp only [count,Stats.add,hp]
      omega
    · simp only [Stats.get,hb]
      omega
    · simp only [count,Stats.get,Stats.add,hp]
      omega
  · simp only [hpb,isOn_of_ne hpb,Bool.false_eq_true,if_false,add_zero] at hon ⊢
    refine ⟨?_,?_,h.gateways,h.ok,?_⟩
    · simp only [count,Stats.add,hb]
      omega
    · simp only [count,Stats.add,hp,hon]
    · simp only [Stats.get,hb]
      omega

theorem closeBulb (h : r.Counted) {g : GatewayRef} {b : BulbRef} (live : b ∈ r.bulbs) :
    (r.closeBulb g b).Counted := by
  obtain ⟨hbulbs,hon,hgw,hok⟩ := h.forgetBulb live
  rw [closeBulb_eq]
  exact ⟨fun x hx => h.powers x (List.mem_of_mem_erase hx),hon,hbulbs,hgw,hok⟩

theorem dropGateway (h : r.Counted) {g : GatewayRef} (live : g ∈ r.gateways) :
    (r.dropGateway g).Counted := by
  have hlen := List.length_erase_of_mem live
  have hpos := List.length_pos_of_mem live
  have hg := h.gateways
  refine ⟨h.powers,h.poweredOn,h.bulbs,?_,h.ok,?_⟩
  · simp only [Devices.dropGateway,count,Stats.add,hg]
    omega
  · simp only [Stats.get,hg]
    omega

theorem setPower (h : r.Counted) (hp : r.Partition) {b : BulbRef} {power : UInt16}
    (live : b ∈ r.bulbs) (level : power = powerOff ∨ power = powerOn) :
    (r.setPower b power).Counted := by
  have hcount := countP_update isOn r.power hp.bulbs_nodup live power
  have hon := h.poweredOn
  have hold := h.powers b live
  have hoff : powerOff ≠ powerOn := by decide
  have hpowers : ∀ x ∈ r.bulbs, Function.update r.power b power x = powerOff ∨
      Function.update r.power b power x = powerOn := by
    intro x hx
    by_cases hxb : x = b
    · subst hxb
      rw [Function.update_self]
      exact level
    · rw [Function.update_of_ne hxb]
      exact h.powers x hx
  have hpos : 0 ≤ r.counters.bulbsPoweredOn := by omega
  have hsome : r.power b = powerOn → 0 < r.bulbs.countP (fun b => isOn (r.power b)) :=
    fun hb => List.countP_pos_iff.mpr ⟨b,live,hb ▸ isOn_powerOn⟩
  unfold Devices.setPower
  by_cases hsame : power = r.power b
  · subst hsame
    simp only [ne_eq,not_true_eq_false,if_false]
    rw [Function.update_eq_self]
    exact h
  · simp only [ne_eq,hsame,not_false_eq_true,if_true]
    refine ⟨hpowers,?_,h.bulbs,h.gateways,h.ok,?_⟩
    · simp only [count,Stats.add,hon]
      rcases level with rfl | rfl <;> rcases hold with hold | hold
      · exact absurd hold.symm hsame
      · simp only [hold,isOn_powerOn,isOn_powerOff,if_true,Bool.false_eq_true,if_false,hoff] at hcount ⊢
        omega
      · simp only [hold,isOn_powerOn,isOn_powerOff,if_true,Bool.false_eq_true,if_false] at hcount ⊢
        omega
      · exact absurd hold.symm hsame
    · simp only [Stats.get]
      rcases level with rfl | rfl
      · have hb : r.power b = powerOn := hold.resolve_left (fun e => hsame e.symm)
        have := hsome hb
        simp only [hoff,if_false,hon]
        omega
      · simp only [if_true]
        omega

theorem setTags (h : r.Counted) (b : BulbRef) (tags : TagMask) : (r.setTags b tags).Counted :=
  ⟨h.powers,h.poweredOn,h.bulbs,h.gateways,h.ok⟩

theorem op {r' : Devices} (h : r.Counted) (hp : r.Partition) (hop : r.Op r') : r'.Counted := by
  cases hop with
  | openGateway peer new => exact h.openGateway peer
  | openBulb g addr live new => exact h.openBulb hp new
  | closeBulb b live => exact h.closeBulb live
  | dropGateway g live empty => exact h.dropGateway live
  | setPower b power live level => exact h.setPower hp live level

theorem transition {r' : Devices} (h : r.Counted) (hp : r.Partition) (ht : Transition r r') :
    r'.Counted := by
  obtain ⟨mid,hops,hlast⟩ := ht
  have hmid : mid.Partition ∧ mid.Counted := by
    clear hlast
    induction hops with
    | refl => exact ⟨hp,h⟩
    | tail _ hop ih => exact ⟨ih.1.op hop,ih.2.op ih.1 hop⟩
  rcases hlast with rfl | ⟨b,tags,_,rfl⟩
  · exact hmid.2
  · exact hmid.2.setTags b tags

end Counted
end Lightsd.Lifx.Devices
