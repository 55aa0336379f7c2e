import Mathlib

/-! # Numbers and their bytes

A number is written as a fixed count of bytes, least significant first, and read back.
A host keeps numbers in memory in that order or in the reverse one; converting to or from
the little-endian order swaps the bytes on a host of the second kind, so that memory and
the wire agree on either.
-/
namespace ByteOrder

/-- The number that a list of bytes stands for, least significant byte first. -/
def value (bs : List UInt8) : ℕ := Nat.ofDigits 256 (bs.map UInt8.toNat)

/-- The low bytes of a number, least significant first. -/
def bytes (n x : ℕ) : List UInt8 := (List.range n).map (fun i => UInt8.ofNat (x / 256 ^ i))

@[simp] theorem bytes_length (n x : ℕ) : (bytes n x).length = n := by simp [bytes]

@[simp] theorem bytes_zero (x : ℕ) : bytes 0 x = [] := rfl

theorem bytes_succ (n x : ℕ) : bytes (n + 1) x = UInt8.ofNat x :: bytes n (x / 256) := by
  simp only [bytes,List.range_succ_eq_map,List.map_cons,List.map_map,pow_zero,Nat.div_one]
  congr 1
  apply List.map_congr_left
  intro i _
  simp only [Function.comp_apply,Nat.succ_eq_add_one,pow_succ']
  rw [Nat.div_div_eq_div_mul]

@[simp] theorem value_nil : value [] = 0 := rfl

theorem value_cons (b : UInt8) (bs : List UInt8) : value (b :: bs) = b.toNat + 256 * value bs := by
  simp [value,Nat.ofDigits_cons]

theorem value_lt (bs : List UInt8) : value bs < 256 ^ bs.length := by
  induction bs with
  | nil => simp
  | cons b bs ih =>
    have hb := b.toNat_lt
    rw [value_cons,List.length_cons,pow_succ']
    omega

theorem value_bytes {n x : ℕ} (h : x < 256 ^ n) : value (bytes n x) = x := by
  induction n generalizing x with
  | zero =>
    have hx : x = 0 := by simpa using h
    simp [hx]
  | succ n ih =>
    have hdiv : x / 256 < 256 ^ n := by
      apply Nat.div_lt_of_lt_mul
      simpa [pow_succ'] using h
    rw [bytes_succ,value_cons,ih hdiv]
    simp only [UInt8.toNat_ofNat']
    omega

theorem bytes_value (bs : List UInt8) : bytes bs.length (value bs) = bs := by
  induction bs with
  | nil => rfl
  | cons b bs ih =>
    have hb := b.toNat_lt
    have hmod : (b.toNat + 256 * value bs) / 256 = value bs := by omega
    rw [List.length_cons,bytes_succ,value_cons,hmod,ih]
    congr 1
    apply UInt8.toNat_inj.mp
    simp only [UInt8.toNat_ofNat']
    omega

/-- How a host keeps numbers in memory. -/
inductive Order
  | little | big
  deriving DecidableEq

namespace Order

/-- The memory of a number. -/
def store (o : Order) (n x : ℕ) : List UInt8 :=
  match o with
  | little => bytes n x
  | big => (bytes n x).reverse

/-- The number some memory holds. -/
def load (o : Order) (bs : List UInt8) : ℕ :=
  match o with
  | little => value bs
  | big => value bs.reverse

/-- Conversion between the order of the host and the little-endian one, either way. -/
def convert (o : Order) (n x : ℕ) : ℕ :=
  match o with
  | little => x
  | big => value (bytes n x).reverse

@[simp] theorem store_length (o : Order) (n x : ℕ) : (o.store n x).length = n := by
  cases o <;> simp [store]

theorem load_lt (o : Order) (bs : List UInt8) : o.load bs < 256 ^ bs.length := by
  cases o with
  | little => exact value_lt bs
  | big => simpa [load] using value_lt bs.reverse

theorem load_store (o : Order) {n x : ℕ} (h : x < 256 ^ n) : o.load (o.store n x) = x := by
  cases o <;> simp [load,store,value_bytes h]

theorem convert_lt (o : Order) {n x : ℕ} (h : x < 256 ^ n) : o.convert n x < 256 ^ n := by
  cases o with
  | little => exact h
  | big => simpa [convert] using value_lt (bytes n x).reverse

/-- A converted number lies in memory with its least significant byte first. -/
theorem store_convert (o : Order) (n x : ℕ) : o.store n (o.convert n x) = bytes n x := by
  cases o with
  | little => rfl
  | big =>
    have hrev := bytes_value (bytes n x).reverse
    simp only [List.length_reverse,bytes_length] at hrev
    simp [store,convert,hrev]

/-- Bytes that lie in memory least significant first give their number when converted. -/
theorem convert_load (o : Order) (bs : List UInt8) : o.convert bs.length (o.load bs) = value bs := by
  cases o with
  | little => rfl
  | big =>
    have hrev := bytes_value bs.reverse
    simp only [List.length_reverse] at hrev
    simp [convert,load,hrev]

end Order
end ByteOrder
