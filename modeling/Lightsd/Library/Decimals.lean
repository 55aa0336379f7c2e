import Mathlib

/-! # Decimal numerals

A list of digits stands for a number, most significant digit first. Behind a dot it stands
for a fraction, of which a reader with a fixed number of places takes the digits that fit;
this is the fraction rounded down to that many places. A writer gives a number with a fixed
number of digits and leaves out the zeros at the end, which a reader does not miss.
-/
namespace Decimals

/-- The number with the given digits. -/
def value (ds : List ℕ) : ℕ := ds.foldl (fun n d => 10 * n + d) 0

@[simp] theorem value_nil : value [] = 0 := rfl

theorem foldl_digits (ds : List ℕ) (n : ℕ) :
    ds.foldl (fun n d => 10 * n + d) n = n * 10 ^ ds.length + value ds := by
  induction ds generalizing n with
  | nil => simp
  | cons d ds ih =>
    have hvalue : value (d :: ds) = d * 10 ^ ds.length + value ds := by
      rw [value,List.foldl_cons,ih,Nat.mul_zero,Nat.zero_add]
    rw [List.foldl_cons,ih,hvalue,List.length_cons,pow_succ]
    ring

theorem value_cons (d : ℕ) (ds : List ℕ) : value (d :: ds) = d * 10 ^ ds.length + value ds := by
  rw [value,List.foldl_cons,foldl_digits,Nat.mul_zero,Nat.zero_add]

theorem value_lt {ds : List ℕ} (h : ∀ d ∈ ds, d < 10) : value ds < 10 ^ ds.length := by
  induction ds with
  | nil => simp
  | cons d ds ih =>
    have hd := h d List.mem_cons_self
    have hds := ih (fun e he => h e (List.mem_cons_of_mem _ he))
    rw [value_cons,List.length_cons,pow_succ']
    nlinarith

/-- The places of a fraction that a reader takes, the first one for the given power. -/
def places : ℕ → List ℕ → ℕ
  | 0, _ => 0
  | _ + 1, [] => 0
  | p + 1, d :: ds => d * 10 ^ p + places p ds

@[simp] theorem places_nil (p : ℕ) : places p [] = 0 := by cases p <;> rfl

/-- The places that are taken are the fraction rounded down. -/
theorem places_eq_div {ds : List ℕ} (h : ∀ d ∈ ds, d < 10) (p : ℕ) :
    places p ds = value ds * 10 ^ p / 10 ^ ds.length := by
  induction ds generalizing p with
  | nil => simp
  | cons d ds ih =>
    cases p with
    | zero =>
      have hlt := value_lt h
      rw [pow_zero,Nat.mul_one,Nat.div_eq_of_lt hlt]
      rfl
    | succ p =>
      have hds := ih (fun e he => h e (List.mem_cons_of_mem _ he)) p
      have hpos : 0 < 10 ^ ds.length := by positivity
      have hshift : (d * 10 ^ ds.length + value ds) * 10 ^ p =
          value ds * 10 ^ p + d * 10 ^ p * 10 ^ ds.length := by ring
      rw [places,hds,value_cons,List.length_cons,pow_succ,pow_succ,← Nat.mul_assoc,
        Nat.mul_div_mul_right _ _ (by norm_num : 0 < 10),hshift,Nat.add_mul_div_right _ _ hpos,
        Nat.add_comm]

theorem places_lt {ds : List ℕ} (h : ∀ d ∈ ds, d < 10) (p : ℕ) : places p ds < 10 ^ p := by
  rw [places_eq_div h,Nat.div_lt_iff_lt_mul (by positivity),Nat.mul_comm]
  exact Nat.mul_lt_mul_of_pos_left (value_lt h) (by positivity)

theorem places_eq_zero {ds : List ℕ} (h : value ds = 0) (hlt : ∀ d ∈ ds, d < 10) (p : ℕ) :
    places p ds = 0 := by
  rw [places_eq_div hlt,h,Nat.zero_mul,Nat.zero_div]

/-- The number in front of a dot and the fraction behind it, rounded down to some places. -/
theorem floor_places {ds : List ℕ} (h : ∀ d ∈ ds, d < 10) (n p : ℕ) :
    ⌊((n : ℚ) + value ds / 10 ^ ds.length) * 10 ^ p⌋ = (n * 10 ^ p + places p ds : ℕ) := by
  have hpos : 0 < 10 ^ ds.length := by positivity
  have hq : ((n : ℚ) + value ds / 10 ^ ds.length) * 10 ^ p =
      ((value ds * 10 ^ p + n * 10 ^ p * 10 ^ ds.length : ℕ) : ℚ) / ((10 ^ ds.length : ℕ) : ℚ) := by
    push_cast
    field_simp
    ring
  rw [hq,Rat.floor_natCast_div_natCast,← Int.natCast_div,Nat.add_mul_div_right _ _ hpos,places_eq_div h,Nat.add_comm]

/-- A given number of digits of a number. -/
def digits : ℕ → ℕ → List ℕ
  | 0, _ => []
  | k + 1, n => n / 10 ^ k :: digits k (n % 10 ^ k)

@[simp] theorem length_digits (k n : ℕ) : (digits k n).length = k := by
  induction k generalizing n with
  | zero => rfl
  | succ k ih => rw [digits,List.length_cons,ih]

theorem digits_lt {k n : ℕ} (h : n < 10 ^ k) : ∀ d ∈ digits k n, d < 10 := by
  induction k generalizing n with
  | zero => simp [digits]
  | succ k ih =>
    have hpos : 0 < 10 ^ k := by positivity
    intro d hd
    rcases List.mem_cons.mp hd with rfl | hd
    · rw [Nat.div_lt_iff_lt_mul hpos]
      rwa [pow_succ'] at h
    · exact ih (Nat.mod_lt _ hpos) d hd

theorem value_digits {k n : ℕ} (h : n < 10 ^ k) : value (digits k n) = n := by
  induction k generalizing n with
  | zero =>
    rw [pow_zero,Nat.lt_one_iff] at h
    exact h.symm
  | succ k ih =>
    rw [digits,value_cons,length_digits,ih (Nat.mod_lt _ (by positivity))]
    exact Nat.div_add_mod' n (10 ^ k)

theorem value_eq_ofDigits (ds : List ℕ) : value ds = Nat.ofDigits 10 ds.reverse := by
  rw [Nat.ofDigits_eq_foldr,List.foldr_reverse,value]
  congr 1
  funext n d
  rw [Nat.add_comm]
  rfl

/-- As many digits as a number has. -/
theorem digits_eq_reverse {k n : ℕ} (h : (Nat.digits 10 n).length = k) :
    digits k n = (Nat.digits 10 n).reverse := by
  have hlt : n < 10 ^ k := by
    rw [← h]
    exact Nat.lt_base_pow_length_digits (by norm_num)
  have hvalue : Nat.ofDigits 10 (digits k n).reverse = Nat.ofDigits 10 (Nat.digits 10 n) := by
    rw [← value_eq_ofDigits,value_digits hlt,Nat.ofDigits_digits]
  have heq := Nat.ofDigits_inj_of_len_eq (by norm_num) (by rw [List.length_reverse,length_digits,h])
    (fun d hd => digits_lt hlt d (List.mem_reverse.mp hd)) (fun d hd => Nat.digits_lt_base (by norm_num) hd) hvalue
  rw [← heq,List.reverse_reverse]

theorem digits_pad {k n : ℕ} (h : n < 10 ^ k) (j : ℕ) : digits (j + k) n = List.replicate j 0 ++ digits k n := by
  induction j with
  | zero => rw [Nat.zero_add,List.replicate_zero,List.nil_append]
  | succ j ih =>
    have hlt : n < 10 ^ (j + k) := h.trans_le (Nat.pow_le_pow_right (by norm_num) (Nat.le_add_left k j))
    rw [Nat.add_right_comm,digits,Nat.div_eq_of_lt hlt,Nat.mod_eq_of_lt hlt,ih]
    rfl

/-- A list without the zeros at its end. -/
def dropZeros : List ℕ → List ℕ
  | [] => []
  | d :: ds => if d = 0 ∧ dropZeros ds = [] then [] else d :: dropZeros ds

theorem mem_of_mem_dropZeros {ds : List ℕ} {d : ℕ} (h : d ∈ dropZeros ds) : d ∈ ds := by
  induction ds with
  | nil => exact h
  | cons e ds ih =>
    rw [dropZeros] at h
    split at h
    · cases h
    · rcases List.mem_cons.mp h with rfl | h
      · exact List.mem_cons_self
      · exact List.mem_cons_of_mem _ (ih h)

theorem length_dropZeros_le (ds : List ℕ) : (dropZeros ds).length ≤ ds.length := by
  induction ds with
  | nil => exact le_rfl
  | cons d ds ih =>
    rw [dropZeros]
    split
    · exact Nat.zero_le _
    · exact Nat.succ_le_succ ih

theorem dropZeros_digits_zero (k : ℕ) : dropZeros (digits k 0) = [] := by
  induction k with
  | zero => rfl
  | succ k ih => rw [digits,dropZeros,Nat.zero_mod,if_pos ⟨Nat.zero_div _,ih⟩]

theorem dropZeros_append {as bs : List ℕ} (h : dropZeros bs ≠ []) :
    dropZeros (as ++ bs) = as ++ dropZeros bs := by
  induction as with
  | nil => rfl
  | cons a as ih =>
    have hne : dropZeros (as ++ bs) ≠ [] := by
      rw [ih]
      exact List.append_ne_nil_of_right_ne_nil _ h
    rw [List.cons_append,dropZeros,if_neg (fun hboth => hne hboth.2),ih]
    rfl

theorem places_dropZeros (p : ℕ) (ds : List ℕ) : places p (dropZeros ds) = places p ds := by
  induction ds generalizing p with
  | nil => rfl
  | cons d ds ih =>
    cases p with
    | zero => rfl
    | succ p =>
      rw [dropZeros]
      split
      next h =>
        have hrest := ih p
        rw [h.2,places_nil] at hrest
        rw [places_nil,places,h.1,← hrest]
        simp
      next h => rw [places,places,ih p]

/-- A reader with enough places takes the whole number behind the dot. -/
theorem places_dropZeros_digits {p n : ℕ} (h : n < 10 ^ p) : places p (dropZeros (digits p n)) = n := by
  rw [places_dropZeros,places_eq_div (digits_lt h),value_digits h,length_digits]
  exact Nat.mul_div_cancel _ (by positivity)

theorem dropZeros_digits_ne_nil {p n : ℕ} (h : n < 10 ^ p) (hne : n ≠ 0) : dropZeros (digits p n) ≠ [] := by
  intro hnil
  have hplaces := places_dropZeros_digits h
  rw [hnil,places_nil] at hplaces
  exact hne hplaces.symm

end Decimals
