import Mathlib

/-! # Days and dates

A position in a row of pieces of different lengths is located by going from piece to piece.
The years from an epoch on are such a row of days, and so are the months of a year. A number
of days since the epoch is turned into a date by locating the year and then the month, and
the date has this number of days before it.
-/
namespace Calendar

section Pieces
variable (len : ℕ → ℕ)

/-- How much lies before a piece. -/
def before : ℕ → ℕ
  | 0 => 0
  | k + 1 => before k + len k

/-- The piece that a position from the start of a piece on lies in, and the position inside
of it. No more pieces are looked at than there is fuel for. -/
def locate : ℕ → ℕ → ℕ → ℕ × ℕ
  | 0, i, n => (i,n)
  | fuel + 1, i, n => if n < len i then (i,n) else locate fuel (i + 1) (n - len i)

theorem before_locate (fuel i n : ℕ) :
    before len (locate len fuel i n).1 + (locate len fuel i n).2 = before len i + n := by
  induction fuel generalizing i n with
  | zero => rfl
  | succ fuel ih =>
    rw [locate]
    split
    next => rfl
    next hge =>
      rw [ih,before]
      omega

theorem locate_lt {fuel i n : ℕ} (h : before len i + n < before len (i + fuel)) :
    (locate len fuel i n).1 < i + fuel ∧ (locate len fuel i n).2 < len (locate len fuel i n).1 := by
  induction fuel generalizing i n with
  | zero =>
    rw [Nat.add_zero] at h
    omega
  | succ fuel ih =>
    rw [locate]
    split
    next hlt => exact ⟨by omega,hlt⟩
    next hge =>
      have hstep : i + (fuel + 1) = i + 1 + fuel := by omega
      rw [hstep] at h ⊢
      exact ih (by rw [before]; omega)

theorem mul_le_before {m : ℕ} (h : ∀ i, m ≤ len i) (k : ℕ) : m * k ≤ before len k := by
  induction k with
  | zero => exact Nat.zero_le _
  | succ k ih =>
    have hk := h k
    rw [before,Nat.mul_succ]
    omega

end Pieces

def isLeap (year : ℕ) : Bool := year % 4 = 0 && (year % 100 ≠ 0 || year % 400 = 0)

def yearLength (year : ℕ) : ℕ := if isLeap year then 366 else 365

/-- The lengths of the months, the first of which has the number 0. -/
def monthLength (year month : ℕ) : ℕ :=
  [31,if isLeap year then 29 else 28,31,30,31,30,31,31,30,31,30,31].getD month 0

theorem before_twelve (year : ℕ) : before (monthLength year) 12 = yearLength year := by
  simp only [before,monthLength,yearLength]
  cases isLeap year <;> rfl

theorem monthLength_le (year month : ℕ) : monthLength year month ≤ 31 := by
  rw [monthLength]
  match month with
  | 0 | 1 | 2 | 3 | 4 | 5 | 6 | 7 | 8 | 9 | 10 | 11 => cases isLeap year <;> simp
  | n + 12 => simp

/-- A date. The first month and the first day of a month have the number 0. -/
structure Date where
  year : ℕ
  month : ℕ
  day : ℕ
  deriving DecidableEq

structure Date.Valid (epoch : ℕ) (d : Date) : Prop where
  year : epoch ≤ d.year
  month : d.month < 12
  day : d.day < monthLength d.year d.month

/-- The number of days from the first day of the epoch to a date. -/
def dayNumber (epoch : ℕ) (d : Date) : ℕ :=
  before (fun i => yearLength (epoch + i)) (d.year - epoch) + before (monthLength d.year) d.month + d.day

/-- The date that some number of days after the first one of the epoch is. -/
def dateOf (epoch days : ℕ) : Date :=
  let (i,rest) := locate (fun i => yearLength (epoch + i)) (days / 365 + 1) 0 days
  let (month,day) := locate (monthLength (epoch + i)) 12 0 rest
  ⟨epoch + i,month,day⟩

theorem locate_year (epoch days : ℕ) :
    let r := locate (fun i => yearLength (epoch + i)) (days / 365 + 1) 0 days
    r.1 ≤ days / 365 ∧ r.2 < yearLength (epoch + r.1) := by
  have hmin : ∀ i, 365 ≤ yearLength (epoch + i) := by
    intro i
    rw [yearLength]
    split <;> omega
  have hlt : before (fun i => yearLength (epoch + i)) 0 + days <
      before (fun i => yearLength (epoch + i)) (0 + (days / 365 + 1)) := by
    have hle := mul_le_before (fun i => yearLength (epoch + i)) hmin (0 + (days / 365 + 1))
    rw [before]
    omega
  obtain ⟨hyear,hrest⟩ := locate_lt _ hlt
  exact ⟨by omega,hrest⟩

theorem locate_month {year rest : ℕ} (h : rest < yearLength year) :
    (locate (monthLength year) 12 0 rest).1 < 12 ∧
      (locate (monthLength year) 12 0 rest).2 < monthLength year (locate (monthLength year) 12 0 rest).1 := by
  have hlt : before (monthLength year) 0 + rest < before (monthLength year) (0 + 12) := by
    rw [Nat.zero_add,before_twelve,before,Nat.zero_add]
    exact h
  exact locate_lt _ hlt

theorem dateOf_valid (epoch days : ℕ) :
    (dateOf epoch days).Valid epoch ∧ (dateOf epoch days).year ≤ epoch + days / 365 := by
  obtain ⟨hyear,hrest⟩ := locate_year epoch days
  obtain ⟨hmonth,hday⟩ := locate_month hrest
  exact ⟨⟨Nat.le_add_right _ _,hmonth,hday⟩,Nat.add_le_add_left hyear epoch⟩

/-- A date is as many days after the first one as it was made from. -/
theorem dayNumber_dateOf (epoch days : ℕ) : dayNumber epoch (dateOf epoch days) = days := by
  have hyear := before_locate (fun i => yearLength (epoch + i)) (days / 365 + 1) 0 days
  have hmonth := before_locate
    (monthLength (epoch + (locate (fun i => yearLength (epoch + i)) (days / 365 + 1) 0 days).1)) 12 0
    (locate (fun i => yearLength (epoch + i)) (days / 365 + 1) 0 days).2
  simp only [before,Nat.zero_add] at hyear hmonth
  simp only [dayNumber,dateOf,Nat.add_sub_cancel_left]
  omega

end Calendar
