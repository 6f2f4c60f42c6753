/-!
# The calendar

Days are counted from 1 January of the year 0 of the proleptic Gregorian calendar. `yearOf` finds
the year of a day (`daysBefore_yearOf`, `lt_daysBefore_yearOf`), and `Date.ofDay` finds its date,
from which `Date.day?` leads back to it (`day?_ofDay`).
-/

namespace TokenAuthority.Time

/-- The days before a year. -/
def daysBefore (year : Int) : Int :=
  365 * year + (year + 3) / 4 - (year + 99) / 100 + (year + 399) / 400

/-- The year of a day: one by the mean length of a year, and one back or on where that errs. -/
def yearOf (day : Int) : Int :=
  let year := 400 * day / 146097
  if day < daysBefore year then year - 1
  else if daysBefore (year + 1) ≤ day then year + 1
  else year

theorem daysBefore_yearOf (day : Int) : daysBefore (yearOf day) ≤ day := by
  unfold yearOf
  extract_lets year
  have h : year = 400 * day / 146097 := rfl
  split
  · simp only [daysBefore] at *
    omega
  · split <;> simp only [daysBefore] at * <;> omega

theorem lt_daysBefore_yearOf (day : Int) : day < daysBefore (yearOf day + 1) := by
  unfold yearOf
  extract_lets year
  have h : year = 400 * day / 146097 := rfl
  split
  · rwa [Int.sub_add_cancel]
  · split <;> simp only [daysBefore] at * <;> omega

def isLeap (year : Int) : Bool :=
  year % 4 == 0 && (year % 100 != 0 || year % 400 == 0)

def monthLengths (year : Int) : List Nat :=
  [31, if isLeap year then 29 else 28, 31, 30, 31, 30, 31, 31, 30, 31, 30, 31]

/-- The days of some months. -/
def totalDays (lengths : List Nat) : Nat := lengths.foldr (· + ·) 0

/-- A date; months and days are counted from one. -/
structure Date where
  year : Int
  month : Nat
  day : Nat
  deriving DecidableEq

/-- The month, counted from `month`, and the day of it, counted from one. -/
def monthOf (month : Nat) : List Nat → Nat → Nat × Nat
  | [], day => (month, day + 1)
  | n :: ns, day => if day < n then (month, day + 1) else monthOf (month + 1) ns (day - n)

/-- The date of a day. -/
def Date.ofDay (day : Int) : Date :=
  let year := yearOf day
  let (month, d) := monthOf 1 (monthLengths year) (day - daysBefore year).toNat
  ⟨year, month, d⟩

/-- The day of a date, if the year has it. -/
def Date.day? (d : Date) : Option Int :=
  let lengths := monthLengths d.year
  if 1 ≤ d.month ∧ d.month ≤ 12 ∧ 1 ≤ d.day ∧ d.day ≤ lengths.getD (d.month - 1) 0 then
    some (daysBefore d.year + totalDays (lengths.take (d.month - 1)) + (d.day - 1 : Nat))
  else none

theorem totalDays_cons (n : Nat) (ns : List Nat) : totalDays (n :: ns) = n + totalDays ns := rfl

theorem totalDays_monthLengths (year : Int) :
    daysBefore year + totalDays (monthLengths year) = daysBefore (year + 1) := by
  have h : (totalDays (monthLengths year) : Int) = if isLeap year then 366 else 365 := by
    unfold monthLengths
    cases isLeap year <;> rfl
  rw [h]
  unfold isLeap daysBefore
  split
  · next hl =>
    simp only [Bool.and_eq_true, Bool.or_eq_true, beq_iff_eq, bne_iff_ne] at hl
    omega
  · next hl =>
    simp only [Bool.and_eq_true, Bool.or_eq_true, beq_iff_eq, bne_iff_ne] at hl
    omega

/-- A month and a day of it that `n` days come before. -/
theorem monthOf_eq : ∀ {lengths : List Nat} {n : Nat} (month : Nat), n < totalDays lengths →
    ∃ i d, monthOf month lengths n = (month + i, d + 1) ∧ i < lengths.length
      ∧ d < lengths.getD i 0 ∧ totalDays (lengths.take i) + d = n
  | [], n, _, h => absurd h n.not_lt_zero
  | k :: ks, n, month, h => by
    rw [monthOf]
    split
    · next hk => exact ⟨0, n, rfl, by simp, by simpa using hk, n.zero_add⟩
    · next hk =>
      rw [totalDays_cons] at h
      obtain ⟨i, d, he, hi, hd, hs⟩ := monthOf_eq (month + 1) (show n - k < totalDays ks by omega)
      refine ⟨i + 1, d, ?_, by simpa using hi, by simpa using hd, ?_⟩
      · rw [he, Nat.add_assoc, Nat.add_comm 1]
      · rw [List.take_succ_cons, totalDays_cons]
        omega

/-- The date of a day is one that its year has, and leads back to the day. -/
theorem day?_ofDay (day : Int) : (Date.ofDay day).day? = some day := by
  have h1 := daysBefore_yearOf day
  have h2 := lt_daysBefore_yearOf day
  rw [← totalDays_monthLengths] at h2
  have hlt : (day - daysBefore (yearOf day)).toNat < totalDays (monthLengths (yearOf day)) := by
    omega
  obtain ⟨i, d, he, hi, hd, hs⟩ := monthOf_eq 1 hlt
  have hl : (monthLengths (yearOf day)).length = 12 := rfl
  simp only [Date.ofDay, he, Date.day?, Nat.add_sub_cancel_left]
  rw [if_pos ⟨by omega, by omega, by omega, by omega⟩, Nat.add_sub_cancel]
  congr 1
  omega

/-- 1 January 1970. -/
def epochDay : Int := 719528

example : Date.ofDay epochDay = ⟨1970, 1, 1⟩ := by decide
example : (Date.mk 2024 2 29).day? = some 739310 := by decide
example : Date.ofDay 739310 = ⟨2024, 2, 29⟩ := by decide
example : (Date.mk 2023 2 29).day? = none := by decide

end TokenAuthority.Time
