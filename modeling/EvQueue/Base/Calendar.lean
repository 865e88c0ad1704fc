import Mathlib.Tactic.Common
import Mathlib.Tactic.IntervalCases

/-!
# Calendar — the proleptic Gregorian calendar

Dates with zero-based months and days, counted in days from 1 January 1970.  The count and the date
determine each other, they are ordered alike, and every date falls on every weekday within seven leap
years of one 400-year cycle.
-/

namespace EvQueue.Calendar

def isLeap (y : Int) : Bool := y % 4 == 0 && (y % 100 != 0 || y % 400 == 0)

def monthLengths (leap : Bool) : List Nat :=
  [31, if leap then 29 else 28, 31, 30, 31, 30, 31, 31, 30, 31, 30, 31]

def monthLength (y : Int) (m : Nat) : Nat := (monthLengths (isLeap y))[m]?.getD 0

/-- The day of year on which month `m` starts. -/
def monthOffset (leap : Bool) (m : Nat) : Nat := ((monthLengths leap).take m).sum

/-- The number of 1 January of year `y`. -/
def yearStart (y : Int) : Int := 365 * (y - 1) + (y - 1) / 4 - (y - 1) / 100 + (y - 1) / 400 - 719162

def monthStart (y : Int) (m : Nat) : Int := yearStart y + monthOffset (isLeap y) m

/-- Sunday is 0; day 0 is a Thursday. -/
def weekday (n : Int) : Nat := ((n + 4) % 7).toNat

structure Date where
  year : Int
  month : Nat
  day : Nat
deriving DecidableEq, Repr

def Date.Valid (d : Date) : Prop := d.month < 12 ∧ d.day < monthLength d.year d.month

def Date.dayNumber (d : Date) : Int := monthStart d.year d.month + d.day

/-- The year that holds day `n`: the 400-year cycle, then the century, the four years and the year
in it.  The last century of a cycle and the last year of four are a day longer. -/
def yearOf (n : Int) : Int :=
  let n := n + 719162
  let inCycle := n % 146097
  let century := min (inCycle / 36524) 3
  let inCentury := inCycle - 36524 * century
  let four := inCentury / 1461
  let year := min ((inCentury - 1461 * four) / 365) 3
  400 * (n / 146097) + 100 * century + 4 * four + year + 1

/-- The month of a day of year, and the day in it. -/
def monthOf : List Nat → Nat → Nat × Nat
  | [], d => (0, d)
  | len :: lens, d =>
      if d < len then (0, d)
      else
        let (m, d') := monthOf lens (d - len)
        (m + 1, d')

def Date.ofDayNumber (n : Int) : Date :=
  let y := yearOf n
  let (month, day) := monthOf (monthLengths (isLeap y)) (n - yearStart y).toNat
  { year := y, month, day }

/-! ## Years -/

theorem isLeap_iff {y : Int} : isLeap y = true ↔ y % 4 = 0 ∧ (y % 100 ≠ 0 ∨ y % 400 = 0) := by
  simp [isLeap]

theorem yearStart_succ (y : Int) :
    yearStart (y + 1) = yearStart y + if isLeap y then 366 else 365 := by
  unfold yearStart
  by_cases hleap : isLeap y = true
  · have h := isLeap_iff.mp hleap
    rw [if_pos hleap]
    omega
  · have h := mt isLeap_iff.mpr hleap
    rw [if_neg hleap]
    omega

theorem yearStart_le {y y' : Int} (h : y ≤ y') : yearStart y ≤ yearStart y' := by
  unfold yearStart
  omega

/-- The first day of a year, from its place in the 400-year cycle. -/
theorem yearStart_cycle {q c f a : Int} (hc : 0 ≤ c ∧ c ≤ 3) (hf : 0 ≤ f ∧ f ≤ 24)
    (ha : 0 ≤ a ∧ a ≤ 3) :
    yearStart (400 * q + 100 * c + 4 * f + a + 1) =
      146097 * q + 36524 * c + 1461 * f + 365 * a - 719162 := by
  have h4 : (400 * q + 100 * c + 4 * f + a + 1 - 1) / 4 = 100 * q + 25 * c + f := by omega
  have h100 : (400 * q + 100 * c + 4 * f + a + 1 - 1) / 100 = 4 * q + c := by omega
  have h400 : (400 * q + 100 * c + 4 * f + a + 1 - 1) / 400 = q := by omega
  unfold yearStart
  rw [h4, h100, h400]
  omega

/-- The parts that `yearOf` finds: the cycle, the century, the four years, the year and the day `r`
of the four years. -/
theorem yearOf_eq (n : Int) : ∃ q c f a r : Int,
    yearOf n = 400 * q + 100 * c + 4 * f + a + 1 ∧
    n = 146097 * q + 36524 * c + 1461 * f + r - 719162 ∧
    (0 ≤ c ∧ c ≤ 3) ∧ (0 ≤ f ∧ f ≤ 24) ∧ (0 ≤ a ∧ a ≤ 3) ∧ 365 * a ≤ r ∧ r ≤ 1460 ∧
    (a < 3 → r < 365 * a + 365) ∧ (f = 24 → c < 3 → r < 1460) := by
  obtain ⟨q, d, hq, hd, hn⟩ : ∃ q d : Int, (n + 719162) / 146097 = q ∧ (n + 719162) % 146097 = d ∧
      n + 719162 = 146097 * q + d := ⟨_, _, rfl, rfl, by omega⟩
  obtain ⟨c, hc⟩ : ∃ c, min (d / 36524) 3 = c := ⟨_, rfl⟩
  obtain ⟨f, hf⟩ : ∃ f, (d - 36524 * c) / 1461 = f := ⟨_, rfl⟩
  obtain ⟨a, ha⟩ : ∃ a, min ((d - 36524 * c - 1461 * f) / 365) 3 = a := ⟨_, rfl⟩
  refine ⟨q, c, f, a, d - 36524 * c - 1461 * f, ?_, by omega, by omega, by omega, by omega, by omega,
    by omega, by omega, by omega⟩
  unfold yearOf
  dsimp only
  rw [hq, hd, hc, hf, ha]

theorem yearOf_spec (n : Int) : yearStart (yearOf n) ≤ n ∧ n < yearStart (yearOf n + 1) := by
  rcases yearOf_eq n with ⟨q, c, f, a, r, hyear, hn, hc, hf, ha, hlow, hhigh, hr, hcentury⟩
  rw [hyear, yearStart_succ (400 * q + 100 * c + 4 * f + a + 1), yearStart_cycle hc hf ha]
  refine ⟨by omega, ?_⟩
  by_cases hleap : isLeap (400 * q + 100 * c + 4 * f + a + 1) = true
  · rw [if_pos hleap]
    omega
  · -- the last year of four has 366 days unless it ends one of the first three centuries
    have hlast : a = 3 → f = 24 ∧ c < 3 := by
      intro h3
      have hno := mt isLeap_iff.mpr hleap
      omega
    rw [if_neg hleap]
    omega

/-! ## Months -/

theorem monthOffset_twelve (leap : Bool) : monthOffset leap 12 = if leap then 366 else 365 := by
  cases leap <;> rfl

theorem monthOffset_succ (leap : Bool) (m : Nat) :
    monthOffset leap (m + 1) = monthOffset leap m + (monthLengths leap)[m]?.getD 0 := by
  unfold monthOffset
  rw [List.take_add_one, List.sum_append]
  cases (monthLengths leap)[m]? <;> simp

theorem monthOffset_le (leap : Bool) {m m' : Nat} (h : m ≤ m') :
    monthOffset leap m ≤ monthOffset leap m' := by
  induction m', h using Nat.le_induction with
  | base => exact Nat.le_refl _
  | succ k _ ih =>
    rw [monthOffset_succ]
    omega

theorem monthStart_succ (y : Int) (m : Nat) :
    monthStart y (m + 1) = monthStart y m + monthLength y m := by
  unfold monthStart monthLength
  rw [monthOffset_succ]
  omega

theorem monthStart_twelve (y : Int) : monthStart y 12 = yearStart (y + 1) := by
  unfold monthStart
  rw [yearStart_succ, monthOffset_twelve]
  split <;> rfl

/-- A month ends before any later one starts. -/
theorem monthStart_add_length_le {y y' : Int} {m m' : Nat} (hm : m < 12)
    (h : y * 12 + m < y' * 12 + m') (hm' : m' < 12) :
    monthStart y m + monthLength y m ≤ monthStart y' m' := by
  rw [← monthStart_succ]
  by_cases hy : y = y'
  · subst hy
    have hle := monthOffset_le (isLeap y) (show m + 1 ≤ m' by omega)
    unfold monthStart
    omega
  · have hend : monthStart y (m + 1) ≤ monthStart y 12 := by
      have hle := monthOffset_le (isLeap y) (show m + 1 ≤ 12 by omega)
      unfold monthStart
      omega
    have hyear := yearStart_le (show y + 1 ≤ y' by omega)
    rw [monthStart_twelve] at hend
    unfold monthStart at *
    omega

theorem monthOf_spec (lens : List Nat) (d : Nat) (h : d < lens.sum) :
    (monthOf lens d).1 < lens.length ∧
      (monthOf lens d).2 < lens[(monthOf lens d).1]?.getD 0 ∧
      (lens.take (monthOf lens d).1).sum + (monthOf lens d).2 = d := by
  induction lens generalizing d with
  | nil => simp at h
  | cons len lens ih =>
    unfold monthOf
    by_cases hd : d < len
    · simp [hd]
    · have hrest : d - len < lens.sum := by
        simp only [List.sum_cons] at h
        omega
      rcases ih (d - len) hrest with ⟨hm, hday, hsum⟩
      rw [if_neg hd]
      refine ⟨by simpa using hm, by simpa using hday, ?_⟩
      simp only [List.take_succ_cons, List.sum_cons]
      omega

theorem monthLength_cases (y : Int) {m : Nat} (hm : m < 12) :
    28 ≤ monthLength y m ∧ monthLength y m ≤ 31 ∧ (m ≠ 1 → 30 ≤ monthLength y m) := by
  unfold monthLength
  cases isLeap y <;> interval_cases m <;> simp [monthLengths]

/-! ## Dates and their numbers -/

theorem Date.ofDayNumber_spec (n : Int) :
    (Date.ofDayNumber n).Valid ∧ (Date.ofDayNumber n).dayNumber = n := by
  rcases yearOf_spec n with ⟨hlow, hhigh⟩
  have hsum : (monthLengths (isLeap (yearOf n))).sum = if isLeap (yearOf n) then 366 else 365 := by
    cases isLeap (yearOf n) <;> rfl
  have hday : (n - yearStart (yearOf n)).toNat < (monthLengths (isLeap (yearOf n))).sum := by
    rw [yearStart_succ] at hhigh
    rw [hsum]
    split at hhigh
    · rename_i hleap
      rw [if_pos hleap]
      omega
    · rename_i hleap
      rw [if_neg hleap]
      omega
  rcases monthOf_spec _ _ hday with ⟨hm, hd, heq⟩
  refine ⟨⟨hm, hd⟩, ?_⟩
  unfold Date.dayNumber Date.ofDayNumber monthStart monthOffset
  dsimp only
  omega

/-- Valid dates are numbered in their order. -/
theorem Date.dayNumber_lt {d d' : Date} (hd : d.Valid) (hm' : d'.month < 12)
    (h : d.year * 12 + d.month < d'.year * 12 + d'.month) : d.dayNumber < d'.dayNumber := by
  have hstart := monthStart_add_length_le hd.1 h hm'
  have hday := hd.2
  unfold Date.dayNumber
  omega

theorem Date.dayNumber_inj {d d' : Date} (hd : d.Valid) (hd' : d'.Valid)
    (h : d.dayNumber = d'.dayNumber) : d = d' := by
  rcases d with ⟨y, m, k⟩
  rcases d' with ⟨y', m', k'⟩
  have hm : m < 12 := hd.1
  have hm' : m' < 12 := hd'.1
  rcases Int.lt_trichotomy (y * 12 + m) (y' * 12 + m') with hlt | heq | hgt
  · have := Date.dayNumber_lt hd (show (⟨y', m', k'⟩ : Date).month < 12 from hm') hlt
    omega
  · obtain rfl : y = y' := by omega
    obtain rfl : m = m' := by omega
    unfold Date.dayNumber at h
    dsimp only at h
    obtain rfl : k = k' := by omega
    rfl
  · have := Date.dayNumber_lt hd' (show (⟨y, m, k⟩ : Date).month < 12 from hm) hgt
    omega

theorem Date.ofDayNumber_dayNumber {d : Date} (hd : d.Valid) : Date.ofDayNumber d.dayNumber = d :=
  Date.dayNumber_inj (Date.ofDayNumber_spec _).1 hd (Date.ofDayNumber_spec _).2

theorem weekday_lt (n : Int) : weekday n < 7 := by
  unfold weekday
  omega

/-- In leap years four years apart a date moves by five weekdays, so seven of them show all. -/
theorem exists_weekday {w : Nat} (hw : w < 7) (m d : Nat) (y₀ : Int) :
    ∃ y, y₀ ≤ y ∧ isLeap y = true ∧ weekday (monthStart y m + d) = w := by
  obtain ⟨k, hk⟩ : ∃ k : Int, k = y₀.natAbs := ⟨_, rfl⟩
  obtain ⟨x, hx⟩ : ∃ x : Int, x = monthOffset true m + d := ⟨_, rfl⟩
  -- 3 is the inverse of 5 modulo 7
  obtain ⟨j, hj⟩ : ∃ j : Int, j = 3 * (w - x + 3) % 7 := ⟨_, rfl⟩
  have hj7 : 0 ≤ j ∧ j < 7 := by omega
  have hleap : isLeap (400 * k + 4 * j + 4) = true := by
    rw [isLeap_iff]
    omega
  refine ⟨400 * k + 4 * j + 4, by omega, hleap, ?_⟩
  have hstart := yearStart_cycle (q := k) (c := 0) (f := j) (a := 3) (by omega) (by omega) (by omega)
  have hyear : 400 * k + 100 * 0 + 4 * j + 3 + 1 = 400 * k + 4 * j + 4 := by omega
  rw [hyear] at hstart
  unfold weekday monthStart
  rw [hleap, hstart]
  omega

end EvQueue.Calendar
