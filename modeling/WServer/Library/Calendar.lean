import Mathlib.Data.Nat.Basic
import Mathlib.Tactic.Common

/-!
# The calendar

A sequence of periods of given lengths, one after the other, and a number that falls into one of them:
`locate` counts the periods before it, and what is left.  The years are periods of days, and so are the
months of a year.

* `start_locate`, `locate_lt` — the period and the rest give the number back;
* `Civil` — the date and the time of day, within their bounds;
* `seconds_civil` — they tell the second since the beginning of 1970.
-/

namespace WServer.Library.Calendar

/-! ### Periods -/

section

variable (len : ℕ → ℕ)

/-- Where a period starts. -/
def start : ℕ → ℕ
  | 0 => 0
  | k + 1 => start k + len k

/-- The period a number falls into, counted from the `k`-th on, in at most the given number of steps. -/
def locateFrom : ℕ → ℕ → ℕ → ℕ × ℕ
  | 0, k, n => (k, n)
  | steps + 1, k, n => if n < len k then (k, n) else locateFrom steps (k + 1) (n - len k)

/-- The period a number falls into, and how far. -/
def locate (n : ℕ) : ℕ × ℕ := locateFrom len n 0 n

variable {len}

theorem locateFrom_spec (hlen : ∀ k, 0 < len k) {steps k n : ℕ} (hsteps : n ≤ steps) :
    start len (locateFrom len steps k n).1 + (locateFrom len steps k n).2 = start len k + n ∧
      (locateFrom len steps k n).2 < len (locateFrom len steps k n).1 := by
  induction steps generalizing k n with
  | zero =>
      obtain rfl := Nat.le_zero.mp hsteps
      exact ⟨rfl, hlen k⟩
  | succ steps ih =>
      rw [locateFrom]
      split
      · next hlt => exact ⟨rfl, hlt⟩
      · next hge =>
          have hpos := hlen k
          obtain ⟨heq, hlt⟩ := ih (k := k + 1) (show n - len k ≤ steps by omega)
          refine ⟨?_, hlt⟩
          rw [heq, start]
          omega

/-- **The period and the rest** give the number back. -/
theorem start_locate (hlen : ∀ k, 0 < len k) (n : ℕ) :
    start len (locate len n).1 + (locate len n).2 = n :=
  (locateFrom_spec hlen (Nat.le_refl n)).1.trans (Nat.zero_add n)

theorem locate_lt (hlen : ∀ k, 0 < len k) (n : ℕ) : (locate len n).2 < len (locate len n).1 :=
  (locateFrom_spec hlen (Nat.le_refl n)).2

theorem start_mono (len : ℕ → ℕ) {j k : ℕ} (h : j ≤ k) : start len j ≤ start len k := by
  induction h with
  | refl => exact Nat.le_refl _
  | step _ ih => exact Nat.le_trans ih (Nat.le_add_right _ _)

/-- A number before the start of a period falls into an earlier one. -/
theorem locate_index_lt (hlen : ∀ k, 0 < len k) {n k : ℕ} (h : n < start len k) : (locate len n).1 < k := by
  by_contra hge
  have hmono := start_mono len (Nat.not_lt.mp hge)
  have heq := start_locate hlen n
  omega

end

/-! ### Years and months -/

def isLeap (year : ℕ) : Bool := year % 4 = 0 ∧ (year % 100 ≠ 0 ∨ year % 400 = 0)

/-- The months of a year, counted from 0 on; those behind the twelfth are never reached. -/
def daysInMonth (year : ℕ) : ℕ → ℕ
  | 1 => if isLeap year then 29 else 28
  | 3 | 5 | 8 | 10 => 30
  | _ => 31

def daysInYear (year : ℕ) : ℕ := if isLeap year then 366 else 365

theorem start_daysInMonth (year : ℕ) : start (daysInMonth year) 12 = daysInYear year := by
  simp only [start, daysInMonth, daysInYear]
  split <;> rfl

theorem daysInMonth_bounds (year month : ℕ) : 0 < daysInMonth year month ∧ daysInMonth year month ≤ 31 := by
  rw [daysInMonth.eq_def]
  split
  · split <;> decide
  · decide
  · decide
  · decide
  · decide
  · decide

theorem daysInYear_pos (year : ℕ) : 0 < daysInYear year := by
  rw [daysInYear]
  split <;> decide

/-! ### Dates -/

/-- A date, and a time of day. -/
structure Civil where
  year : ℕ
  month : ℕ
  day : ℕ
  hour : ℕ
  minute : ℕ
  second : ℕ
  month_le : month ≤ 12
  day_le : day ≤ 31
  hour_lt : hour < 24
  minute_lt : minute < 60
  second_lt : second < 60

namespace Civil

variable (c : Civil)

/-! Every field but the year has at most two digits. -/

theorem month_lt_hundred : c.month < 100 := Nat.lt_of_le_of_lt c.month_le (by decide)

theorem day_lt_hundred : c.day < 100 := Nat.lt_of_le_of_lt c.day_le (by decide)

theorem hour_lt_hundred : c.hour < 100 := Nat.lt_trans c.hour_lt (by decide)

theorem minute_lt_hundred : c.minute < 100 := Nat.lt_trans c.minute_lt (by decide)

theorem second_lt_hundred : c.second < 100 := Nat.lt_trans c.second_lt (by decide)

end Civil

/-- The days of the years from 1970 on. -/
def years (k : ℕ) : ℕ := daysInYear (1970 + k)

theorem years_pos (k : ℕ) : 0 < years k := daysInYear_pos _

/-- The year of a day since the beginning of 1970, counted from there, and the day in it. -/
def yearOf (days : ℕ) : ℕ × ℕ := locate years days

/-- The month of a day of a year, counted from 0 on, and the day in it. -/
def monthOf (year dayOfYear : ℕ) : ℕ × ℕ := locate (daysInMonth year) dayOfYear

theorem monthOf_lt {year dayOfYear : ℕ} (h : dayOfYear < daysInYear year) : (monthOf year dayOfYear).1 < 12 := by
  refine locate_index_lt (fun k => (daysInMonth_bounds year k).1) ?_
  rwa [start_daysInMonth]

theorem monthOf_day_lt (year dayOfYear : ℕ) : (monthOf year dayOfYear).2 < 31 :=
  Nat.lt_of_lt_of_le (locate_lt (fun k => (daysInMonth_bounds year k).1) dayOfYear)
    (daysInMonth_bounds year _).2

/-- The date and the time of a second since the beginning of 1970. -/
def civil (n : ℕ) : Civil :=
  let y := yearOf (n / 86400)
  let m := monthOf (1970 + y.1) y.2
  let s := n % 86400
  { year := 1970 + y.1
    month := m.1 + 1
    day := m.2 + 1
    hour := s / 3600
    minute := s / 60 % 60
    second := s % 60
    month_le := monthOf_lt (locate_lt years_pos _)
    day_le := monthOf_day_lt _ _
    hour_lt := by omega
    minute_lt := Nat.mod_lt _ (by decide)
    second_lt := Nat.mod_lt _ (by decide) }

/-- The second since the beginning of 1970 of a date and a time. -/
def Civil.seconds (c : Civil) : ℕ :=
  (start years (c.year - 1970) + start (daysInMonth c.year) (c.month - 1) + (c.day - 1)) * 86400 +
    c.hour * 3600 + c.minute * 60 + c.second

theorem Civil.seconds_congr {c d : Civil} (hyear : c.year = d.year) (hmonth : c.month = d.month)
    (hday : c.day = d.day) (hhour : c.hour = d.hour) (hminute : c.minute = d.minute)
    (hsecond : c.second = d.second) : c.seconds = d.seconds := by
  rw [Civil.seconds, Civil.seconds, hyear, hmonth, hday, hhour, hminute, hsecond]

/-- **A date and a time** tell the second. -/
theorem seconds_civil (n : ℕ) : (civil n).seconds = n := by
  have hyear := start_locate years_pos (n / 86400)
  have hmonth := start_locate (fun k => (daysInMonth_bounds (1970 + (yearOf (n / 86400)).1) k).1)
    (yearOf (n / 86400)).2
  have hdays : start years (yearOf (n / 86400)).1 +
      start (daysInMonth (1970 + (yearOf (n / 86400)).1))
        (monthOf (1970 + (yearOf (n / 86400)).1) (yearOf (n / 86400)).2).1 +
      (monthOf (1970 + (yearOf (n / 86400)).1) (yearOf (n / 86400)).2).2 = n / 86400 := by
    rw [Nat.add_assoc, monthOf, hmonth]
    exact hyear
  simp only [Civil.seconds, civil, Nat.add_sub_cancel, Nat.add_sub_cancel_left]
  rw [hdays]
  omega

example : (civil 1709210096).seconds = 1709210096 ∧ (civil 1709210096).month = 2 ∧
    (civil 1709210096).day = 29 := by decide

end WServer.Library.Calendar
