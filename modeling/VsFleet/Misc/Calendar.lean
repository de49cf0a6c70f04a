import Mathlib.Data.Int.Order.Basic
import Mathlib.Data.Nat.Basic
import Mathlib.Order.Basic

/-!
# The Gregorian calendar

The calendar with its rule of leap years for all years, before its introduction and before the year
0 too. A date is numbered by the days that have passed since the first of January 1970, and a time
of a day by its seconds; each number is that of one date, and each second of one time.
-/

namespace VsFleet

namespace Calendar

/-- Every fourth year, but of the centuries every fourth one. -/
def IsLeap (year : Int) : Prop := year % 4 = 0 ∧ (year % 100 ≠ 0 ∨ year % 400 = 0)

instance (year : Int) : Decidable (IsLeap year) :=
  inferInstanceAs (Decidable (year % 4 = 0 ∧ (year % 100 ≠ 0 ∨ year % 400 = 0)))

/-- The days of a year. -/
def yearLength (year : Int) : Int := if IsLeap year then 366 else 365

/-- The days of a month. -/
def monthLength (year : Int) (month : Nat) : Nat :=
  if month = 2 then if IsLeap year then 29 else 28
  else if month = 4 ∨ month = 6 ∨ month = 9 ∨ month = 11 then 30
  else 31

/-- The days from the first of January of the year 1 to that of a year. -/
def daysBeforeYear (year : Int) : Int :=
  (year - 1) * 365 + (year - 1) / 4 - (year - 1) / 100 + (year - 1) / 400

/-- The days of a year in front of a month. -/
def daysBeforeMonth (year : Int) : Nat → Nat
  | 0 | 1 => 0
  | month + 2 => daysBeforeMonth year (month + 1) + monthLength year (month + 1)

theorem daysBeforeYear_succ (year : Int) :
    daysBeforeYear (year + 1) = daysBeforeYear year + yearLength year := by
  unfold daysBeforeYear yearLength IsLeap
  split_ifs <;> omega

theorem daysBeforeYear_le {year later : Int} (le : year ≤ later) :
    daysBeforeYear year ≤ daysBeforeYear later := by
  unfold daysBeforeYear
  omega

theorem daysBeforeMonth_succ (year : Int) {month : Nat} (pos : 1 ≤ month) :
    daysBeforeMonth year (month + 1) = daysBeforeMonth year month + monthLength year month := by
  obtain ⟨month, rfl⟩ := Nat.exists_eq_add_of_le' pos
  rfl

theorem daysBeforeMonth_le (year : Int) {month later : Nat} (le : month ≤ later) :
    daysBeforeMonth year month ≤ daysBeforeMonth year later := by
  induction le with
  | refl => exact le_rfl
  | @step later _ ih =>
    cases later with
    | zero => exact ih
    | succ later => exact ih.trans (Nat.le_add_right _ _)

theorem monthLength_pos (year : Int) (month : Nat) : 1 ≤ monthLength year month := by
  unfold monthLength
  split_ifs <;> omega

theorem monthLength_le (year : Int) (month : Nat) : monthLength year month ≤ 31 := by
  unfold monthLength
  split_ifs <;> omega

theorem daysBeforeMonth_year (year : Int) : daysBeforeMonth year 13 = yearLength year := by
  by_cases leap : IsLeap year <;> simp [daysBeforeMonth, monthLength, yearLength, leap]

/-! ## Dates -/

/-- A day of the calendar. -/
structure Date where
  year : Int
  month : Nat
  day : Nat
  month_pos : 1 ≤ month
  month_le : month ≤ 12
  day_pos : 1 ≤ day
  day_le : day ≤ monthLength year month

namespace Date

/-- The days since the first of January 1970. -/
def dayNumber (date : Date) : Int :=
  daysBeforeYear date.year + daysBeforeMonth date.year date.month + (date.day - 1) -
    daysBeforeYear 1970

/-- The first day of a year. -/
def newYear (year : Int) : Date :=
  ⟨year, 1, 1, Nat.le_refl 1, by decide, Nat.le_refl 1, monthLength_pos year 1⟩

/-- The day after. -/
def next (date : Date) : Date :=
  if more : date.day < monthLength date.year date.month then
    ⟨date.year, date.month, date.day + 1, date.month_pos, date.month_le, Nat.succ_pos _, more⟩
  else if more : date.month < 12 then
    ⟨date.year, date.month + 1, 1, Nat.succ_pos _, more, Nat.le_refl 1, monthLength_pos _ _⟩
  else newYear (date.year + 1)

theorem dayNumber_newYear (year : Int) :
    (newYear year).dayNumber = daysBeforeYear year - daysBeforeYear 1970 := by
  simp [dayNumber, newYear, daysBeforeMonth]

theorem dayNumber_next (date : Date) : date.next.dayNumber = date.dayNumber + 1 := by
  have day_le := date.day_le
  have month := daysBeforeMonth_succ date.year date.month_pos
  unfold next
  split_ifs
  · simp only [dayNumber]
    omega
  · simp only [dayNumber, month]
    omega
  · have december : date.month = 12 := by
      have := date.month_le
      omega
    have year := daysBeforeMonth_year date.year
    have last : daysBeforeMonth date.year 13 =
        daysBeforeMonth date.year 12 + monthLength date.year 12 := rfl
    rw [dayNumber_newYear, daysBeforeYear_succ, dayNumber]
    simp only [december] at *
    omega

/-- A date lies in its year. -/
theorem dayNumber_bounds (date : Date) :
    daysBeforeYear date.year - daysBeforeYear 1970 ≤ date.dayNumber ∧
      date.dayNumber < daysBeforeYear (date.year + 1) - daysBeforeYear 1970 := by
  have pos := date.day_pos
  have le := date.day_le
  have month := daysBeforeMonth_succ date.year date.month_pos
  have last : daysBeforeMonth date.year (date.month + 1) ≤ daysBeforeMonth date.year 13 :=
    daysBeforeMonth_le date.year (Nat.succ_le_succ date.month_le)
  have year := daysBeforeMonth_year date.year
  rw [daysBeforeYear_succ]
  unfold dayNumber
  omega

/-- The order of the year, the month and the day. -/
def Before (date later : Date) : Prop :=
  date.year < later.year ∨ date.year = later.year ∧
    (date.month < later.month ∨ date.month = later.month ∧ date.day < later.day)

theorem Before.dayNumber_lt {date later : Date} (h : date.Before later) :
    date.dayNumber < later.dayNumber := by
  rcases h with year | ⟨year, month | ⟨month, day⟩⟩
  · have mono : daysBeforeYear (date.year + 1) ≤ daysBeforeYear later.year := daysBeforeYear_le year
    exact date.dayNumber_bounds.2.trans_le ((Int.sub_le_sub_right mono _).trans
      later.dayNumber_bounds.1)
  · have le := date.day_le
    have pos := later.day_pos
    have succ := daysBeforeMonth_succ date.year date.month_pos
    have mono : daysBeforeMonth date.year (date.month + 1) ≤ daysBeforeMonth date.year later.month :=
      daysBeforeMonth_le date.year month
    simp only [dayNumber, ← year]
    omega
  · simp only [dayNumber, ← year, ← month]
    omega

theorem before_or_eq_or_before (date other : Date) :
    date.Before other ∨ date = other ∨ other.Before date := by
  unfold Before
  by_cases same : date.year = other.year ∧ date.month = other.month ∧ date.day = other.day
  · obtain ⟨year, month, day, _⟩ := date
    obtain ⟨rfl, rfl, rfl⟩ := same
    exact .inr (.inl rfl)
  · omega

theorem before_iff {date later : Date} : date.Before later ↔ date.dayNumber < later.dayNumber := by
  refine ⟨Before.dayNumber_lt, fun lt => ?_⟩
  rcases before_or_eq_or_before date later with before | rfl | after
  · exact before
  · exact absurd lt (lt_irrefl _)
  · exact absurd after.dayNumber_lt lt.le.not_gt

theorem dayNumber_injective {date other : Date} (same : date.dayNumber = other.dayNumber) :
    date = other := by
  rcases before_or_eq_or_before date other with before | eq | after
  · exact absurd same before.dayNumber_lt.ne
  · exact eq
  · exact absurd same after.dayNumber_lt.ne'

/-- Every day has a date: the days after that of a year early enough all have one. -/
theorem exists_dayNumber_eq (z : Int) : ∃ date : Date, date.dayNumber = z := by
  have after : ∀ (start : Date) (n : Nat), ∃ date : Date, date.dayNumber = start.dayNumber + n := by
    intro start n
    induction n with
    | zero => exact ⟨start, (Int.add_zero _).symm⟩
    | succ n ih =>
      obtain ⟨date, day⟩ := ih
      exact ⟨date.next, by rw [dayNumber_next, day, Int.natCast_succ, Int.add_assoc]⟩
  have early : (newYear (-z.natAbs)).dayNumber ≤ z := by
    rw [dayNumber_newYear]
    unfold daysBeforeYear
    omega
  obtain ⟨date, day⟩ := after (newYear (-z.natAbs)) (z - (newYear (-z.natAbs)).dayNumber).toNat
  exact ⟨date, by omega⟩

end Date

/-! ## Times -/

/-- A second of a day. -/
structure DateTime where
  date : Date
  hour : Nat
  minute : Nat
  second : Nat
  hour_lt : hour < 24
  minute_lt : minute < 60
  second_lt : second < 60

namespace DateTime

/-- The seconds since midnight. -/
def secondOfDay (t : DateTime) : Nat := t.hour * 3600 + t.minute * 60 + t.second

/-- The seconds since the start of 1970. -/
def epochSecond (t : DateTime) : Int := t.date.dayNumber * 86400 + t.secondOfDay

theorem secondOfDay_lt (t : DateTime) : t.secondOfDay < 86400 := by
  have := t.hour_lt
  have := t.minute_lt
  have := t.second_lt
  unfold secondOfDay
  omega

theorem dayNumber_eq (t : DateTime) : t.date.dayNumber = t.epochSecond / 86400 := by
  have := t.secondOfDay_lt
  unfold epochSecond
  omega

theorem secondOfDay_eq (t : DateTime) : (t.secondOfDay : Int) = t.epochSecond % 86400 := by
  have := t.secondOfDay_lt
  unfold epochSecond
  omega

theorem epochSecond_injective {t u : DateTime} (same : t.epochSecond = u.epochSecond) : t = u := by
  have dates := t.dayNumber_eq
  have seconds := t.secondOfDay_eq
  rw [same, ← u.dayNumber_eq] at dates
  rw [same, ← u.secondOfDay_eq] at seconds
  obtain ⟨date, hour, minute, second, hour_lt, minute_lt, second_lt⟩ := t
  obtain ⟨date', hour', minute', second', hour_lt', minute_lt', second_lt'⟩ := u
  obtain rfl := Date.dayNumber_injective dates
  obtain ⟨rfl, rfl, rfl⟩ : hour = hour' ∧ minute = minute' ∧ second = second' := by
    simp only [secondOfDay] at seconds
    omega
  rfl

theorem exists_epochSecond_eq (epoch : Int) : ∃ t : DateTime, t.epochSecond = epoch := by
  obtain ⟨date, day⟩ := Date.exists_dayNumber_eq (epoch / 86400)
  refine ⟨⟨date, (epoch % 86400).toNat / 3600, (epoch % 86400).toNat % 3600 / 60,
    (epoch % 86400).toNat % 60, by omega, by omega, by omega⟩, ?_⟩
  simp only [epochSecond, secondOfDay, day]
  omega

theorem epochSecond_lt {t u : DateTime} (lt : t.epochSecond < u.epochSecond) :
    t.date.Before u.date ∨ t.date = u.date ∧ t.secondOfDay < u.secondOfDay := by
  have late := t.secondOfDay_lt
  have later := u.secondOfDay_lt
  unfold epochSecond at lt
  rcases lt_trichotomy t.date.dayNumber u.date.dayNumber with before | same | after
  · exact .inl (Date.before_iff.mpr before)
  · exact .inr ⟨Date.dayNumber_injective same, by omega⟩
  · omega

end DateTime

end Calendar

end VsFleet
