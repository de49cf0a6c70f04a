import Mathlib.Tactic.IntervalCases
import VsFleet.Hub.Persist
import VsFleet.Misc.Calendar
import VsFleet.Misc.FixedWidth

/-!
# The time stamps of the Hub

`civil_from_days` counts in eras of 400 years that begin in March, so that the leap day is the last
of its year and every era has as many days. A stamp has a field of its width for each part of a
time, so stamps are ordered as texts as their times are.
-/

namespace VsFleet

/-! ## The year that begins in March -/

namespace Calendar

theorem daysBeforeMonth_march (year : Int) {month : Nat} (pos : 3 ≤ month) (le : month ≤ 12) :
    daysBeforeMonth year month =
      (153 * (month - 3) + 2) / 5 + if IsLeap year then 60 else 59 := by
  interval_cases month <;> by_cases leap : IsLeap year <;>
    simp [daysBeforeMonth, monthLength, leap]

theorem monthLength_march (year : Int) {month : Nat} (pos : 3 ≤ month) (le : month ≤ 12) :
    monthLength year month = (153 * (month - 2) + 2) / 5 - (153 * (month - 3) + 2) / 5 := by
  interval_cases month <;> rfl

namespace Date

/-- The year that begins in March. -/
def marchYear (date : Date) : Int := if date.month ≤ 2 then date.year - 1 else date.year

/-- The months since March. -/
def marchMonth (date : Date) : Int := if date.month ≤ 2 then date.month + 9 else date.month - 3

/-- The days since the first of March. -/
def marchDay (date : Date) : Int := (153 * date.marchMonth + 2) / 5 + date.day - 1

theorem dayNumber_march (date : Date) : date.dayNumber + 719468 = date.marchYear * 365 +
    date.marchYear / 4 - date.marchYear / 100 + date.marchYear / 400 + date.marchDay := by
  have pos := date.month_pos
  have le := date.month_le
  have unix : daysBeforeYear 1970 = 719162 := by decide
  simp only [dayNumber, marchDay, marchYear, marchMonth, unix]
  split
  · obtain first | second : date.month = 1 ∨ date.month = 2 := by omega
    · simp only [first, daysBeforeMonth, daysBeforeYear]
      omega
    · simp only [second, daysBeforeMonth, monthLength, daysBeforeYear]
      norm_num
      omega
  · have before := daysBeforeMonth_march date.year (by omega) le
    rw [before]
    unfold daysBeforeYear
    split
    · rename_i leap
      unfold IsLeap at leap
      omega
    · rename_i leap
      unfold IsLeap at leap
      omega

theorem marchDay_bounds (date : Date) : 0 ≤ date.marchDay ∧ date.marchDay ≤ 365 ∧
    (date.marchDay = 365 → IsLeap (date.marchYear + 1)) ∧
    (5 * date.marchDay + 2) / 153 = date.marchMonth := by
  have pos := date.month_pos
  have le := date.month_le
  have day_pos := date.day_pos
  have day_le := date.day_le
  simp only [marchDay, marchYear, marchMonth]
  split
  · obtain first | second : date.month = 1 ∨ date.month = 2 := by omega
    · have january : monthLength date.year 1 = 31 := rfl
      rw [first, january] at day_le
      rw [first]
      omega
    · have february : monthLength date.year 2 = if IsLeap date.year then 29 else 28 := rfl
      rw [second, february] at day_le
      rw [second, sub_add_cancel]
      split at day_le
      · exact ⟨by omega, by omega, fun _ => ‹_›, by omega⟩
      · omega
  · obtain ⟨march, month⟩ := Nat.exists_eq_add_of_le' (show 3 ≤ date.month by omega)
    have length := monthLength_march date.year (show 3 ≤ date.month by omega) le
    have since : ((date.month : Int) - 3) = march := by omega
    rw [length, show date.month - 2 = march + 1 by omega, show date.month - 3 = march by omega]
      at day_le
    rw [since]
    have last : march ≤ 9 := by omega
    clear month length since
    interval_cases march <;> omega
end Date

end Calendar

/-! ## Days and dates -/

section Civil

/-- The era of a shifted day, by a division that truncates. -/
theorem tdiv_era (n : Int) : (if n ≥ 0 then n else n - 146096).tdiv 146097 = n / 146097 := by
  split
  · rw [Int.tdiv_eq_ediv_of_nonneg ‹_›]
  · have neg : n - 146096 = -(146096 - n) := by omega
    rw [neg, Int.neg_tdiv, Int.tdiv_eq_ediv_of_nonneg (by omega)]
    omega

/-- The year of an era from the day of it: the leap days of the years before are taken off. -/
theorem yearOfEra {n k : Int} (n_lo : 0 ≤ n) (n_hi : n < 400) (k_lo : 0 ≤ k) (k_hi : k ≤ 365)
    (leap : k = 365 → Calendar.IsLeap (n + 1)) {e : Int}
    (day : e = n * 365 + n / 4 - n / 100 + k) :
    (e - e / 1460 + e / 36524 - e / 146096) / 365 = n := by
  unfold Calendar.IsLeap at leap
  have centuries : e / 36524 - e / 146096 = n / 100 := by
    by_cases last : e = 146096
    · omega
    · have low : 36524 * (n / 100) ≤ e := by omega
      have high : e < 36524 * (n / 100) + 36524 := by
        by_cases full : k = 365
        · have leap := leap full
          have fourth : n % 4 = 3 := by omega
          have century : n % 100 ≠ 99 ∨ n = 399 := by omega
          omega
        · omega
      have none_last : e / 146096 = 0 := by omega
      omega
  -- the leap day of the own year is the last one, and comes off only then
  have quarters : e / 1460 = n / 4 ∨ e / 1460 = n / 4 + 1 ∧ 1 ≤ k := by omega
  have short : k = 365 → e / 1460 = n / 4 + 1 := by
    intro full
    have leap := leap full
    have fourth : n % 4 = 3 := by omega
    omega
  omega

/-- What `civil_from_days` comes to on its way for the day of a date. -/
theorem civil_parts (date : Calendar.Date) {n doe : Int} (shifted : n = date.dayNumber + 719468)
    (day : doe = n - n / 146097 * 146097) :
    n / 146097 = date.marchYear / 400 ∧ 0 ≤ doe ∧ doe < 146097 ∧
      (doe - doe / 1460 + doe / 36524 - doe / 146096) / 365 = date.marchYear % 400 ∧
      doe - (365 * (date.marchYear % 400) + date.marchYear % 400 / 4 -
        date.marchYear % 400 / 100) = date.marchDay := by
  obtain ⟨day_lo, day_hi, leap, -⟩ := date.marchDay_bounds
  rw [date.dayNumber_march] at shifted
  have leap_of_era : date.marchDay = 365 → Calendar.IsLeap (date.marchYear % 400 + 1) := by
    intro full
    have leap := leap full
    unfold Calendar.IsLeap at leap ⊢
    omega
  have within : date.marchYear % 400 * 365 + date.marchYear % 400 / 4 -
      date.marchYear % 400 / 100 + date.marchDay < 146097 := by
    by_cases full : date.marchDay = 365
    · have leap := leap_of_era full
      unfold Calendar.IsLeap at leap
      omega
    · omega
  have fourths : date.marchYear / 4 = date.marchYear / 400 * 100 + date.marchYear % 400 / 4 := by
    omega
  have centuries : date.marchYear / 100 = date.marchYear / 400 * 4 + date.marchYear % 400 / 100 := by
    omega
  have era : n / 146097 = date.marchYear / 400 := by omega
  have doe_eq : doe = date.marchYear % 400 * 365 + date.marchYear % 400 / 4 -
      date.marchYear % 400 / 100 + date.marchDay := by omega
  refine ⟨era, by omega, by omega, ?_, by omega⟩
  exact yearOfEra (by omega) (by omega) day_lo day_hi leap_of_era doe_eq

theorem marchMonth_month (date : Calendar.Date) :
    (if date.marchMonth < 10 then date.marchMonth + 3 else date.marchMonth - 9) = date.month := by
  have pos := date.month_pos
  have le := date.month_le
  unfold Calendar.Date.marchMonth
  split_ifs <;> omega

theorem marchYear_year (date : Calendar.Date) :
    (if (date.month : Int) ≤ 2 then date.marchYear + 1 else date.marchYear) = date.year := by
  unfold Calendar.Date.marchYear
  split_ifs <;> omega

theorem marchDay_day (date : Calendar.Date) :
    date.marchDay - (153 * date.marchMonth + 2) / 5 + 1 = date.day := by
  unfold Calendar.Date.marchDay
  omega

/-- `civil_from_days` inverts the numbering of the days. -/
theorem civilFromDays_dayNumber (date : Calendar.Date) :
    civilFromDays date.dayNumber = (date.year, (date.month : Int), (date.day : Int)) := by
  obtain ⟨era, doe_lo, doe_hi, yoe, doy⟩ := civil_parts date rfl rfl
  obtain ⟨day_lo, day_hi, -, mp⟩ := date.marchDay_bounds
  simp only [civilFromDays, tdiv_era]
  generalize date.dayNumber + 719468 - (date.dayNumber + 719468) / 146097 * 146097 = doe at *
  simp (disch := omega) only [Int.tdiv_eq_ediv_of_nonneg]
  rw [yoe]
  simp (disch := omega) only [Int.tdiv_eq_ediv_of_nonneg]
  rw [doy, mp, era, marchMonth_month]
  have whole : date.marchYear % 400 + date.marchYear / 400 * 400 = date.marchYear := by omega
  rw [marchDay_day, whole, marchYear_year]

end Civil

/-! ## Overflow -/

/-- The result of an operation on `i64`, which must be in its range. -/
def checkedI64 (n : Int) : Option Int :=
  if -0x8000000000000000 ≤ n ∧ n < 0x8000000000000000 then some n else none

/-- `civil_from_days` once more, with every operation on `i64` that could overflow: `none` is an
overflow. -/
def tryCivilFromDays (z : Int) : Option (Int × Int × Int) := do
  let z ← checkedI64 (z + 719468)
  let back ← (if z ≥ 0 then some z else checkedI64 (z - 146096))
  let era := back.tdiv 146097
  let eraDays ← checkedI64 (era * 146097)
  let doe ← checkedI64 (z - eraDays)
  let leapless ← checkedI64 (doe - doe.tdiv 1460)
  let leapless ← checkedI64 (leapless + doe.tdiv 36524)
  let leapless ← checkedI64 (leapless - doe.tdiv 146096)
  let yoe := leapless.tdiv 365
  let eraYears ← checkedI64 (era * 400)
  let y ← checkedI64 (yoe + eraYears)
  let yearDays ← checkedI64 (365 * yoe)
  let yearDays ← checkedI64 (yearDays + yoe.tdiv 4)
  let yearDays ← checkedI64 (yearDays - yoe.tdiv 100)
  let doy ← checkedI64 (doe - yearDays)
  let fifths ← checkedI64 (5 * doy)
  let fifths ← checkedI64 (fifths + 2)
  let mp := fifths.tdiv 153
  let monthDays ← checkedI64 (153 * mp)
  let monthDays ← checkedI64 (monthDays + 2)
  let d ← checkedI64 (doy - monthDays.tdiv 5)
  let d ← checkedI64 (d + 1)
  let m ← (if mp < 10 then checkedI64 (mp + 3) else checkedI64 (mp - 9))
  let y ← (if m ≤ 2 then checkedI64 (y + 1) else some y)
  return (y, m, d)

theorem checkedI64_of {n : Int} (low : -0x8000000000000000 ≤ n) (high : n < 0x8000000000000000) :
    checkedI64 n = some n := if_pos ⟨low, high⟩

theorem checkedI64_bind {α : Type} {n : Int} {rest : Int → Option α}
    (low : -0x8000000000000000 ≤ n) (high : n < 0x8000000000000000) :
    (checkedI64 n).bind rest = rest n := by
  rw [checkedI64_of low high, Option.bind_some]

theorem tryCivilFromDays_dayNumber (date : Calendar.Date)
    (low : -0x8000000000000000 ≤ date.dayNumber)
    (high : date.dayNumber + 719468 < 0x8000000000000000) :
    tryCivilFromDays date.dayNumber = some (date.year, (date.month : Int), (date.day : Int)) := by
  obtain ⟨era, doe_lo, doe_hi, yoe, doy⟩ := civil_parts date rfl rfl
  obtain ⟨day_lo, day_hi, -, mp⟩ := date.marchDay_bounds
  have whole : date.marchYear % 400 + date.marchYear / 400 * 400 = date.marchYear := by omega
  have back : (if date.dayNumber + 719468 ≥ 0 then some (date.dayNumber + 719468)
      else checkedI64 (date.dayNumber + 719468 - 146096)) =
      some (if date.dayNumber + 719468 ≥ 0 then date.dayNumber + 719468
        else date.dayNumber + 719468 - 146096) := by
    split
    · rfl
    · exact checkedI64_of (by omega) (by omega)
  have month : (if date.marchMonth < 10 then checkedI64 (date.marchMonth + 3)
      else checkedI64 (date.marchMonth - 9)) = some (date.month : Int) := by
    rw [← marchMonth_month date]
    split <;> exact checkedI64_of (by omega) (by omega)
  have year : (if (date.month : Int) ≤ 2 then checkedI64 (date.marchYear + 1)
      else some date.marchYear) = some date.year := by
    rw [← marchYear_year date]
    split
    · exact checkedI64_of (by omega) (by omega)
    · rfl
  unfold tryCivilFromDays
  rw [Option.bind_eq_bind, checkedI64_bind (by omega) high, back, Option.bind_some, tdiv_era]
  dsimp only
  rw [checkedI64_bind (by omega) (by omega), checkedI64_bind (by omega) (by omega)]
  -- from the day of the era on, nothing is negative and no number is large
  generalize date.dayNumber + 719468 - (date.dayNumber + 719468) / 146097 * 146097 = doe at *
  rw [Int.tdiv_eq_ediv_of_nonneg doe_lo, checkedI64_bind (by omega) (by omega),
    Int.tdiv_eq_ediv_of_nonneg doe_lo, checkedI64_bind (by omega) (by omega),
    Int.tdiv_eq_ediv_of_nonneg doe_lo, checkedI64_bind (by omega) (by omega),
    Int.tdiv_eq_ediv_of_nonneg (by omega), yoe, era]
  -- but the year itself, which the day number bounds
  rw [checkedI64_bind (by omega) (by omega), checkedI64_bind (by omega) (by omega), whole]
  generalize date.marchYear % 400 = n at *
  have n_lo : 0 ≤ n := by omega
  rw [checkedI64_bind (by omega) (by omega),
    Int.tdiv_eq_ediv_of_nonneg n_lo, checkedI64_bind (by omega) (by omega),
    Int.tdiv_eq_ediv_of_nonneg n_lo, checkedI64_bind (by omega) (by omega),
    checkedI64_bind (by omega) (by omega), doy]
  rw [checkedI64_bind (by omega) (by omega), checkedI64_bind (by omega) (by omega),
    Int.tdiv_eq_ediv_of_nonneg (by omega), mp, month]
  rw [checkedI64_bind (by omega) (by omega), checkedI64_bind (by omega) (by omega),
    Int.tdiv_eq_ediv_of_nonneg (by omega), checkedI64_bind (by omega) (by omega),
    checkedI64_bind (by omega) (by omega), marchDay_day, Option.bind_some, year]
  rfl

/-! ## Texts -/

/-- The text that `format_iso` puts together. -/
def isoText (rem : Int) : Int × Int × Int → String
  | (y, m, d) => padded 4 y ++ "-" ++ padded 2 m ++ "-" ++ padded 2 d ++ "T" ++
      padded 2 (rem.tdiv 3600) ++ ":" ++ padded 2 ((rem.tmod 3600).tdiv 60) ++ ":" ++
      padded 2 (rem.tmod 60) ++ "Z"

theorem formatIso_isoText (epoch : Int) :
    formatIso epoch = isoText (epoch % 86400) (civilFromDays (epoch / 86400)) := rfl

/-- `format_iso` once more: only the operations of `civil_from_days` could overflow. -/
def tryFormatIso (epoch : Int) : Option String :=
  (tryCivilFromDays (epoch / 86400)).map (isoText (epoch % 86400))

theorem padded_eq (width : Nat) {n : Nat} (fits : n < 10 ^ (width + 1)) :
    padded (width + 1) n = String.ofList (fixedDigits (width + 1) n) := by
  have sign : ¬ (n : Int) < 0 := by omega
  have digits : toString n = String.ofList (Nat.toDigits 10 n) := rfl
  rw [← padded_toDigits width fits]
  simp only [padded, sign, if_false, Int.natAbs_natCast, digits]
  have unsigned : "".length = 0 := rfl
  rw [unsigned, Nat.sub_zero, String.empty_append, String.ofList_append, String.length_ofList]

namespace Calendar

namespace DateTime

/-- The year has four digits. -/
def FourDigits (t : DateTime) : Prop := 0 ≤ t.date.year ∧ t.date.year ≤ 9999

/-- The numbers that a stamp spells, in their order. -/
def isoFields (t : DateTime) : List Nat :=
  [t.date.year.toNat, t.date.month, t.date.day, t.hour, t.minute, t.second]

/-- `YYYY-MM-DDTHH:MM:SSZ`. -/
def isoPattern : List (Nat × Char) := [(4, '-'), (2, '-'), (2, 'T'), (2, ':'), (2, ':'), (2, 'Z')]

/-- The stamp of a date and a time of day. -/
def iso (t : DateTime) : String := String.ofList (fillIn isoPattern t.isoFields)

variable {t u : DateTime}

theorem FourDigits.fits (year : t.FourDigits) : Fits isoPattern t.isoFields := by
  have month := t.date.month_le
  have day := t.date.day_le.trans (monthLength_le t.date.year t.date.month)
  have hour := t.hour_lt
  have minute := t.minute_lt
  have second := t.second_lt
  obtain ⟨low, high⟩ := year
  simp only [Fits, isoPattern, isoFields, List.forall₂_cons, List.Forall₂.nil, and_true,
    Nat.reducePow]
  omega

theorem isoFields_lt (year : t.FourDigits) (lt : t.epochSecond < u.epochSecond) :
    t.isoFields < u.isoFields := by
  have low := year.1
  rcases epochSecond_lt lt with before | ⟨same, later⟩
  · unfold Date.Before at before
    simp only [isoFields, List.cons_lt_cons_iff]
    omega
  · simp only [isoFields, List.cons_lt_cons_iff, same, secondOfDay, lt_self_iff_false, false_or,
      true_and] at later ⊢
    have := t.minute_lt
    have := u.minute_lt
    have := t.second_lt
    have := u.second_lt
    omega

theorem iso_lt (year : t.FourDigits) (later : u.FourDigits) (lt : t.epochSecond < u.epochSecond) :
    t.iso < u.iso := by
  rw [String.lt_iff, iso, iso, String.toList_ofList, String.toList_ofList]
  exact fillIn_lt year.fits later.fits (isoFields_lt year lt)

/-- The hour, the minute and the second as `format_iso` takes them from the second of the day. -/
theorem clock (t : DateTime) : (t.secondOfDay : Int).tdiv 3600 = t.hour ∧
    ((t.secondOfDay : Int).tmod 3600).tdiv 60 = t.minute ∧
    (t.secondOfDay : Int).tmod 60 = t.second := by
  have minute := t.minute_lt
  have second := t.second_lt
  have pos : (0 : Int) ≤ t.secondOfDay := Int.natCast_nonneg _
  rw [Int.tdiv_eq_ediv_of_nonneg pos, Int.tmod_eq_emod_of_nonneg pos,
    Int.tmod_eq_emod_of_nonneg pos, Int.tdiv_eq_ediv_of_nonneg (by omega), secondOfDay]
  omega

theorem FourDigits.formatIso_eq (year : t.FourDigits) : formatIso t.epochSecond = t.iso := by
  obtain ⟨hour, minute, second⟩ := t.clock
  have year_eq : t.date.year = (t.date.year.toNat : Int) := (Int.toNat_of_nonneg year.1).symm
  have fits := year.fits
  simp only [Fits, isoPattern, isoFields, List.forall₂_cons, List.Forall₂.nil, and_true] at fits
  obtain ⟨year_fits, month_fits, day_fits, hour_fits, minute_fits, second_fits⟩ := fits
  rw [formatIso_isoText, ← t.dayNumber_eq, ← t.secondOfDay_eq, civilFromDays_dayNumber, isoText, hour,
    minute, second, year_eq, padded_eq 3 year_fits, padded_eq 1 month_fits, padded_eq 1 day_fits,
    padded_eq 1 hour_fits, padded_eq 1 minute_fits, padded_eq 1 second_fits]
  apply String.toList_inj.mp
  simp [iso, isoPattern, isoFields, fillIn]

end DateTime

end Calendar

theorem tryFormatIso_eq {epoch : Int} (low : -0x8000000000000000 ≤ epoch)
    (high : epoch < 0x8000000000000000) : tryFormatIso epoch = some (formatIso epoch) := by
  obtain ⟨date, day⟩ := Calendar.Date.exists_dayNumber_eq (epoch / 86400)
  have civil := tryCivilFromDays_dayNumber date (by omega) (by omega)
  rw [tryFormatIso, formatIso_isoText, ← day, civil, civilFromDays_dayNumber]
  rfl

/-- `civil_from_days` gives the date of every day and `format_iso` the time of every second, with no
overflow, and a later second has a greater text. -/
theorem formatIso_calendar :
    (∀ z : Int, ∃! date : Calendar.Date, date.dayNumber = z) ∧
    (∀ date : Calendar.Date,
      civilFromDays date.dayNumber = (date.year, (date.month : Int), (date.day : Int))) ∧
    (∀ date : Calendar.Date, -0x8000000000000000 ≤ date.dayNumber →
      date.dayNumber + 719468 < 0x8000000000000000 →
      tryCivilFromDays date.dayNumber = some (date.year, (date.month : Int), (date.day : Int))) ∧
    (∀ epoch : Int, ∃! t : Calendar.DateTime, t.epochSecond = epoch) ∧
    (∀ epoch : Int, -0x8000000000000000 ≤ epoch → epoch < 0x8000000000000000 →
      tryFormatIso epoch = some (formatIso epoch)) ∧
    (∀ t : Calendar.DateTime, t.FourDigits → formatIso t.epochSecond = t.iso) ∧
    (∀ t u : Calendar.DateTime, t.FourDigits → u.FourDigits → t.epochSecond < u.epochSecond →
      formatIso t.epochSecond < formatIso u.epochSecond) := by
  refine ⟨fun z => ?_, civilFromDays_dayNumber, tryCivilFromDays_dayNumber, fun epoch => ?_,
    fun _ => tryFormatIso_eq, fun _ => Calendar.DateTime.FourDigits.formatIso_eq, ?_⟩
  · obtain ⟨date, rfl⟩ := Calendar.Date.exists_dayNumber_eq z
    exact ⟨date, rfl, fun _ => Calendar.Date.dayNumber_injective⟩
  · obtain ⟨t, rfl⟩ := Calendar.DateTime.exists_epochSecond_eq epoch
    exact ⟨t, rfl, fun _ => Calendar.DateTime.epochSecond_injective⟩
  · intro t u year later lt
    rw [year.formatIso_eq, later.formatIso_eq]
    exact Calendar.DateTime.iso_lt year later lt

/-- The noon of the leap day of the year 0. -/
def leapDayOf0 : Calendar.DateTime :=
  ⟨⟨0, 2, 29, by decide, by decide, by decide, by decide⟩, 12, 0, 0, by decide, by decide, by decide⟩

/-- The last second of the leap day of 2000. -/
def leapDayOf2000 : Calendar.DateTime :=
  ⟨⟨2000, 2, 29, by decide, by decide, by decide, by decide⟩, 23, 59, 59, by decide, by decide,
    by decide⟩

theorem formatIso_calendar_leapDays :
    civilFromDays (-719469) = (0, 2, 29) ∧ tryCivilFromDays (-719469) = some (0, 2, 29) ∧
    formatIso (-62162078400) = "0000-02-29T12:00:00Z" ∧
    tryFormatIso 951868799 = some (formatIso 951868799) ∧
    formatIso (-62162078400) < formatIso 951868799 := by
  obtain ⟨-, civil, tryCivil, -, total, text, mono⟩ := formatIso_calendar
  have early : leapDayOf0.epochSecond = -62162078400 := by decide
  have late : leapDayOf2000.epochSecond = 951868799 := by decide
  have year : leapDayOf0.FourDigits := ⟨by decide, by decide⟩
  rw [← early, ← late]
  exact ⟨civil leapDayOf0.date, tryCivil leapDayOf0.date (by decide) (by decide),
    (text leapDayOf0 year).trans (by decide), total _ (by decide) (by decide),
    mono leapDayOf0 leapDayOf2000 year ⟨by decide, by decide⟩ (by decide)⟩

end VsFleet
