/-
# The days of the calendar

A day has a number, and a year, a month and a day of the month. The number is taken
apart by cycles of 400 years, centuries, cycles of four years, years and months; each of
these has parts that are not all of one length, and the long part is always the last, so
what is left over when it has been counted out is too small for another
(`Calendar.Parts`). So each number up to the last is that of a day
(`Date.ofDayNumber_spec`), and days have their numbers in the order of years, months
and days of the month (`Date.dayNumber_lt`).

Key definitions: `Calendar.yearLength`, `Calendar.Parts`, `Date.Valid`, `Date.parts`.
Key theorems: `Calendar.splitMonth_spec`, `Calendar.daysBeforeYear_succ`,
`Date.ofDayNumber_spec`, `Date.dayNumber_lt`.
-/
import Mathlib.Algebra.GroupWithZero.Nat
import Stencil.Calendar.Date

namespace Stencil

namespace Calendar

/-! ### Months -/

/-- The month that holds a day of a year, and the day of that month. -/
theorem splitMonth_spec : ∀ (lengths : List Nat) (month days : Nat), days < lengths.sum →
    ∃ k < lengths.length, ∃ day, splitMonth lengths month days = (month + k, day) ∧ 1 ≤ day ∧
      day ≤ lengths.getD k 0 ∧ (lengths.take k).sum + day = days + 1
  | [], _, days, few => absurd few (Nat.not_lt_zero days)
  | length :: lengths, month, days, few => by
    rw [splitMonth]
    by_cases within : days < length
    · exact ⟨0, Nat.zero_lt_succ _, days + 1, if_pos within, by omega, within, by simp⟩
    · rw [List.sum_cons] at few
      obtain ⟨k, inside, day, split, first, last, sum⟩ :=
        splitMonth_spec lengths (month + 1) (days - length) (by omega)
      refine ⟨k + 1, Nat.succ_lt_succ inside, day, ?_, first, last, ?_⟩
      · rw [if_neg within, split, Nat.add_assoc, Nat.add_comm 1 k]
      · rw [List.take_succ_cons, List.sum_cons]
        omega

theorem daysBeforeMonth_eq (year month : Nat) :
    daysBeforeMonth year month = ((monthLengths (isLeap year)).take (month - 1)).sum := by
  rw [daysBeforeMonth, List.sum_eq_foldl_nat]

/-- The days of a year. -/
def yearLength (year : Nat) : Nat :=
  if isLeap year then 366 else 365

theorem sum_monthLengths (leap : Bool) :
    (monthLengths leap).sum = if leap then 366 else 365 := by
  cases leap <;> rfl

theorem length_monthLengths (leap : Bool) : (monthLengths leap).length = 12 := rfl

/-- The days before a year grow by the length of the year. -/
theorem daysBeforeYear_succ (y : Nat) :
    daysBeforeYear (y + 2) = daysBeforeYear (y + 1) + yearLength (y + 1) := by
  have by4 : (y + 1) / 4 = y / 4 + if (y + 1) % 4 = 0 then 1 else 0 := by split <;> omega
  have by100 : (y + 1) / 100 = y / 100 + if (y + 1) % 100 = 0 then 1 else 0 := by split <;> omega
  have by400 : (y + 1) / 400 = y / 400 + if (y + 1) % 400 = 0 then 1 else 0 := by split <;> omega
  have fewer : y / 100 ≤ y := Nat.div_le_self y 100
  have each : (y + 1) % 100 = 0 → (y + 1) % 4 = 0 := by omega
  have every : (y + 1) % 400 = 0 → (y + 1) % 100 = 0 := by omega
  simp only [daysBeforeYear, yearLength, isLeap, Nat.add_sub_cancel, Bool.and_eq_true,
    Bool.or_eq_true, decide_eq_true_eq, ne_eq, show y + 2 - 1 = y + 1 from rfl, by4, by100, by400]
  generalize y / 4 = q4, y / 100 = q100, y / 400 = q400 at *
  -- the quotients grow by one where the year ends a cycle, which is what makes it long or short
  by_cases four : (y + 1) % 4 = 0 <;> by_cases century : (y + 1) % 100 = 0 <;>
    by_cases cycle : (y + 1) % 400 = 0 <;> simp_all <;> omega

theorem daysBeforeYear_le {a b : Nat} (proper : 1 ≤ a) (le : a ≤ b) :
    daysBeforeYear a ≤ daysBeforeYear b := by
  induction le with
  | refl => exact Nat.le_refl _
  | @step b le ih =>
    obtain ⟨y, rfl⟩ := Nat.exists_eq_add_one.mpr (Nat.lt_of_lt_of_le proper le)
    rw [daysBeforeYear_succ]
    exact Nat.le_add_right_of_le ih

/-- A day of the calendar in cycles of 400 years, centuries, cycles of four years, years and
days: the last century of a cycle has a day more than the others, and so has the last year of four
unless it ends one of these centuries. -/
structure Parts (n cycles centuries fours years days : Nat) : Prop where
  whole : n = 146097 * cycles + 36524 * centuries + 1461 * fours + 365 * years + days
  century : centuries ≤ 3
  four : fours ≤ 24
  year : years ≤ 3
  inCentury : centuries < 3 → 1461 * fours + 365 * years + days < 36524
  inCycle : 36524 * centuries + 1461 * fours + 365 * years + days < 146097
  inFour : 365 * years + days < 1461
  inYear : years < 3 → days < 365

/-- The division of a day number, largest part first. -/
theorem parts_of (n : Nat) :
    let inCycle := n % 146097
    let centuries := min (inCycle / 36524) 3
    let inCentury := inCycle - centuries * 36524
    let inFour := inCentury % 1461
    let years := min (inFour / 365) 3
    Parts n (n / 146097) centuries (inCentury / 1461) years (inFour - years * 365) := by
  intro inCycle centuries inCentury inFour years
  have cycle : n = 146097 * (n / 146097) + inCycle ∧ inCycle < 146097 := by omega
  have century : centuries ≤ 3 ∧ inCycle = 36524 * centuries + inCentury ∧
      (centuries < 3 → inCentury < 36524) := by omega
  have four : inCentury = 1461 * (inCentury / 1461) + inFour ∧ inFour < 1461 := by omega
  have year : years ≤ 3 ∧ inFour = 365 * years + (inFour - years * 365) ∧
      (years < 3 → inFour - years * 365 < 365) := by omega
  clear_value inCycle centuries inCentury inFour years
  constructor <;> omega

section

variable {n cycles centuries fours years days : Nat}
  (parts : Parts n cycles centuries fours years days)
include parts

theorem Parts.isLeap_iff :
    isLeap (400 * cycles + 100 * centuries + 4 * fours + years + 1) = true ↔
      years = 3 ∧ (fours = 24 → centuries = 3) := by
  obtain ⟨-, century, four, year, -⟩ := parts
  generalize same : 400 * cycles + 100 * centuries + 4 * fours + years + 1 = y
  have by4 : y % 4 = 0 ↔ years = 3 := by omega
  have by100 : y % 100 = 0 ↔ years = 3 ∧ fours = 24 := by omega
  have by400 : y % 400 = 0 ↔ years = 3 ∧ fours = 24 ∧ centuries = 3 := by omega
  simp only [isLeap, Bool.and_eq_true, Bool.or_eq_true, decide_eq_true_eq, ne_eq, by4,
    by100, by400]
  omega

theorem Parts.days_lt :
    days < yearLength (400 * cycles + 100 * centuries + 4 * fours + years + 1) := by
  have leap := parts.isLeap_iff
  obtain ⟨-, century, four, year, inCentury, inCycle, inFour, inYear⟩ := parts
  unfold yearLength
  by_cases long : isLeap (400 * cycles + 100 * centuries + 4 * fours + years + 1) = true
  · have last := leap.mp long
    rw [if_pos long]
    omega
  · -- the last of four years is short only at the end of a short century
    have other := mt leap.mpr long
    rw [if_neg long]
    omega

theorem Parts.sum :
    daysBeforeYear (400 * cycles + 100 * centuries + 4 * fours + years + 1) + days = n := by
  obtain ⟨whole, century, four, year, -⟩ := parts
  have by4 : (400 * cycles + 100 * centuries + 4 * fours + years) / 4 =
      100 * cycles + 25 * centuries + fours := by omega
  have by100 : (400 * cycles + 100 * centuries + 4 * fours + years) / 100 =
      4 * cycles + centuries := by omega
  have by400 : (400 * cycles + 100 * centuries + 4 * fours + years) / 400 = cycles := by omega
  simp only [daysBeforeYear, Nat.add_sub_cancel, by4, by100, by400]
  omega

end

/-! ### Months in order -/

theorem daysBeforeMonth_succ (year : Nat) {month : Nat} (first : 1 ≤ month) (last : month ≤ 12) :
    daysBeforeMonth year (month + 1) = daysBeforeMonth year month + daysInMonth year month := by
  have grows : ∀ leap, ∀ k < 12, ((monthLengths leap).take (k + 1)).sum =
      ((monthLengths leap).take k).sum + (monthLengths leap).getD k 0 := by decide
  obtain ⟨k, rfl⟩ := Nat.exists_eq_add_one.mpr first
  rw [daysBeforeMonth_eq, daysBeforeMonth_eq, daysInMonth]
  exact grows _ k last

theorem daysBeforeMonth_le (year : Nat) {a b : Nat} (le : a ≤ b) :
    daysBeforeMonth year a ≤ daysBeforeMonth year b := by
  obtain ⟨more, whole⟩ : (monthLengths (isLeap year)).take (a - 1) <+:
      (monthLengths (isLeap year)).take (b - 1) :=
    List.take_prefix_take_left (Nat.sub_le_sub_right le 1)
  rw [daysBeforeMonth_eq, daysBeforeMonth_eq, ← whole, List.sum_append]
  exact Nat.le_add_right _ _

theorem daysBeforeMonth_last (year : Nat) : daysBeforeMonth year 13 = yearLength year := by
  rw [daysBeforeMonth_eq, yearLength]
  exact sum_monthLengths (isLeap year)

end Calendar

namespace Date

open Calendar

/-- A day that the calendar has. -/
structure Valid (d : Date) : Prop where
  year : 1 ≤ d.year ∧ d.year ≤ 9999
  month : 1 ≤ d.month ∧ d.month ≤ 12
  day : 1 ≤ d.day ∧ d.day ≤ daysInMonth d.year d.month

theorem valid_iff {d : Date} : d.valid = true ↔ d.Valid := by
  simp only [valid, Bool.and_eq_true, decide_eq_true_eq]
  constructor
  · rintro ⟨⟨⟨⟨⟨y1, y2⟩, m1⟩, m2⟩, d1⟩, d2⟩
    exact ⟨⟨y1, y2⟩, ⟨m1, m2⟩, d1, d2⟩
  · rintro ⟨⟨y1, y2⟩, ⟨m1, m2⟩, d1, d2⟩
    exact ⟨⟨⟨⟨⟨y1, y2⟩, m1⟩, m2⟩, d1⟩, d2⟩

/-- The parts of a day fit in columns. -/
theorem Valid.fits {d : Date} (proper : d.Valid) :
    d.year < 10000 ∧ d.month < 100 ∧ d.day < 100 := by
  obtain ⟨⟨-, year⟩, ⟨first, month⟩, -, day⟩ := proper
  have lengths : ∀ leap, ∀ k < 12, (monthLengths leap).getD k 0 ≤ 31 := by decide
  have short : daysInMonth d.year d.month ≤ 31 := lengths (isLeap d.year) (d.month - 1) (by omega)
  omega

/-- The year of a numbered day, and its place in the year. -/
theorem exists_year (n : Nat) : ∃ year days, 1 ≤ year ∧ days < yearLength year ∧
    daysBeforeYear year + days = n ∧ ofDayNumber (n + 1) =
      ⟨year, (splitMonth (monthLengths (isLeap year)) 1 days).1,
        (splitMonth (monthLengths (isLeap year)) 1 days).2⟩ := by
  have split := parts_of n
  unfold ofDayNumber
  simp only [Nat.add_sub_cancel]
  refine ⟨_, _, Nat.le_add_left 1 _, split.days_lt, split.sum, ?_⟩
  rfl

/-- **Each number up to the last is that of a day of the calendar.** -/
theorem ofDayNumber_spec {n : Nat} (first : 1 ≤ n) (last : n ≤ lastDayNumber) :
    (ofDayNumber n).Valid ∧ (ofDayNumber n).dayNumber = n := by
  obtain ⟨n, rfl⟩ := Nat.exists_eq_add_one.mpr first
  obtain ⟨year, days, positive, short, sum, made⟩ := exists_year n
  have within : year ≤ 9999 := by
    apply Nat.le_of_not_lt
    intro beyond
    have far : daysBeforeYear 10000 ≤ daysBeforeYear year := daysBeforeYear_le (by decide) beyond
    have most : daysBeforeYear 10000 = lastDayNumber := by decide
    omega
  rw [yearLength, ← sum_monthLengths] at short
  obtain ⟨k, inside, day, split, one, most, total⟩ := splitMonth_spec _ 1 days short
  rw [length_monthLengths] at inside
  have month : 1 + k - 1 = k := Nat.add_sub_cancel_left 1 k
  rw [made, split]
  refine ⟨⟨⟨positive, within⟩, ⟨Nat.le_add_right 1 k, ?_⟩, one, ?_⟩, ?_⟩
  · show 1 + k ≤ 12
    omega
  · rw [daysInMonth, month]
    exact most
  · show daysBeforeYear year + daysBeforeMonth year (1 + k) + day = n + 1
    rw [daysBeforeMonth_eq, month]
    omega

/-- The year, the month and the day. -/
def parts (d : Date) : List Nat :=
  [d.year, d.month, d.day]

theorem parts_injective {a b : Date} (same : a.parts = b.parts) : a = b := by
  obtain ⟨year, month, day⟩ := a
  obtain ⟨year', month', day'⟩ := b
  simpa [parts] using same

theorem parts_lt {a b : Date} : a.parts < b.parts ↔ a.year < b.year ∨ a.year = b.year ∧
    (a.month < b.month ∨ a.month = b.month ∧ a.day < b.day) := by
  simp [parts, List.cons_lt_cons_iff]

/-- **Days are numbered in the order of years, months and days.** -/
theorem dayNumber_lt {a b : Date} (proper : a.Valid) (proper' : b.Valid)
    (earlier : a.parts < b.parts) : a.dayNumber < b.dayNumber := by
  have upTo : a.dayNumber ≤ daysBeforeYear a.year + daysBeforeMonth a.year (a.month + 1) := by
    rw [daysBeforeMonth_succ a.year proper.month.1 proper.month.2, dayNumber]
    have day := proper.day.2
    omega
  have from' : daysBeforeYear b.year + daysBeforeMonth b.year b.month < b.dayNumber :=
    Nat.lt_add_of_pos_right proper'.day.1
  rcases parts_lt.mp earlier with year | ⟨year, month | ⟨month, day⟩⟩
  · have whole : daysBeforeMonth a.year (a.month + 1) ≤ yearLength a.year := by
      rw [← daysBeforeMonth_last]
      exact daysBeforeMonth_le a.year (Nat.succ_le_succ proper.month.2)
    have next : daysBeforeYear (a.year + 1) = daysBeforeYear a.year + yearLength a.year := by
      obtain ⟨y, same⟩ := Nat.exists_eq_add_one.mpr proper.year.1
      rw [same, daysBeforeYear_succ]
    have later := daysBeforeYear_le (Nat.le_add_left 1 _) (show a.year + 1 ≤ b.year from year)
    omega
  · have later := daysBeforeMonth_le a.year (show a.month + 1 ≤ b.month from month)
    rw [← year] at from'
    omega
  · rw [dayNumber, dayNumber, year, month]
    omega

end Date

end Stencil
