/-!
# The Gregorian calendar

A `CivilDay` is a day that exists, and `ordinal` numbers the days from 0001-01-01 on, as
`date.toordinal` does. The two ways of putting days in order agree
(`ordinal_lt_iff`), so an interval of days is an interval of numbers.

The orders are compared through months and years: the days before a month are no fewer
than before an earlier one, and a day's ordinal lies in the range of its month. Nothing
here bounds the years, so the results hold of every year a program may come to, before the
common era included.
-/

namespace SarkariWorld.Lib

/-- A leap year: every fourth, but of the centuries only every fourth. -/
def isLeap (year : Int) : Bool := year % 4 == 0 && (year % 100 != 0 || year % 400 == 0)

/-- The days of a month. A number that is no month gets 31. -/
def daysInMonth (year month : Int) : Int :=
  if month = 2 then if isLeap year then 29 else 28
  else if month = 4 ∨ month = 6 ∨ month = 9 ∨ month = 11 then 30
  else 31

/-- A day of the calendar. -/
structure CivilDay where
  year : Int
  month : Int
  day : Int
  month_valid : 1 ≤ month ∧ month ≤ 12
  day_valid : 1 ≤ day ∧ day ≤ daysInMonth year month
  deriving DecidableEq

/-- The days of the years before, from year 1 on. -/
def daysBeforeYear (year : Int) : Int :=
  (year - 1) * 365 + (year - 1) / 4 - (year - 1) / 100 + (year - 1) / 400

/-- The days of the months before. -/
def daysBeforeMonth (year month : Int) : Int :=
  (367 * month - 362) / 12 - if month ≤ 2 then 0 else if isLeap year then 1 else 2

example : [1, 2, 3, 4, 5, 6, 7, 8, 9, 10, 11, 12].map (daysBeforeMonth 2023) =
    [0, 31, 59, 90, 120, 151, 181, 212, 243, 273, 304, 334] := by decide

/-- The number of the day, 0001-01-01 being the first. -/
def CivilDay.ordinal (d : CivilDay) : Int :=
  daysBeforeYear d.year + daysBeforeMonth d.year d.month + d.day

/-- The day comes before the other one. -/
def CivilDay.Before (a b : CivilDay) : Prop :=
  a.year < b.year ∨
    (a.year = b.year ∧ (a.month < b.month ∨ (a.month = b.month ∧ a.day < b.day)))

instance (a b : CivilDay) : Decidable (a.Before b) := inferInstanceAs (Decidable (_ ∨ _))

instance : LT CivilDay := ⟨CivilDay.Before⟩

instance : LE CivilDay := ⟨fun a b => ¬ b.Before a⟩

instance (a b : CivilDay) : Decidable (a < b) := inferInstanceAs (Decidable (a.Before b))

instance (a b : CivilDay) : Decidable (a ≤ b) := inferInstanceAs (Decidable (¬ b.Before a))

variable {a b : CivilDay} {month : Int}

theorem isLeap_iff {year : Int} : isLeap year = true ↔
    year % 4 = 0 ∧ (year % 100 ≠ 0 ∨ year % 400 = 0) := by
  simp [isLeap]

/-- A month begins where the one before it ends. -/
theorem daysBeforeMonth_succ (year : Int) (h : 1 ≤ month ∧ month ≤ 12) :
    daysBeforeMonth year (month + 1) = daysBeforeMonth year month + daysInMonth year month := by
  have hmonth : month = 1 ∨ month = 2 ∨ month = 3 ∨ month = 4 ∨ month = 5 ∨ month = 6 ∨
      month = 7 ∨ month = 8 ∨ month = 9 ∨ month = 10 ∨ month = 11 ∨ month = 12 := by omega
  unfold daysBeforeMonth daysInMonth
  generalize isLeap year = leap
  obtain rfl | rfl | rfl | rfl | rfl | rfl | rfl | rfl | rfl | rfl | rfl | rfl := hmonth
  all_goals
    cases leap
    · decide
    · decide

theorem daysBeforeMonth_mono (year : Int) {month' : Int} (h : 1 ≤ month) (hle : month ≤ month') :
    daysBeforeMonth year month ≤ daysBeforeMonth year month' := by
  unfold daysBeforeMonth
  cases isLeap year
  · simp only [Bool.false_eq_true, if_false]
    omega
  · simp only [if_true]
    omega

/-- A year begins where the one before it ends. -/
theorem daysBeforeYear_succ (year : Int) :
    daysBeforeYear (year + 1) = daysBeforeYear year + daysBeforeMonth year 13 := by
  have hleap : isLeap year = true ↔ _ := isLeap_iff
  unfold daysBeforeYear daysBeforeMonth
  cases hyear : isLeap year
  · rw [hyear] at hleap
    have hnot : ¬ (year % 4 = 0 ∧ (year % 100 ≠ 0 ∨ year % 400 = 0)) := fun h => nomatch hleap.mpr h
    simp only [Bool.false_eq_true, if_false]
    omega
  · have hyes := hleap.mp hyear
    simp only [if_true]
    omega

theorem daysBeforeYear_mono {year year' : Int} (h : year ≤ year') :
    daysBeforeYear year ≤ daysBeforeYear year' := by
  unfold daysBeforeYear
  omega

/-- A day is within its year. -/
theorem ordinal_in_year (d : CivilDay) :
    daysBeforeYear d.year < d.ordinal ∧ d.ordinal ≤ daysBeforeYear (d.year + 1) := by
  have hmonth := d.month_valid
  have hday := d.day_valid
  have hfirst : daysBeforeMonth d.year 1 = 0 := by
    unfold daysBeforeMonth
    omega
  have hbegins := daysBeforeMonth_mono d.year (Int.le_refl 1) hmonth.1
  have hends := daysBeforeMonth_succ d.year hmonth
  have hlast : daysBeforeMonth d.year (d.month + 1) ≤ daysBeforeMonth d.year 13 :=
    daysBeforeMonth_mono _ (by omega) (by omega)
  rw [daysBeforeYear_succ, CivilDay.ordinal]
  omega

/-- A day that comes before another one has the smaller number. The cases are those of the
lexicographic order. -/
theorem ordinal_lt (h : a.Before b) : a.ordinal < b.ordinal := by
  obtain hyear | ⟨hyear, hmonth | ⟨hmonth, hday⟩⟩ := h
  · have hyears : daysBeforeYear (a.year + 1) ≤ daysBeforeYear b.year :=
      daysBeforeYear_mono (by omega)
    have ha := (ordinal_in_year a).2
    have hb := (ordinal_in_year b).1
    omega
  · have hmonths : daysBeforeMonth b.year (a.month + 1) ≤ daysBeforeMonth b.year b.month :=
      daysBeforeMonth_mono _ (by have := a.month_valid; omega) (by omega)
    rw [← hyear, daysBeforeMonth_succ _ a.month_valid] at hmonths
    have ha := a.day_valid
    have hb := b.day_valid
    unfold CivilDay.ordinal
    rw [← hyear]
    omega
  · unfold CivilDay.ordinal
    rw [hyear, hmonth]
    omega

/-- Two days are the same, or one is before the other. -/
theorem before_trichotomy (a b : CivilDay) : a.Before b ∨ a = b ∨ b.Before a := by
  obtain hyear | hyear | hyear := Int.lt_trichotomy a.year b.year
  · exact .inl (.inl hyear)
  · obtain hmonth | hmonth | hmonth := Int.lt_trichotomy a.month b.month
    · exact .inl (.inr ⟨hyear, .inl hmonth⟩)
    · obtain hday | hday | hday := Int.lt_trichotomy a.day b.day
      · exact .inl (.inr ⟨hyear, .inr ⟨hmonth, hday⟩⟩)
      · refine .inr (.inl ?_)
        cases a
        cases b
        simp only [CivilDay.mk.injEq]
        exact ⟨hyear, hmonth, hday⟩
      · exact .inr (.inr (.inr ⟨hyear.symm, .inr ⟨hmonth.symm, hday⟩⟩))
    · exact .inr (.inr (.inr ⟨hyear.symm, .inl hmonth⟩))
  · exact .inr (.inr (.inl hyear))

/-- **The numbers of the days are in the order of the days.** -/
theorem ordinal_lt_iff : a.ordinal < b.ordinal ↔ a < b := by
  refine ⟨fun h => ?_, ordinal_lt⟩
  obtain hbefore | rfl | hafter := before_trichotomy a b
  · exact hbefore
  · omega
  · have := ordinal_lt hafter
    omega

theorem ordinal_le_iff : a.ordinal ≤ b.ordinal ↔ a ≤ b := by
  rw [← Int.not_lt, ordinal_lt_iff]
  rfl

/-- Two days with one number are the same day. -/
theorem ordinal_inj : a.ordinal = b.ordinal ↔ a = b := by
  refine ⟨fun h => ?_, congrArg CivilDay.ordinal⟩
  obtain hbefore | heq | hafter := before_trichotomy a b
  · have := ordinal_lt hbefore
    omega
  · exact heq
  · have := ordinal_lt hafter
    omega

end SarkariWorld.Lib
