import SarkariWorld.Dates
import SarkariWorld.Lib.Calendar

/-!
# Days

`ist_day_bounds` turns the `YYYY-MM-DD` of a date filter into the two instants between
which the day lies. `startOfDay_le_iff` is why comparing a column with these is
comparing days: a stored value is at or past the beginning of a day exactly if the day
the API prints for it (`civilDate`) is that day or a later one.

The calendar is written out as the service's own functions use it: `civilDate` is the
algorithm behind `strftime`, counted in eras of 400 years, and a `CivilDay` is a date that
exists. `calendarDay` connects the two: it is the day of a wall clock, and its `ordinal`
is the number of days since 0001-01-01, as `date.toordinal` counts them.
-/

namespace SarkariWorld.Admin

open SarkariWorld.Lib

/-! ## The day of an instant -/

/-- A day of a 400-year era, by century, quadrennium, year and day, each counted from
March on. -/
structure EraDay (doe : Int) where
  century : Int
  quad : Int
  year : Int
  doy : Int
  century_valid : 0 ≤ century ∧ century ≤ 3
  quad_valid : 0 ≤ quad ∧ quad ≤ 24
  year_valid : 0 ≤ year ∧ year ≤ 3
  /-- The leap day comes last. -/
  doy_valid : 0 ≤ doy ∧ (doy ≤ 364 ∨ (doy = 365 ∧ year = 3 ∧ (quad ≠ 24 ∨ century = 3)))
  sum : doe = 36524 * century + 1461 * quad + 365 * year + doy

/-- The year of the era, from its century, its group of four and the year in it. -/
def EraDay.yoe {doe : Int} (e : EraDay doe) : Int := 100 * e.century + 4 * e.quad + e.year

/-- Every day of an era of 400 years has its century, its group of four years, its year and its day
in the year. The remainders at the end of a century and of a group need a case of their own. -/
theorem exists_eraDay {doe : Int} (h : 0 ≤ doe ∧ doe < 146097) : Nonempty (EraDay doe) := by
  obtain ⟨c, hc⟩ : ∃ c, c = min 3 (doe / 36524) := ⟨_, rfl⟩
  obtain ⟨r, hr⟩ : ∃ r, r = doe - 36524 * c := ⟨_, rfl⟩
  have hrest : 0 ≤ r ∧ (r ≤ 36523 ∨ (r = 36524 ∧ c = 3)) := by omega
  obtain ⟨s, hs⟩ : ∃ s, s = min 3 (r % 1461 / 365) := ⟨_, rfl⟩
  exact ⟨{
    century := c
    quad := r / 1461
    year := s
    doy := r % 1461 - 365 * s
    century_valid := by omega
    quad_valid := by omega
    year_valid := by omega
    doy_valid := by omega
    sum := by omega }⟩

/-- What `civilDate` computes of the year. -/
theorem eraDay_year {doe : Int} (e : EraDay doe) :
    (doe - doe / 1460 + doe / 36524 - doe / 146096) / 365 = e.yoe := by
  obtain ⟨c, k, s, doy, hc, hk, hs, hd, rfl⟩ := e
  show _ = 100 * c + 4 * k + s
  obtain ⟨q, hq⟩ : ∃ q, q = (24 * c + k + 365 * s + doy) / 1460 := ⟨_, rfl⟩
  have h1460 : (36524 * c + 1461 * k + 365 * s + doy) / 1460 = 25 * c + k + q := by omega
  have hrest : 1461 * k + 365 * s + doy ≤ 36523 ∨
      (1461 * k + 365 * s + doy = 36524 ∧ c = 3) := by omega
  have h36524 : (36524 * c + 1461 * k + 365 * s + doy) / 36524 =
      c + (36524 * c + 1461 * k + 365 * s + doy) / 146096 := by
    obtain hrest | hrest := hrest
    · omega
    · omega
  rw [h1460, h36524]
  omega

/-- What it computes of the day of the year. -/
theorem eraDay_doy {doe : Int} (e : EraDay doe) :
    doe - (365 * e.yoe + e.yoe / 4 - e.yoe / 100) = e.doy := by
  obtain ⟨c, k, s, doy, hc, hk, hs, hd, rfl⟩ := e
  show _ - (365 * (100 * c + 4 * k + s) + (100 * c + 4 * k + s) / 4 -
    (100 * c + 4 * k + s) / 100) = doy
  have hquarter : (100 * c + 4 * k + s) / 4 = 25 * c + k := by omega
  have hcentury : (100 * c + 4 * k + s) / 100 = c := by omega
  rw [hquarter, hcentury]
  omega

/-- Where the year after begins, and whether it is a leap year. -/
theorem eraDay_next {doe : Int} (e : EraDay doe) (era : Int) :
    daysBeforeYear (400 * era + e.yoe + 1) = 146097 * era + doe - e.doy ∧
      (isLeap (400 * era + e.yoe + 1) = true ↔ e.year = 3 ∧ (e.quad ≠ 24 ∨ e.century = 3)) := by
  obtain ⟨c, k, s, doy, hc, hk, hs, hd, rfl⟩ := e
  show daysBeforeYear (400 * era + (100 * c + 4 * k + s) + 1) = _ ∧
    (isLeap (400 * era + (100 * c + 4 * k + s) + 1) = true ↔ s = 3 ∧ (k ≠ 24 ∨ c = 3))
  rw [isLeap_iff]
  unfold daysBeforeYear
  constructor
  · dsimp only
    omega
  · omega

/-- The ten months from March on. -/
theorem fromMarch (year : Int) {doy mp : Int} (h : 0 ≤ doy) (hmp : mp = (5 * doy + 2) / 153)
    (hle : mp ≤ 9) :
    (1 ≤ doy - (153 * mp + 2) / 5 + 1 ∧
      doy - (153 * mp + 2) / 5 + 1 ≤ daysInMonth year (mp + 3)) ∧
      daysBeforeMonth year (mp + 3) + (doy - (153 * mp + 2) / 5 + 1) =
        daysBeforeMonth year 13 + doy - 305 := by
  have hcases : mp = 0 ∨ mp = 1 ∨ mp = 2 ∨ mp = 3 ∨ mp = 4 ∨ mp = 5 ∨ mp = 6 ∨ mp = 7 ∨
      mp = 8 ∨ mp = 9 := by omega
  unfold daysBeforeMonth daysInMonth
  generalize isLeap year = leap
  obtain rfl | rfl | rfl | rfl | rfl | rfl | rfl | rfl | rfl | rfl := hcases
  all_goals
    cases leap
    · simp
      omega
    · simp
      omega

/-- January and February, which belong to the year after. -/
theorem beforeMarch (year : Int) {doy mp : Int}
    (h : doy ≤ 364 ∨ (doy = 365 ∧ isLeap year = true)) (hmp : mp = (5 * doy + 2) / 153)
    (hle : 10 ≤ mp) :
    (1 ≤ doy - (153 * mp + 2) / 5 + 1 ∧
      doy - (153 * mp + 2) / 5 + 1 ≤ daysInMonth year (mp - 9)) ∧
      daysBeforeMonth year (mp - 9) + (doy - (153 * mp + 2) / 5 + 1) = doy - 305 := by
  have hcases : mp = 10 ∨ mp = 11 := by omega
  unfold daysBeforeMonth daysInMonth
  generalize isLeap year = leap at h ⊢
  obtain rfl | rfl := hcases
  all_goals
    cases leap
    · simp at h ⊢
      omega
    · simp
      omega

/-- The number `toordinal` gives 1970-01-01. -/
def epochOrdinal : Int := 719163

/-- **What `civilDate` computes is the day with that number.** -/
theorem civilDate_ordinal (days : Int) : ∃ d : CivilDay,
    civilDate days = (d.year, d.month, d.day) ∧ d.ordinal = days + epochOrdinal := by
  -- eras of 400 years from 1 March of the year 0, and the day within one
  obtain ⟨era, hera⟩ : ∃ era, era = (days + 719468) / 146097 := ⟨_, rfl⟩
  obtain ⟨doe, hdoe⟩ : ∃ doe, doe = (days + 719468) % 146097 := ⟨_, rfl⟩
  have hsplit : days + 719468 = 146097 * era + doe := by omega
  obtain ⟨e⟩ : Nonempty (EraDay doe) := exists_eraDay (by omega)
  obtain ⟨hnext, hleap⟩ := eraDay_next e era
  have hdoy := e.doy_valid
  unfold civilDate
  dsimp only
  rw [← hera, ← hdoe, eraDay_year e, eraDay_doy e]
  clear hera hdoe
  generalize hmp : (5 * e.doy + 2) / 153 = mp
  -- months count from March, so January and February belong to the next civil year
  by_cases hmarch : mp < 10
  · obtain ⟨hvalid, hday⟩ := fromMarch (e.yoe + era * 400) hdoy.1 hmp.symm (by omega)
    have hyear := daysBeforeYear_succ (e.yoe + era * 400)
    rw [show e.yoe + era * 400 + 1 = 400 * era + e.yoe + 1 by omega, hnext] at hyear
    refine ⟨⟨e.yoe + era * 400, mp + 3, _, by omega, hvalid⟩, ?_, ?_⟩
    · rw [if_pos hmarch, if_neg (by omega), Int.add_zero]
    · unfold CivilDay.ordinal epochOrdinal
      dsimp only
      omega
  · have hlast : e.doy ≤ 364 ∨ (e.doy = 365 ∧ isLeap (400 * era + e.yoe + 1) = true) :=
      hdoy.2.imp_right fun h => ⟨h.1, hleap.mpr h.2⟩
    obtain ⟨hvalid, hday⟩ := beforeMarch _ hlast hmp.symm (by omega)
    refine ⟨⟨400 * era + e.yoe + 1, mp - 9, _, by omega, hvalid⟩, ?_, ?_⟩
    · rw [if_neg hmarch, if_pos (by omega)]
      refine Prod.ext ?_ rfl
      show e.yoe + era * 400 + 1 = 400 * era + e.yoe + 1
      omega
    · unfold CivilDay.ordinal epochOrdinal
      dsimp only
      omega

/-- The calendar day of a stored value, as the API prints it. -/
def calendarDay (wall : Int) : CivilDay where
  year := (civilDate (wall / second / 86400)).1
  month := (civilDate (wall / second / 86400)).2.1
  day := (civilDate (wall / second / 86400)).2.2
  month_valid := by
    obtain ⟨d, hd, -⟩ := civilDate_ordinal (wall / second / 86400)
    rw [hd]
    exact d.month_valid
  day_valid := by
    obtain ⟨d, hd, -⟩ := civilDate_ordinal (wall / second / 86400)
    rw [hd]
    exact d.day_valid

/-- Midnight, at the beginning of a day. -/
def startOfDay (d : CivilDay) : Int := (d.ordinal - epochOrdinal) * (86400 * second)

/-- `timedelta(days=1)`. -/
def oneDay : Int := 86400 * second

/-- The day printed for a wall clock is as many days after the epoch as the clock says. -/
theorem calendarDay_ordinal (wall : Int) :
    (calendarDay wall).ordinal = wall / second / 86400 + epochOrdinal := by
  obtain ⟨d, hd, hordinal⟩ := civilDate_ordinal (wall / second / 86400)
  rw [← hordinal]
  unfold CivilDay.ordinal calendarDay
  dsimp only
  rw [hd]

/-- **A value is at or past midnight exactly if its day is that one or later.** -/
theorem startOfDay_le_iff {d : CivilDay} {wall : Int} :
    startOfDay d ≤ wall ↔ d ≤ calendarDay wall := by
  rw [← ordinal_le_iff, calendarDay_ordinal]
  unfold startOfDay second
  omega

/-- **It is before the midnight after exactly if its day is that one or earlier.** -/
theorem lt_endOfDay_iff {d : CivilDay} {wall : Int} :
    wall < startOfDay d + oneDay ↔ calendarDay wall ≤ d := by
  rw [← ordinal_le_iff, calendarDay_ordinal]
  unfold startOfDay oneDay second
  omega

/-- A column is before the beginning of a day exactly if its own day is an earlier one. -/
theorem lt_startOfDay_iff {d : CivilDay} {wall : Int} :
    wall < startOfDay d ↔ calendarDay wall < d := by
  rw [← ordinal_lt_iff, calendarDay_ordinal]
  unfold startOfDay second
  omega

/-! ## `strptime` -/

/-- What `ist_day_bounds` raises. Nothing catches either. -/
inductive DayError where
  /-- `ValueError`: the string names no day. -/
  | valueError
  /-- `OverflowError`: there is no day after. -/
  | overflowError
  deriving DecidableEq, Repr

/-- Unicode's decimal digits: what `\d` matches, and what `int` makes of it. -/
structure Decimals where
  value : Char → Option Nat
  lt_ten : ∀ c n, value c = some n → n < 10
  ascii : ∀ c, c.isDigit = true → value c = some (c.toNat - 48)
  hyphen : value '-' = none

/-- The ASCII digits alone. -/
def Decimals.asciiOnly : Decimals where
  value c := if c.isDigit then some (c.toNat - 48) else none
  lt_ten c n h := by
    split at h
    next hdigit =>
      have hrange : c.toNat ≤ 57 := by
        rw [Char.isDigit, Bool.and_eq_true, decide_eq_true_eq, decide_eq_true_eq] at hdigit
        exact hdigit.2
      have := Option.some.inj h
      omega
    next => cases h
  ascii c hc := if_pos hc
  hyphen := rfl

/-- `[lo-hi]`, for two digits. -/
def digitIn (lo hi : Char) (c : Char) : Bool := lo ≤ c && c ≤ hi

/-- An ASCII digit. -/
def digit (c : Char) : Int := c.toNat - 48

/-- `[1-9]`. -/
def singleDigit : Text → List (Int × Text)
  | [] => []
  | c :: rest => if digitIn '1' '9' c then [(digit c, rest)] else []

/-- `1[0-2]|0[1-9]|[1-9]`: what each alternative matches, and what is left. -/
def monthAlternatives : Text → List (Int × Text)
  | c :: d :: rest =>
    (if c = '1' ∧ digitIn '0' '2' d then [(10 + digit d, rest)]
      else if c = '0' ∧ digitIn '1' '9' d then [(digit d, rest)] else []) ++
      singleDigit (c :: d :: rest)
  | t => singleDigit t

/-- `3[0-1]|[1-2]\d|0[1-9]|[1-9]| [1-9]`. -/
def dayAlternatives (decimals : Decimals) : Text → List (Int × Text)
  | c :: d :: rest =>
    (if c = '3' ∧ digitIn '0' '1' d then [(30 + digit d, rest)]
      else if digitIn '1' '2' c then
        (decimals.value d).toList.map fun (n : Nat) => (10 * digit c + n, rest)
      else if c = '0' ∧ digitIn '1' '9' d then [(digit d, rest)] else []) ++
      singleDigit (c :: d :: rest) ++ if c = ' ' then singleDigit (d :: rest) else []
  | t => singleDigit t

/-- `\d\d\d\d`. -/
def yearDigits (decimals : Decimals) : Text → Option (Int × Text)
  | a :: b :: c :: d :: rest => do
    let a ← decimals.value a
    let b ← decimals.value b
    let c ← decimals.value c
    let d ← decimals.value d
    pure (1000 * a + 100 * b + 10 * c + d, rest)
  | _ => none

/-- What follows a hyphen. -/
def afterHyphen : Text → Option Text
  | '-' :: rest => some rest
  | _ => none

/-- The match of `%Y-%m-%d` at the beginning of a string: the three numbers and what is
left. -/
def matchDate (decimals : Decimals) (t : Text) : Option (Int × Int × Int × Text) := do
  let (year, rest) ← yearDigits decimals t
  let rest ← afterHyphen rest
  (monthAlternatives rest).findSome? fun (month, rest) => do
    let rest ← afterHyphen rest
    let (day, rest) ← (dayAlternatives decimals rest).head?
    pure (year, month, day, rest)

/-- The day with these numbers, if there is one. -/
def mkDay (year month day : Int) : Option CivilDay :=
  if h : 1 ≤ year ∧ (1 ≤ month ∧ month ≤ 12) ∧ 1 ≤ day ∧ day ≤ daysInMonth year month then
    some ⟨year, month, day, h.2.1, h.2.2⟩
  else none

/-- `datetime.strptime(day, "%Y-%m-%d")`. -/
def strptime (decimals : Decimals) (t : Text) : Option CivilDay :=
  match matchDate decimals t with
  -- Nothing may be left unconverted.
  | some (year, month, day, []) => mkDay year month day
  | _ => none

example : strptime .asciiOnly "2024-02-29".toList = mkDay 2024 2 29 := by decide
example : strptime .asciiOnly "2024-02-30".toList = none := by decide

/-- 9999-12-31. -/
def lastDay : CivilDay := ⟨9999, 12, 31, by decide, by decide⟩

/-- `ist_day_bounds`. -/
def istDayBounds (decimals : Decimals) (day : Text) : Except DayError (Int × Int) :=
  match strptime decimals day with
  | none => .error .valueError
  | some parsed =>
    if parsed.ordinal + 1 ≤ lastDay.ordinal then .ok (startOfDay parsed, startOfDay parsed + oneDay)
    else .error .overflowError

end SarkariWorld.Admin
