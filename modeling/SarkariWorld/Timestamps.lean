import Mathlib
import SarkariWorld.Admin.Days
import SarkariWorld.Lib.Digits

/-!
# Timestamps on the wire

Clients compare the strings that `to_ist_iso` prints. `wire_timestamps_sortable` is why
they may: all of them are of one offset and one width, so they stand in the order of the
instants, and an instant is read back from its string to the millisecond.

The string is put together from fields of fixed width, the year first. Order and round
trip are proved field by field (`Lib.Digits`) and joined by the calendar (`Lib.Calendar`):
the day of a wall-clock reading is read back from its three fields, and the time of day
from its four.
-/

namespace SarkariWorld

open Lib Admin

/-- The instant a datetime stands for. A naive one is taken as IST. -/
def Datetime.denotes (d : Datetime) : Int := d.wall - d.tzinfo.getD istOffset

/-- A Python datetime of the years 1001 to 9998. Offsets are less than a day. -/
structure Datetime.FourDigits (d : Datetime) : Prop where
  year : 1001 ≤ (calendarDay d.wall).year ∧ (calendarDay d.wall).year ≤ 9998
  offset : ∀ o ∈ d.tzinfo, -oneDay < o ∧ o < oneDay

/-! ## Reading -/

/-- The text behind one character. -/
def expect (mark : Char) : Text → Option Text
  | [] => none
  | c :: rest => if c = mark then some rest else none

/-- `+hh:mm`, in microseconds. -/
def readOffset (t : Text) : Option Int := do
  let (sign, rest) ← t.head?.map fun c => (c, t.tail)
  let (hours, rest) ← readDigits 2 0 rest
  let rest ← expect ':' rest
  let (minutes, rest) ← readDigits 2 0 rest
  let offset : Int := (hours * 60 + minutes) * 60 * second
  if rest ≠ [] ∨ 24 ≤ hours ∨ 60 ≤ minutes then none
  else if sign = '+' then some offset
  else if sign = '-' then some (-offset)
  else none

/-- `datetime.fromisoformat`, on the one of its formats with milliseconds and an offset. -/
def fromIsoformat (t : Text) : Option Datetime := do
  let (year, rest) ← readDigits 4 0 t
  let rest ← expect '-' rest
  let (month, rest) ← readDigits 2 0 rest
  let rest ← expect '-' rest
  let (day, rest) ← readDigits 2 0 rest
  let rest ← expect 'T' rest
  let (hour, rest) ← readDigits 2 0 rest
  let rest ← expect ':' rest
  let (minute, rest) ← readDigits 2 0 rest
  let rest ← expect ':' rest
  let (sec, rest) ← readDigits 2 0 rest
  let rest ← expect '.' rest
  let (millis, rest) ← readDigits 3 0 rest
  let offset ← readOffset rest
  let date ← mkDay year month day
  if 24 ≤ hour ∨ 60 ≤ minute ∨ 60 ≤ sec then none
  else some ⟨startOfDay date + (((hour * 60 + minute) * 60 + sec) * 1000 + millis) * 1000,
    some offset⟩

example : fromIsoformat "2024-02-30T10:30:15.123+05:30".toList = none := by decide

/-! ## What is printed -/

/-- `YYYY-MM-DD`. -/
def dateText (d : CivilDay) : Text :=
  digits 4 d.year.toNat ++ '-' :: (digits 2 d.month.toNat ++ '-' :: digits 2 d.day.toNat)

/-- `HH:MM:SS.sss`, for a millisecond of the day. -/
def timeText (millis : Nat) : Text :=
  digits 2 (millis / 3600000) ++ ':' :: (digits 2 (millis / 60000 % 60) ++ ':' ::
    (digits 2 (millis / 1000 % 60) ++ '.' :: digits 3 (millis % 1000)))

/-- The millisecond of the day. -/
def milliOfDay (wall : Int) : Nat := (wall / 1000 % 86400000).toNat

/-- Padding with zeros gives the digits of fixed width, for a number that has no more. -/
theorem zeroPadded_digits {width : Nat} {n : Int} (hwidth : 0 < width) (hpos : 0 ≤ n)
    (hlt : n < 10 ^ width) : zeroPadded width n = digits width n.toNat := by
  have hbound : n.toNat < 10 ^ width := by
    have hcast : ((10 ^ width : Nat) : Int) = 10 ^ width := by simp
    omega
  have hstr : strInt n = Nat.toDigits 10 n.toNat := by
    have habs : n.natAbs = n.toNat := by omega
    rw [strInt, if_neg (by omega), habs]
  rw [zeroPadded, hstr]
  exact pad_toDigits hwidth hbound

variable {d d' : Datetime} {a b : CivilDay} {wall : Int}

theorem toIst_wall (d : Datetime) : (toIst d).wall = d.denotes + istOffset := by
  obtain ⟨wall, tzinfo⟩ := d
  cases tzinfo with
  | none => exact (Int.sub_add_cancel wall istOffset).symm
  | some o => rfl

/-- Four digits are enough for the year. -/
def fourDigits (day : CivilDay) : Prop := 1000 ≤ day.year ∧ day.year ≤ 9999

theorem two_digits (d : CivilDay) : (1 ≤ d.month ∧ d.month ≤ 12) ∧ 1 ≤ d.day ∧ d.day ≤ 31 := by
  have hday := d.day_valid
  have hmonths : daysInMonth d.year d.month ≤ 31 := by
    unfold daysInMonth
    split
    · split
      · decide
      · decide
    · split
      · decide
      · decide
  exact ⟨d.month_valid, by omega, by omega⟩

/-- **What is printed**, where the year takes four digits. -/
theorem toIstIso_eq (h : fourDigits (calendarDay (toIst d).wall)) :
    toIstIso d = dateText (calendarDay (toIst d).wall) ++ 'T' ::
      (timeText (milliOfDay (toIst d).wall) ++ "+05:30".toList) := by
  generalize hwall : (toIst d).wall = wall at h
  obtain ⟨hmonth, hday⟩ := two_digits (calendarDay wall)
  -- what `strftime` prints, field by field
  have hdate : strftime wall = zeroPadded 4 (calendarDay wall).year ++ '-' ::
      (zeroPadded 2 (calendarDay wall).month ++ '-' :: (zeroPadded 2 (calendarDay wall).day ++
        'T' :: (zeroPadded 2 (wall / second % 86400 / 3600) ++ ':' ::
          (zeroPadded 2 (wall / second % 86400 / 60 % 60) ++ ':' ::
            zeroPadded 2 (wall / second % 86400 % 60))))) := rfl
  -- the fields of the time as parts of one number of milliseconds
  have hhour : wall / second % 86400 / 3600 = (milliOfDay wall / 3600000 : Nat) := by
    unfold milliOfDay second
    omega
  have hminute : wall / second % 86400 / 60 % 60 = (milliOfDay wall / 60000 % 60 : Nat) := by
    unfold milliOfDay second
    omega
  have hsecond : wall / second % 86400 % 60 = (milliOfDay wall / 1000 % 60 : Nat) := by
    unfold milliOfDay second
    omega
  have hmillis : wall % second / 1000 = (milliOfDay wall % 1000 : Nat) := by
    unfold milliOfDay second
    omega
  have hbound : milliOfDay wall < 86400000 := by
    unfold milliOfDay
    omega
  have hpad : ∀ n : Nat, n < 100 → zeroPadded 2 n = digits 2 n := fun n hn =>
    zeroPadded_digits (by decide) (by omega) (by omega)
  have hpad3 : zeroPadded 3 (milliOfDay wall % 1000 : Nat) = digits 3 (milliOfDay wall % 1000) :=
    zeroPadded_digits (by decide) (by omega) (by omega)
  have hyear : zeroPadded 4 (calendarDay wall).year = digits 4 (calendarDay wall).year.toNat :=
    zeroPadded_digits (by decide) (Int.le_trans (by decide) h.1)
      (Int.lt_of_le_of_lt h.2 (by decide))
  rw [toIstIso, hwall, hdate, hyear, zeroPadded_digits (by decide) (by omega) (by omega),
    zeroPadded_digits (by decide) (by omega) (by omega), hhour, hminute, hsecond, hmillis,
    hpad _ (by omega), hpad _ (by omega), hpad _ (by omega), hpad3, dateText, timeText]
  simp only [List.append_assoc, List.cons_append]

/-- IST is within two days of what the clock reads, and so are the years. -/
theorem Datetime.FourDigits.fourDigits (h : d.FourDigits) :
    fourDigits (calendarDay (toIst d).wall) := by
  have hclose : d.wall - 2 * oneDay < (toIst d).wall ∧ (toIst d).wall < d.wall + 2 * oneDay := by
    have hoffset : -oneDay < d.tzinfo.getD istOffset ∧ d.tzinfo.getD istOffset < oneDay := by
      cases ho : d.tzinfo with
      | none => decide
      | some o => exact h.offset o ho
    have hist : 0 < istOffset ∧ istOffset < oneDay := by decide
    rw [toIst_wall, Datetime.denotes]
    omega
  have hday := calendarDay_ordinal d.wall
  have hist := calendarDay_ordinal (toIst d).wall
  have hwithin := ordinal_in_year (calendarDay d.wall)
  have histWithin := ordinal_in_year (calendarDay (toIst d).wall)
  unfold oneDay second at hclose
  unfold second at hday hist
  have hfirst := daysBeforeYear_mono h.year.1
  have hlast : daysBeforeYear ((calendarDay d.wall).year + 1) ≤ daysBeforeYear 9999 :=
    daysBeforeYear_mono (by have := h.year.2; omega)
  -- There is a year to spare at both ends, and two days are needed.
  have hspare : daysBeforeYear 1000 + 2 < daysBeforeYear 1001 ∧
      daysBeforeYear 9999 + 2 < daysBeforeYear 10000 := by decide
  constructor
  · refine Int.not_lt.mp fun hearly => ?_
    have hbefore : daysBeforeYear ((calendarDay (toIst d).wall).year + 1) ≤ daysBeforeYear 1000 :=
      daysBeforeYear_mono (by omega)
    omega
  · refine Int.not_lt.mp fun hlate => ?_
    have hafter : daysBeforeYear 10000 ≤ daysBeforeYear (calendarDay (toIst d).wall).year :=
      daysBeforeYear_mono (by omega)
    omega

/-! ## In order -/

theorem length_dateText (day : CivilDay) : (dateText day).length = 10 := by
  simp [dateText]

/-- An earlier day is an earlier text. -/
theorem dateText_lt (ha : fourDigits a) (hb : fourDigits b) (h : a < b) :
    dateText a < dateText b := by
  have hmonths := (two_digits a).1
  have hmonths' := (two_digits b).1
  have hdays := (two_digits a).2
  have hdays' := (two_digits b).2
  unfold SarkariWorld.fourDigits at ha hb
  refine digits_append_lt (by omega) ?_
  rcases h with hyear | ⟨hyear, hrest⟩
  · left
    omega
  · refine .inr ⟨congrArg Int.toNat hyear, cons_lt_cons _ (digits_append_lt (by omega) ?_)⟩
    rcases hrest with hmonth | ⟨hmonth, hday⟩
    · left
      omega
    · exact .inr ⟨congrArg Int.toNat hmonth, cons_lt_cons _ (digits_lt (by omega) (by omega))⟩

/-- A millisecond earlier in the day is an earlier text. -/
theorem timeText_lt {m n : Nat} (h : m < n) (hn : n < 86400000) : timeText m < timeText n := by
  refine digits_append_lt (by omega) ?_
  rcases Nat.lt_or_ge (m / 3600000) (n / 3600000) with hhour | hhour
  · exact .inl hhour
  · refine .inr ⟨by omega, cons_lt_cons _ (digits_append_lt (by omega) ?_)⟩
    rcases Nat.lt_or_ge (m / 60000 % 60) (n / 60000 % 60) with hminute | hminute
    · exact .inl hminute
    · refine .inr ⟨by omega, cons_lt_cons _ (digits_append_lt (by omega) ?_)⟩
      rcases Nat.lt_or_ge (m / 1000 % 60) (n / 1000 % 60) with hsecond | hsecond
      · exact .inl hsecond
      · exact .inr ⟨by omega, cons_lt_cons _ (digits_lt (by omega) (by omega))⟩

/-- The day and the millisecond of it are those of the millisecond. -/
theorem sameMillisecond {wall wall' : Int} (h : wall / 1000 = wall' / 1000) :
    calendarDay wall = calendarDay wall' ∧ milliOfDay wall = milliOfDay wall' := by
  refine ⟨ordinal_inj.mp ?_, congrArg (fun millis => (millis % 86400000).toNat) h⟩
  rw [calendarDay_ordinal, calendarDay_ordinal]
  unfold second
  omega

/-- **What is printed is in the order of the milliseconds.** -/
theorem toIstIso_lt (hd : fourDigits (calendarDay (toIst d).wall))
    (hd' : fourDigits (calendarDay (toIst d').wall))
    (h : (toIst d).wall / 1000 < (toIst d').wall / 1000) : toIstIso d < toIstIso d' := by
  rw [toIstIso_eq hd, toIstIso_eq hd']
  generalize (toIst d).wall = wall at hd h
  generalize (toIst d').wall = wall' at hd' h
  have hday := calendarDay_ordinal wall
  have hday' := calendarDay_ordinal wall'
  unfold second at hday hday'
  -- The days decide, or they are the same and their milliseconds do.
  rcases Int.lt_or_le (calendarDay wall).ordinal (calendarDay wall').ordinal with hbefore | hsame
  · refine append_lt_append ?_ (dateText_lt hd hd' (ordinal_lt_iff.mp hbefore)) _ _
    rw [length_dateText, length_dateText]
  · have hdays : calendarDay wall = calendarDay wall' := ordinal_inj.mp (by omega)
    have hmillis : milliOfDay wall < milliOfDay wall' ∧ milliOfDay wall' < 86400000 := by
      unfold milliOfDay
      omega
    rw [hdays]
    refine List.append_left_lt (cons_lt_cons _ ?_)
    exact append_lt_append (by simp [timeText]) (timeText_lt hmillis.1 hmillis.2) _ _

/-! ## Read back -/

/-- The day is made from its own numbers. -/
theorem mkDay_self (day : CivilDay) (h : fourDigits day) :
    mkDay day.year.toNat day.month.toNat day.day.toNat = some day := by
  have hmonth := day.month_valid
  have hday := day.day_valid
  have hyear : (day.year.toNat : Int) = day.year := Int.toNat_of_nonneg (by have := h.1; omega)
  rw [hyear, Int.toNat_of_nonneg (by omega), Int.toNat_of_nonneg (by omega), mkDay,
    dif_pos ⟨by have := h.1; omega, hmonth, hday⟩]

/-- Midnight, and the milliseconds since. -/
theorem startOfDay_add (wall : Int) :
    startOfDay (calendarDay wall) + (milliOfDay wall : Int) * 1000 = wall / 1000 * 1000 := by
  have hday := calendarDay_ordinal wall
  unfold startOfDay milliOfDay second
  unfold second at hday
  omega

/-- A field that was printed is read. -/
theorem bind_readDigits {α : Type} {width n : Nat} (h : n < 10 ^ width) (rest : Text)
    (next : Nat × Text → Option α) :
    (readDigits width 0 (digits width n ++ rest) >>= next) = next (n, rest) := by
  rw [readDigits_digits h, Nat.zero_mul, Nat.zero_add, Option.bind_eq_bind, Option.bind_some]

theorem bind_expect {α : Type} (mark : Char) (rest : Text) (next : Text → Option α) :
    (expect mark (mark :: rest) >>= next) = next rest := by
  rw [expect, if_pos rfl, Option.bind_eq_bind, Option.bind_some]

/-- **What is printed is read back, to the millisecond.** -/
theorem fromIsoformat_toIstIso (h : fourDigits (calendarDay (toIst d).wall)) :
    fromIsoformat (toIstIso d) = some ⟨(toIst d).wall / 1000 * 1000, some istOffset⟩ := by
  rw [toIstIso_eq h, ← startOfDay_add]
  generalize (toIst d).wall = wall at h
  have hmillis : milliOfDay wall < 86400000 := by
    unfold milliOfDay
    omega
  obtain ⟨hmonths, hdays⟩ := two_digits (calendarDay wall)
  have hyear : (calendarDay wall).year.toNat < 10 ^ 4 := by
    have := h.2
    omega
  have hmonth : (calendarDay wall).month.toNat < 10 ^ 2 := by omega
  have hday : (calendarDay wall).day.toNat < 10 ^ 2 := by omega
  have hhour : milliOfDay wall / 3600000 < 10 ^ 2 := by omega
  have hminute : milliOfDay wall / 60000 % 60 < 10 ^ 2 := by omega
  have hsecond : milliOfDay wall / 1000 % 60 < 10 ^ 2 := by omega
  have hmilli : milliOfDay wall % 1000 < 10 ^ 3 := by omega
  have hoffset : readOffset "+05:30".toList = some istOffset := by decide
  rw [dateText, timeText]
  simp only [List.append_assoc, List.cons_append]
  -- A field is read before what follows it is looked at.
  simp only [fromIsoformat, ↓bind_expect, ↓bind_readDigits hyear, ↓bind_readDigits hmonth,
    ↓bind_readDigits hday, ↓bind_readDigits hhour, ↓bind_readDigits hminute,
    ↓bind_readDigits hsecond, ↓bind_readDigits hmilli, hoffset, mkDay_self _ h,
    Option.bind_eq_bind, Option.bind_some]
  rw [if_neg (by omega)]
  simp only [Option.some.injEq, Datetime.mk.injEq, and_true]
  omega

/-! ## The wire -/

/-- Within one millisecond everything is printed alike. -/
theorem toIstIso_congr (hd : fourDigits (calendarDay (toIst d).wall))
    (hd' : fourDigits (calendarDay (toIst d').wall))
    (h : (toIst d).wall / 1000 = (toIst d').wall / 1000) : toIstIso d = toIstIso d' := by
  obtain ⟨hday, hmillis⟩ := sameMillisecond h
  rw [toIstIso_eq hd, toIstIso_eq hd', hday, hmillis]

/-- An instant no later is a text no later. -/
theorem toIstIso_mono (h : d.FourDigits) (h' : d'.FourDigits) (hle : d.denotes ≤ d'.denotes) :
    toIstIso d ≤ toIstIso d' := by
  have hmillis : (toIst d).wall / 1000 ≤ (toIst d').wall / 1000 := by
    rw [toIst_wall, toIst_wall]
    omega
  rcases Int.lt_or_eq_of_le hmillis with hlt | heq
  · exact le_of_lt (toIstIso_lt h.fourDigits h'.fourDigits hlt)
  · exact le_of_eq (toIstIso_congr h.fourDigits h'.fourDigits heq)

/-- **Timestamps on the wire stand in the order of their instants**, all of them in IST, and
lose nothing but what is below the millisecond. -/
theorem wire_timestamps_sortable (d d' : Datetime) (h : d.FourDigits) (h' : d'.FourDigits) :
    (d.denotes ≤ d'.denotes → toIstIso d ≤ toIstIso d') ∧
      (d.denotes = d'.denotes → toIstIso d = toIstIso d') ∧
      "+05:30".toList <:+ toIstIso d ∧
      (fromIsoformat (toIstIso d)).map Datetime.instant = some (d.denotes / 1000 * 1000) := by
  refine ⟨toIstIso_mono h h', fun heq => ?_, ?_, ?_⟩
  · refine toIstIso_congr h.fourDigits h'.fourDigits ?_
    rw [toIst_wall, toIst_wall, heq]
  · rw [toIstIso_eq h.fourDigits]
    exact ((List.suffix_append _ _).trans (List.suffix_cons _ _)).trans (List.suffix_append _ _)
  · rw [fromIsoformat_toIstIso h.fourDigits, toIst_wall, Option.map_some, Option.some.injEq]
    show (d.denotes + istOffset) / 1000 * 1000 - istOffset = _
    unfold istOffset second
    omega

/-- Half past six in the evening in UTC is the new year in India. -/
theorem new_year_sortable :
    toIstIso ⟨1735669800123456, some 0⟩ = toIstIso (naive 1735689600123456) ∧
      (fromIsoformat (toIstIso ⟨1735669800123456, some 0⟩)).map Datetime.instant =
        some 1735669800123000 := by
  obtain ⟨-, hsame, -, hread⟩ := wire_timestamps_sortable ⟨1735669800123456, some 0⟩
    (naive 1735689600123456) ⟨by decide, by decide⟩ ⟨by decide, nofun⟩
  exact ⟨hsame rfl, hread⟩

end SarkariWorld
