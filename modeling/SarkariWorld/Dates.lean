import SarkariWorld.Lib.Text

/-!
# Instants, datetimes and date columns

The clock is a count of microseconds since 1970-01-01T00:00Z, the resolution of
`datetime.now`. A `Datetime` is Python's: a wall-clock reading together with
the UTC offset of its `tzinfo`, or no offset when it is naive.

All but one of the service's date columns are `TIMESTAMP(3)` without a zone:
they hold naive IST values, rounded to the millisecond on the way in, and are
modelled as microseconds since 1970-01-01T00:00 on the IST wall clock.
`session_invalidated_at` alone is a `TIMESTAMPTZ(6)` and keeps the instant to
the microsecond.
-/

namespace SarkariWorld

open Lib

/-- A Python datetime: its wall clock, and its UTC offset in microseconds if it
is aware. -/
structure Datetime where
  wall : Int
  tzinfo : Option Int
  deriving DecidableEq, Repr

/-- The instant an aware datetime denotes; comparing aware datetimes compares
these. -/
def Datetime.instant (d : Datetime) : Int := d.wall - d.tzinfo.getD 0

/-- Microseconds in a second. -/
def second : Nat := 1000000

/-- The offset of `IST`, five and a half hours. -/
def istOffset : Int := 19800 * second

/-- `now_ist()`: the current time as a naive IST value. -/
def nowIst (clock : Nat) : Int := clock + istOffset

/-- `utc_now()`. -/
def utcNow (clock : Nat) : Datetime := ⟨clock, some 0⟩

@[simp] theorem utcNow_instant (clock : Nat) : (utcNow clock).instant = clock := by
  simp [utcNow, Datetime.instant]

/-- What a `TIMESTAMP(3)` column keeps of a value: it is rounded to the millisecond. Half a
millisecond goes up here. Postgres counts from 2000-01-01 and rounds a half away from there,
so it would go down for a date of an earlier year; no stamp of the service's own clock is one. -/
def timestamp3 (t : Int) : Int := (t + 500) / 1000 * 1000

/-- What a column keeps, it keeps as it is. -/
theorem timestamp3_idem (t : Int) : timestamp3 (timestamp3 t) = timestamp3 t := by
  unfold timestamp3
  omega

theorem timestamp3_mono {t t' : Int} (h : t ≤ t') : timestamp3 t ≤ timestamp3 t' := by
  unfold timestamp3
  omega

/-- A naive datetime. -/
def naive (wall : Int) : Datetime := ⟨wall, none⟩

/-! ## On the wire -/

/-- `to_ist`, on a value. A naive one is taken as IST. -/
def toIst (d : Datetime) : Datetime :=
  match d.tzinfo with
  | none => { d with tzinfo := some istOffset }
  | some _ => ⟨d.instant + istOffset, some istOffset⟩

/-- Year, month and day, in the Gregorian calendar, of a day counted from
1970-01-01. The year is counted from March on the way, so that a leap day comes
last. -/
def civilDate (days : Int) : Int × Int × Int :=
  let z := days + 719468
  let doe := z % 146097
  let yoe := (doe - doe / 1460 + doe / 36524 - doe / 146096) / 365
  let doy := doe - (365 * yoe + yoe / 4 - yoe / 100)
  let mp := (5 * doy + 2) / 153
  let month := if mp < 10 then mp + 3 else mp - 9
  (yoe + z / 146097 * 400 + (if month ≤ 2 then 1 else 0), month, doy - (153 * mp + 2) / 5 + 1)

/-- A number in at least `width` digits. -/
def zeroPadded (width : Nat) (n : Int) : Text :=
  let digits := strInt n
  List.replicate (width - digits.length) '0' ++ digits

/-- `strftime("%Y-%m-%dT%H:%M:%S")`, with `%Y` padded to four digits as the Python of this
repository does it on every platform. -/
def strftime (wall : Int) : Text :=
  let seconds := wall / second % 86400
  let (year, month, day) := civilDate (wall / second / 86400)
  zeroPadded 4 year ++ '-' :: (zeroPadded 2 month ++ '-' :: (zeroPadded 2 day ++ 'T' ::
    (zeroPadded 2 (seconds / 3600) ++ ':' :: (zeroPadded 2 (seconds / 60 % 60) ++ ':' ::
      zeroPadded 2 (seconds % 60)))))

/-- `to_ist_iso`, on a value. -/
def toIstIso (d : Datetime) : Text :=
  let aware := toIst d
  let millis := aware.wall % second / 1000
  strftime aware.wall ++ '.' :: (zeroPadded 3 millis ++ "+05:30".toList)

example : toIstIso (naive 1709189999999500) = "2024-02-29T06:59:59.999+05:30".toList := by decide

end SarkariWorld
