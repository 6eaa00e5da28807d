import Mathlib.Algebra.Order.Ring.Int
import Mathlib.Tactic.Common

/-!
The bounds of a day, in a time zone of a fixed offset.

A calendar has the fields of an instant, and one field after the other is set. The end of a day is
set to its last second, and the milliseconds of that second are set to none.

Instants are integers. The bounds are in the day of the instant, so a `long` holds them unless the
instant is within a day of its ends.
-/

namespace Logful.DateTimeUtil

/-- The fields of a calendar; a day goes by its number. -/
structure Calendar where
  day : ℤ
  hourOfDay : ℤ
  minute : ℤ
  second : ℤ
  millisecond : ℤ
  deriving DecidableEq

/-- `setTime`, for the milliseconds that the zone is ahead. -/
def Calendar.ofTime (offset time : ℤ) : Calendar :=
  let zoned := time + offset
  { day := zoned / 86400000
    hourOfDay := zoned / 3600000 % 24
    minute := zoned / 60000 % 60
    second := zoned / 1000 % 60
    millisecond := zoned % 1000 }

def Calendar.getTime (offset : ℤ) (c : Calendar) : ℤ :=
  (((c.day * 24 + c.hourOfDay) * 60 + c.minute) * 60 + c.second) * 1000 + c.millisecond - offset

/-- What is set is got back. -/
lemma Calendar.getTime_ofTime (offset time : ℤ) : (ofTime offset time).getTime offset = time := by
  simp only [getTime, ofTime]
  omega

def dayStart (offset date : ℤ) : ℤ :=
  let calendar := Calendar.ofTime offset date
  let calendar := { calendar with hourOfDay := 0 }
  let calendar := { calendar with minute := 0 }
  let calendar := { calendar with second := 0 }
  let calendar := { calendar with millisecond := 0 }
  calendar.getTime offset

def dayEnd (offset date : ℤ) : ℤ :=
  let calendar := Calendar.ofTime offset date
  let calendar := { calendar with hourOfDay := 23 }
  let calendar := { calendar with minute := 59 }
  let calendar := { calendar with second := 59 }
  let calendar := { calendar with millisecond := 0 }
  calendar.getTime offset

/-- A `long` holds the instant. -/
def IsLong (time : ℤ) : Prop := -2 ^ 63 ≤ time ∧ time < 2 ^ 63

lemma isLong_bounds {offset date : ℤ} (hbefore : IsLong (date - 86400000))
    (hbehind : IsLong (date + 86400000)) :
    IsLong (dayStart offset date) ∧ IsLong (dayEnd offset date) := by
  simp only [IsLong, dayStart, dayEnd, Calendar.getTime, Calendar.ofTime] at *
  omega

/-! ### Days -/

/-- The day of an instant. -/
def dayOf (offset time : ℤ) : ℤ := (Calendar.ofTime offset time).day

/-- The instant is in the last second of its day, and not at its beginning. -/
def InLastSecond (offset time : ℤ) : Prop := 86399000 < (time + offset) % 86400000

instance (offset time : ℤ) : Decidable (InLastSecond offset time) :=
  inferInstanceAs (Decidable (_ < _))

variable {offset time date : ℤ}

lemma dayStart_le_iff : dayStart offset date ≤ time ↔ dayOf offset date ≤ dayOf offset time := by
  simp only [dayStart, dayOf, Calendar.getTime, Calendar.ofTime]
  omega

/-- What comes after the end of a day is on a later day, or in the last second of this one. -/
lemma dayEnd_lt_iff : dayEnd offset date < time ↔ dayOf offset date < dayOf offset time ∨
    (dayOf offset date = dayOf offset time ∧ InLastSecond offset time) := by
  simp only [dayEnd, dayOf, InLastSecond, Calendar.getTime, Calendar.ofTime]
  omega

end Logful.DateTimeUtil
