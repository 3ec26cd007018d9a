import Mathlib.Algebra.Order.Ring.Int
import NginxFastcgi.Foundation.Decimal

/-!
# Calendar time

The Gregorian calendar, extended in both directions, and the time functions of
the C library over it.  Days are counted from 1 January 1970.  The time zone
has a fixed offset from UTC, in seconds, and no daylight saving.

`mktime` takes fields outside their ranges, as the standard has it; it undoes
`localtime` (`mktime_localtime`).
-/

namespace Foundation.Calendar

open Foundation.Decimal

/-! ## Days -/

def isLeap (year : Int) : Bool :=
  year % 4 = 0 ∧ (year % 100 ≠ 0 ∨ year % 400 = 0)

/-- The first day of a year: 477 leap days come before 1970. -/
def daysBeforeYear (year : Int) : Int :=
  365 * (year - 1970) + ((year - 1) / 4 - (year - 1) / 100 + (year - 1) / 400 - 477)

/-- The months are counted from 0, as in `tm_mon`. -/
def daysInMonth (leap : Bool) : Nat → Int
  | 1 => if leap then 29 else 28
  | 3 | 5 | 8 | 10 => 30
  | _ => 31

def daysBeforeMonth (leap : Bool) : Nat → Int
  | 0 => 0
  | month + 1 => daysBeforeMonth leap month + daysInMonth leap month

/-- The year of a day.  The average length of a year misses it by one at most. -/
def yearOf (day : Int) : Int :=
  let near := 1970 + day * 400 / 146097
  if day < daysBeforeYear near then
    near - 1
  else if daysBeforeYear (near + 1) ≤ day then
    near + 1
  else
    near

/-- The last of the months up to `month` that has begun on the day of the year. -/
def monthOf (leap : Bool) (yday : Int) : Nat → Nat
  | 0 => 0
  | month + 1 =>
      if daysBeforeMonth leap (month + 1) ≤ yday then month + 1 else monthOf leap yday month

/-- A year has one day more than 365 where it is a leap year. -/
theorem daysBeforeYear_succ (year : Int) :
    daysBeforeYear (year + 1) = daysBeforeYear year + daysBeforeMonth (isLeap year) 12 := by
  have months : daysBeforeMonth (isLeap year) 12 = if isLeap year then 366 else 365 := by
    cases isLeap year <;> rfl
  rw [months]
  simp only [daysBeforeYear, isLeap, decide_eq_true_eq]
  split <;> omega

/-- 400 years have 146097 days, so that no year begins more than an average year
away from where it would by the average. -/
theorem daysBeforeYear_near (year : Int) :
    146097 * (year - 1971) ≤ 400 * daysBeforeYear year ∧
      400 * daysBeforeYear year ≤ 146097 * (year - 1969) := by
  unfold daysBeforeYear
  constructor <;> omega

theorem yearOf_begun (day : Int) : daysBeforeYear (yearOf day) ≤ day := by
  unfold yearOf
  extract_lets near
  have average : 146097 * (near - 1970) ≤ 400 * day := by omega
  split
  · have begins := (daysBeforeYear_near (near - 1)).2
    omega
  · next notBefore =>
      split
      · next begun => exact begun
      · exact not_lt.mp notBefore

theorem yearOf_not_over (day : Int) : day < daysBeforeYear (yearOf day + 1) := by
  unfold yearOf
  extract_lets near
  have average : 400 * day < 146097 * (near - 1969) := by omega
  split
  · next before => rwa [sub_add_cancel]
  · split
    · have begins := (daysBeforeYear_near (near + 1 + 1)).1
      omega
    · next later => exact not_le.mp later

theorem daysInMonth_le (leap : Bool) (month : Nat) : daysInMonth leap month ≤ 31 := by
  unfold daysInMonth
  split
  · split <;> decide
  all_goals decide

theorem monthOf_le (leap : Bool) (yday : Int) (last : Nat) : monthOf leap yday last ≤ last := by
  induction last with
  | zero => exact Nat.le_refl 0
  | succ last inductionHypothesis =>
      rw [monthOf]
      split
      · exact Nat.le_refl _
      · exact Nat.le_succ_of_le inductionHypothesis

theorem monthOf_begun (leap : Bool) {yday : Int} (nonneg : 0 ≤ yday) (last : Nat) :
    daysBeforeMonth leap (monthOf leap yday last) ≤ yday := by
  induction last with
  | zero => exact nonneg
  | succ last inductionHypothesis =>
      rw [monthOf]
      split
      · next begun => exact begun
      · exact inductionHypothesis

theorem monthOf_not_over (leap : Bool) {yday : Int} (last : Nat)
    (inside : yday < daysBeforeMonth leap (last + 1)) :
    yday < daysBeforeMonth leap (monthOf leap yday last + 1) := by
  induction last with
  | zero => exact inside
  | succ last inductionHypothesis =>
      rw [monthOf]
      split
      · exact inside
      · next later => exact inductionHypothesis (not_le.mp later)

/-! ## Broken-down time -/

/-- `struct tm`, less the day of the week. -/
structure Tm where
  tmSec : Int
  tmMin : Int
  tmHour : Int
  tmMday : Int
  tmMon : Int
  tmYear : Int
  tmYday : Int
  tmIsdst : Int
deriving DecidableEq, Repr

/-- The local time of `time` in the zone `offset` seconds ahead of UTC. -/
def localtime (offset time : Int) : Tm :=
  let day := (time + offset) / 86400
  let second := (time + offset) % 86400
  let year := yearOf day
  let yday := day - daysBeforeYear year
  let month := monthOf (isLeap year) yday 11
  { tmSec := second % 60
    tmMin := second / 60 % 60
    tmHour := second / 3600
    tmMday := yday - daysBeforeMonth (isLeap year) month + 1
    tmMon := month
    tmYear := year - 1900
    tmYday := yday
    tmIsdst := 0 }

/-- The time of the local time `tm`.  Without daylight saving `tm_isdst` says
nothing. -/
def mktime (offset : Int) (tm : Tm) : Int :=
  let year := 1900 + tm.tmYear + tm.tmMon / 12
  let month := (tm.tmMon % 12).toNat
  let day := daysBeforeYear year + daysBeforeMonth (isLeap year) month + (tm.tmMday - 1)
  day * 86400 + tm.tmHour * 3600 + tm.tmMin * 60 + tm.tmSec - offset

/-- The fields are in the ranges that the standard gives for them. -/
structure Tm.InRange (tm : Tm) : Prop where
  sec : 0 ≤ tm.tmSec ∧ tm.tmSec < 60
  min : 0 ≤ tm.tmMin ∧ tm.tmMin < 60
  hour : 0 ≤ tm.tmHour ∧ tm.tmHour < 24
  mday : 1 ≤ tm.tmMday ∧ tm.tmMday ≤ 31
  mon : 0 ≤ tm.tmMon ∧ tm.tmMon < 12

theorem inRange_localtime (offset time : Int) : (localtime offset time).InRange := by
  generalize dayEq : (time + offset) / 86400 = day
  have begun := yearOf_begun day
  have notOver := yearOf_not_over day
  rw [daysBeforeYear_succ] at notOver
  have nonneg : 0 ≤ day - daysBeforeYear (yearOf day) := by omega
  have monthBegun := monthOf_begun (isLeap (yearOf day)) nonneg 11
  have monthNotOver := monthOf_not_over (isLeap (yearOf day)) 11
    (sub_left_lt_of_lt_add notOver)
  have days := daysInMonth_le (isLeap (yearOf day))
    (monthOf (isLeap (yearOf day)) (day - daysBeforeYear (yearOf day)) 11)
  have months := monthOf_le (isLeap (yearOf day)) (day - daysBeforeYear (yearOf day)) 11
  rw [daysBeforeMonth] at monthNotOver
  constructor <;> simp only [localtime, dayEq] <;> omega

/-- Counting the seconds of the local time gives the time back. -/
theorem mktime_localtime (offset time : Int) : mktime offset (localtime offset time) = time := by
  generalize dayEq : (time + offset) / 86400 = day
  have months := monthOf_le (isLeap (yearOf day)) (day - daysBeforeYear (yearOf day)) 11
  simp only [mktime, localtime, dayEq]
  generalize monthOf (isLeap (yearOf day)) (day - daysBeforeYear (yearOf day)) 11 = month
    at months
  have year : 1900 + (yearOf day - 1900) + (month : Int) / 12 = yearOf day := by omega
  have monthEq : ((month : Int) % 12).toNat = month := by omega
  rw [year, monthEq]
  omega

/-- The minutes and seconds of the local time are the time since its hour began. -/
theorem localtime_in_hour (offset time : Int) :
    (localtime offset time).tmMin * 60 + (localtime offset time).tmSec =
      (time + offset) % 3600 := by
  simp only [localtime]
  omega

/-- Times of one hour are as far apart as their minutes and seconds say. -/
theorem mktime_of_hour {offset : Int} {first second : Tm} (year : first.tmYear = second.tmYear)
    (mon : first.tmMon = second.tmMon) (mday : first.tmMday = second.tmMday)
    (hour : first.tmHour = second.tmHour) :
    mktime offset first =
      mktime offset second - (second.tmMin * 60 + second.tmSec) +
        first.tmMin * 60 + first.tmSec := by
  simp only [mktime, year, mon, mday, hour]
  omega

/-! ## Time in text -/

/-- The text of a format with the conversions `%Y`, `%m`, `%d`, `%H`, `%M` and `%S`. -/
def formatTime (tm : Tm) : List Char → List Char
  | [] => []
  | '%' :: 'Y' :: format => decimal (tm.tmYear + 1900) ++ formatTime tm format
  | '%' :: 'm' :: format => zeroPadded 2 (tm.tmMon + 1) ++ formatTime tm format
  | '%' :: 'd' :: format => zeroPadded 2 tm.tmMday ++ formatTime tm format
  | '%' :: 'H' :: format => zeroPadded 2 tm.tmHour ++ formatTime tm format
  | '%' :: 'M' :: format => zeroPadded 2 tm.tmMin ++ formatTime tm format
  | '%' :: 'S' :: format => zeroPadded 2 tm.tmSec ++ formatTime tm format
  | char :: format => char :: formatTime tm format

/-- `strftime` into an array of `size` characters: the text, or nothing where it does
not fit with its terminator.  Then the contents of the array are indeterminate. -/
def strftime (size : Nat) (format : List Char) (tm : Tm) : Option (List Char) :=
  if (formatTime tm format).length < size then some (formatTime tm format) else none

end Foundation.Calendar
