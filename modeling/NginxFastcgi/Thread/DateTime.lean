import NginxFastcgi.Foundation.Calendar
import NginxFastcgi.Foundation.MachineInt

/-!
# `DateTime`

Times as text, `2017-12-24 18:28:38`.  The format that `Time2String` writes has
colons in the time of day; the one that `String2Time` reads has minus signs
there.  The reading ends at the first colon, so that the minutes and the seconds
keep what the memory of `local_tm` held before.
-/

namespace NginxFastcgi.Thread.DateTime

open Foundation.Calendar
open Foundation.Decimal
open Foundation.MachineInt

/-- `sizeof("yyyy-mm-dd hh:mm:ss")`, with the terminator. -/
def timeArraySize : Nat :=
  20

/-- Nothing where the contents of `time_array` are indeterminate. -/
def time2String (offset tt : Int) : Option (List Char) :=
  strftime timeArraySize "%Y-%m-%d %H:%M:%S".toList (localtime offset tt)

/-- The variables that `String2Time` passes to `sscanf`, in their order; without a
value they stay as they are. -/
def assign (localTm : Tm) (values : List Int) : Tm :=
  { localTm with
    tmYear := values.getD 0 localTm.tmYear
    tmMon := values.getD 1 localTm.tmMon
    tmMday := values.getD 2 localTm.tmMday
    tmHour := values.getD 3 localTm.tmHour
    tmMin := values.getD 4 localTm.tmMin
    tmSec := values.getD 5 localTm.tmSec }

/-- `indeterminate` is what the memory of `local_tm` holds before. -/
def string2Time (offset : Int) (indeterminate : Tm) (timeStr : List Char) : Int :=
  let cStr := timeStr.takeWhile (· ≠ '\x00')
  let localTm := assign indeterminate (sscanf "%d-%d-%d %d-%d-%d".toList cStr)
  mktime offset
    { localTm with
      tmYear := toInt32 (localTm.tmYear - 1900)
      tmMon := toInt32 (localTm.tmMon - 1)
      tmIsdst := 0 }

/-- The local year is written with four digits. -/
def FourDigitYear (offset tt : Int) : Prop :=
  1000 ≤ (localtime offset tt).tmYear + 1900 ∧ (localtime offset tt).tmYear + 1900 < 10000

variable {offset tt : Int} {tm : Tm}

/-! ## The text -/

/-- The text of `Time2String`, field by field. -/
def timeText (tm : Tm) : List Char :=
  decimal (tm.tmYear + 1900) ++ '-' :: (zeroPadded 2 (tm.tmMon + 1) ++ '-' ::
    (zeroPadded 2 tm.tmMday ++ ' ' :: (zeroPadded 2 tm.tmHour ++ ':' ::
      (zeroPadded 2 tm.tmMin ++ ':' :: zeroPadded 2 tm.tmSec))))

theorem formatTime_eq (tm : Tm) : formatTime tm "%Y-%m-%d %H:%M:%S".toList = timeText tm := by
  simp [formatTime, timeText]

/-- A year with four digits and two digits for each of the other fields. -/
theorem length_timeText (range : tm.InRange) (nonneg : 0 ≤ tm.tmYear + 1900)
    (year : tm.tmYear + 1900 < 10000) : (timeText tm).length < timeArraySize := by
  have two {value : Int} (nonneg : 0 ≤ value) (fits : value < 100) :
      (zeroPadded 2 value).length = 2 :=
    length_zeroPadded (by decide) value nonneg fits
  have four := length_decimal_le 4 (by decide) nonneg year
  rcases range with ⟨sec, min, hour, mday, mon⟩
  have monLength := two (show 0 ≤ tm.tmMon + 1 by omega) (by omega)
  have mdayLength := two (show 0 ≤ tm.tmMday by omega) (by omega)
  have hourLength := two hour.1 (by omega)
  have minLength := two min.1 (by omega)
  have secLength := two sec.1 (by omega)
  simp only [timeText, List.length_append, List.length_cons, monLength, mdayLength, hourLength,
    minLength, secLength, timeArraySize]
  omega

/-- The text fits the array. -/
theorem time2String_eq (year : FourDigitYear offset tt) :
    time2String offset tt = some (timeText (localtime offset tt)) := by
  have nonneg : 0 ≤ (localtime offset tt).tmYear + 1900 := le_trans (by decide) year.1
  rw [time2String, strftime, formatTime_eq,
    if_pos (length_timeText (inRange_localtime offset tt) nonneg year.2)]

theorem ne_nul_of_mem_timeText {char : Char} (mem : char ∈ timeText tm) : char ≠ '\x00' := by
  rintro rfl
  have number {width : Nat} {value : Int} : '\x00' ∉ zeroPadded width value := by
    intro mem
    rcases eq_minus_or_isDigit_of_mem mem with minus | digit
    · exact absurd minus (by decide)
    · exact absurd digit (by decide)
  simp [timeText, decimal, number] at mem

/-- What reading the text assigns: the minutes and the seconds are not reached. -/
theorem sscanf_timeText (tm : Tm) :
    sscanf "%d-%d-%d %d-%d-%d".toList (timeText tm) =
      [tm.tmYear + 1900, tm.tmMon + 1, tm.tmMday, tm.tmHour] := by
  have minus (rest : List Char) : Ends ('-' :: rest) := ends_cons.mpr (by decide)
  have space (rest : List Char) : Ends (' ' :: rest) := ends_cons.mpr (by decide)
  have colon (rest : List Char) : Ends (':' :: rest) := ends_cons.mpr (by decide)
  rw [String.toList_ofList, timeText,
    sscanf_int (scanInt_decimal _ (minus _)), sscanf_literal (by decide) (by decide),
    sscanf_int (scanInt_zeroPadded _ _ (minus _)), sscanf_literal (by decide) (by decide),
    sscanf_int (scanInt_zeroPadded _ _ (space _)), sscanf_space_int (by decide),
    sscanf_int ((scanInt_of_isSpace (by decide)).trans (scanInt_zeroPadded _ _ (colon _))),
    -- The format has a minus sign where the text has a colon.
    sscanf_mismatch (by decide) (by decide) (by decide)]

/-- The text has no terminator in it. -/
theorem cStr_timeText (tm : Tm) : (timeText tm).takeWhile (· ≠ '\x00') = timeText tm := by
  simpa using fun char => ne_nul_of_mem_timeText

/-- Year, month, day and hour are read back, the rest is what the memory held. -/
theorem string2Time_timeText (indeterminate : Tm)
    (year : toInt32 tm.tmYear = tm.tmYear) (mon : toInt32 tm.tmMon = tm.tmMon) :
    string2Time offset indeterminate (timeText tm) =
      mktime offset tm - (tm.tmMin * 60 + tm.tmSec) +
        indeterminate.tmMin * 60 + indeterminate.tmSec := by
  have yearField : toInt32 (tm.tmYear + 1900 - 1900) = tm.tmYear := by
    rw [Int.add_sub_cancel, year]
  have monField : toInt32 (tm.tmMon + 1 - 1) = tm.tmMon := by
    rw [Int.add_sub_cancel, mon]
  rw [string2Time, cStr_timeText, sscanf_timeText]
  exact mktime_of_hour yearField monField rfl rfl

/-- Reading the printed time gives its hour, and in it the minutes and seconds that
the memory held. -/
theorem string2Time_time2String (indeterminate : Tm) (year : FourDigitYear offset tt) :
    (time2String offset tt).map (string2Time offset indeterminate) =
      some (tt - (tt + offset) % 3600 + indeterminate.tmMin * 60 + indeterminate.tmSec) := by
  have range := inRange_localtime offset tt
  have yearFits : toInt32 (localtime offset tt).tmYear = (localtime offset tt).tmYear :=
    toInt32_of_bounds (by have := year.1; omega) (by have := year.2; omega)
  have monFits : toInt32 (localtime offset tt).tmMon = (localtime offset tt).tmMon :=
    toInt32_of_bounds (by have := range.mon; omega) (by have := range.mon; omega)
  rw [time2String_eq year, Option.map_some, string2Time_timeText indeterminate yearFits monFits,
    mktime_localtime, localtime_in_hour]

/-- The round trip is right where the memory held the minutes and the seconds of the
time itself. -/
theorem string2Time_time2String_iff (indeterminate : Tm) (year : FourDigitYear offset tt) :
    (time2String offset tt).map (string2Time offset indeterminate) = some tt ↔
      indeterminate.tmMin * 60 + indeterminate.tmSec = (tt + offset) % 3600 := by
  rw [string2Time_time2String indeterminate year, Option.some_inj]
  omega

theorem string2Time_time2String_iff_at :
    (time2String 3600 1514140118).map (string2Time 3600 (Tm.mk 38 28 0 0 0 0 0 0)) =
        some 1514140118 ↔
      (28 * 60 + 38 : Int) = (1514140118 + 3600) % 3600 :=
  string2Time_time2String_iff (Tm.mk 38 28 0 0 0 0 0 0) (by unfold FourDigitYear; decide)

/-- Of `2017-12-24 18:28:38` only the hour comes back where the memory was zero. -/
theorem string2Time_loses_minutes :
    FourDigitYear 0 1514140118 ∧
      (time2String 0 1514140118).map (string2Time 0 (Tm.mk 0 0 0 0 0 0 0 0)) ≠
        some 1514140118 := by
  unfold FourDigitYear
  decide +kernel

end NginxFastcgi.Thread.DateTime
