import Mathlib.Data.List.DropRight
import NginxFastcgi.Foundation.Calendar
import NginxFastcgi.Foundation.MachineInt
import NginxFastcgi.Foundation.TextBuffer

/-!
# The log writers

`_write_log_` and `_write_stderr_` print one line into a buffer on the stack, close
it with a newline and write it out.  The length of the line is the sum of what
`snprintf` and `vsnprintf` answer, cut off at the end of the buffer.

The line that `_write_log_` writes always has its heading, whereas a line of
`_write_stderr_` may be empty, and then the character before the buffer is read
(`staysInside_iff`).  `_write_log_` passes its line on to a file and to the console,
to one of them, or to none.
-/

namespace NginxFastcgi.Public.Log

open Foundation.Calendar
open Foundation.Decimal
open Foundation.MachineInt
open Foundation.TextBuffer

/-- `LOGSIZE`. -/
def logSize : Nat :=
  10 * 1024

/-- `LOGFILENAMELENGTH`. -/
def logFileNameLength : Nat :=
  1024

/-- The static variables. -/
structure Statics where
  appname : List Char
  logDir : List Char
  logfd : Int
  logday : Int
  noconsole : Bool

/-- What the system answers during a call of `_write_log_`. -/
structure Answers where
  tm : Tm
  getpid : Int
  gettid : Int
  /-- The answer of `fwrite` to a number of characters. -/
  fwrite : Nat → Int

/-- What a call of `_write_log_` leaves and does. -/
structure Outcome where
  statics : Statics
  /-- The file that was opened for a new day. -/
  opened : Option (List Char)
  /-- What was passed to `write` and `fwrite`, in this order. -/
  lines : List (List Char)

/-- The buffer on the stack, with what the memory held before. -/
def lineBuffer (contents : Nat → Char) : List Char :=
  (List.range logSize).map contents

/-! ## The parts of a line -/

def clampLevel (level : Int) : Int :=
  if level < 0 then 0 else if level > 7 then 7 else level

/-- The part of a path behind its last slash. -/
def basename (path : List Char) : List Char :=
  path.rtakeWhile (· ≠ '/')

/-- `<level>[hh:mm:ss] pid[id]: `, the part that both formats begin with. -/
def stamp (level : Int) (tm : Tm) (id : Int) : List Char :=
  '<' :: (decimal level ++ ">[".toList ++ zeroPadded 2 tm.tmHour ++ ":".toList ++
    zeroPadded 2 tm.tmMin ++ ":".toList ++ zeroPadded 2 tm.tmSec ++ "] pid[".toList ++
    decimal id ++ "]: ".toList)

/-- What is printed in front of the message. -/
def heading (answers : Answers) (level : Int) (filename : Option (List Char))
    (funcname : List Char) (lineno : Int) : List Char :=
  match filename with
  | none => stamp level answers.tm answers.getpid
  | some path =>
      stamp level answers.tm answers.gettid ++ basename path ++ "(".toList ++
        decimal lineno ++ ")[".toList ++ funcname ++ "]: ".toList

/-- The path of the file for a day, as `logfile` holds it. -/
def logfile (statics : Statics) (tm : Tm) : List Char :=
  (statics.logDir ++ "/".toList ++ statics.appname ++ ".error".toList ++
    zeroPadded 4 (tm.tmYear + 1900) ++ zeroPadded 2 (tm.tmMon + 1) ++
    zeroPadded 2 tm.tmMday ++ ".log".toList).take (logFileNameLength - 1)

/-- A new day opens a new file.  It is put under the old descriptor, so that `logfd`
stays. -/
def rotate (statics : Statics) (tm : Tm) : Statics × Option (List Char) :=
  let today := toInt32 (tm.tmYear * 1000 + tm.tmYday)
  if statics.logfd ≥ 0 ∧ today ≠ statics.logday then
    ({ statics with logday := today }, some (logfile statics tm))
  else
    (statics, none)

/-! ## The writers -/

/-- `off += snprintf(buf + off, LOGSIZE - off, ...)` with the cut behind it.  `off` is 0
for the heading and in `_write_stderr_`. -/
def print (buf : List Char) (off : Int) (text : List Char) : Option (List Char × Int) :=
  (snprintf buf off (toSize (logSize - off)) text).map fun printed =>
    let added := toInt32 (off + printed.2)
    (printed.1, if added ≥ logSize then logSize - 1 else added)

/-- A newline, where the line has none at its end. -/
def endLine (buf : List Char) (off : Int) : Option (List Char × Int) :=
  (readAt buf (off - 1)).bind fun last =>
    if last ≠ '\n' then
      (writeAt buf off '\n').map fun ended => (ended, off + 1)
    else
      some (buf, off)

/-- `_write_log_`.  The message is the text of `format` and its arguments. -/
def writeLog (statics : Statics) (answers : Answers) (level : Int)
    (filename : Option (List Char)) (funcname : List Char) (lineno : Int)
    (message : List Char) (contents : Nat → Char) : Option Outcome :=
  if statics.appname = [] then
    some { statics := statics, opened := none, lines := [] }
  else
    let level := clampLevel level
    (print (lineBuffer contents) 0 (heading answers level filename funcname lineno)).bind
      fun headed =>
    let rotated := rotate statics answers.tm
    (print headed.1 headed.2 message).bind fun printed =>
    (endLine printed.1 printed.2).bind fun ended =>
    (if statics.logfd ≥ 0 then
      (readRange ended.1 0 (toSize ended.2)).map fun line => [line]
    else
      some []).bind fun logged =>
    if level ≤ 6 ∧ ¬ statics.noconsole then
      -- A debug message does not go to the console.
      (readRange ended.1 3 (toSize (ended.2 - 3))).map fun line =>
        { statics := { rotated.1 with noconsole := answers.fwrite line.length ≤ 0 }
          opened := rotated.2
          lines := logged ++ [line] }
    else
      some { statics := rotated.1, opened := rotated.2, lines := logged }

/-- `_write_stderr_`. -/
def writeStderr (message : List Char) (contents : Nat → Char) : Option (List Char) :=
  (print (lineBuffer contents) 0 message).bind fun printed =>
    (endLine printed.1 printed.2).bind fun ended =>
      readRange ended.1 0 (toSize ended.2)

/-! ## Printing -/

variable {buf text message : List Char} {off : Int} {contents : Nat → Char}

/-- As much of a text as the buffer holds with a terminator. -/
def cutOff (text : List Char) : List Char :=
  text.take (logSize - 1)

/-- A line with its newline. -/
def closed (text : List Char) : List Char :=
  if text.getLast? = some '\n' then text else text ++ ['\n']

theorem length_cutOff (text : List Char) : (cutOff text).length = min (logSize - 1) text.length :=
  List.length_take

@[simp]
theorem length_lineBuffer (contents : Nat → Char) : (lineBuffer contents).length = logSize := by
  simp [lineBuffer]

theorem printedLength_of_lt (returned : message.length < 2 ^ 31) :
    printedLength message = message.length :=
  if_pos returned

/-- Both writers pass the room that is left in the buffer. -/
theorem room_eq (holds : Holds buf off text) (short : text.length < logSize) :
    toSize (logSize - off) = logSize - text.length := by
  rw [holds.off_eq, toSize_of_nonneg (by omega) (by rw [logSize]; omega)]
  omega

/-- What is cut off is cut off the end of the last text. -/
theorem cutOff_append (short : text.length < logSize) (message : List Char) :
    cutOff (text ++ message) = text ++ message.take (logSize - text.length - 1) := by
  rw [cutOff, List.take_append, List.take_of_length_le (by omega), Nat.sub_right_comm]

/-- Printing behind the text leaves both, cut off at the end of the buffer. -/
theorem print_spec (size : buf.length = logSize) (holds : Holds buf off text)
    (short : text.length < logSize) (returned : message.length < 2 ^ 31)
    (fits : text.length + message.length < 2 ^ 31) :
    ∃ printed, print buf off message = some (printed, ((cutOff (text ++ message)).length : Int)) ∧
      printed.length = logSize ∧
      Holds printed (cutOff (text ++ message)).length (cutOff (text ++ message)) := by
  obtain ⟨printed, stored, length, front⟩ :=
    holds.snprintf_off (logSize - text.length) (by omega) (by omega) message
  rw [← cutOff_append short] at front
  refine ⟨printed, ?_, length.trans size, rfl, front⟩
  rw [print, room_eq holds short, stored, Option.map_some, printedLength_of_lt returned,
    holds.off_eq, toInt32_of_bounds (by omega) (by omega), length_cutOff, List.length_append]
  refine congrArg some (Prod.ext rfl ?_)
  dsimp only
  split <;> omega

/-- Printing at the front of the buffer, as both writers begin. -/
theorem print_front (returned : text.length < 2 ^ 31) (contents : Nat → Char) :
    ∃ printed, print (lineBuffer contents) 0 text =
        some (printed, ((cutOff text).length : Int)) ∧
      printed.length = logSize ∧ Holds printed (cutOff text).length (cutOff text) :=
  print_spec (length_lineBuffer contents) (holds_nil _) (by decide) returned
    (by rwa [List.length_nil, Nat.zero_add])

/-- A sum that an `int` cannot hold leaves a negative offset. -/
theorem print_overflow (size : buf.length = logSize) (holds : Holds buf off text)
    (short : text.length < logSize) (returned : message.length < 2 ^ 31)
    (overflow : 2 ^ 31 ≤ text.length + message.length) :
    ∃ printed, print buf off message = some printed ∧ printed.2 < 0 := by
  obtain ⟨printed, stored, -⟩ :=
    holds.snprintf_off (logSize - text.length) (by omega) (by omega) message
  have wrapped : toInt32 (text.length + message.length : Int) < 0 := by
    have : text.length < 10 * 1024 := short
    rw [toInt32, Int.bmod]
    split <;> omega
  refine ⟨_, by rw [print, room_eq holds short, stored, Option.map_some], ?_⟩
  rw [printedLength_of_lt returned, holds.off_eq]
  dsimp only
  split <;> omega

/-! ## The end of a line -/

/-- An offset at the beginning of the buffer has no character before it. -/
theorem endLine_of_nonpos (nonpos : off ≤ 0) : endLine buf off = none := by
  rw [endLine, readAt, if_neg (by omega), Option.bind_none]

/-- The line gets its newline inside the buffer. -/
theorem endLine_spec (size : buf.length = logSize) (holds : Holds buf off text)
    (some_char : text ≠ []) (short : text.length < logSize) :
    ∃ ended, endLine buf off = some (ended, ((closed text).length : Int)) ∧
      Holds ended (closed text).length (closed text) := by
  rw [endLine, holds.readAt_last some_char]
  cases last : text.getLast? with
  | none => exact absurd (List.getLast?_eq_none_iff.mp last) some_char
  | some char =>
      rw [Option.bind_some]
      by_cases newline : char = '\n'
      · have same : closed text = text := by rw [closed, if_pos (newline ▸ last)]
        rw [if_neg (not_not.mpr newline), same, ← holds.off_eq]
        exact ⟨buf, rfl, holds⟩
      · have longer : closed text = text ++ ['\n'] := by
          rw [closed, if_neg (by rw [last]; exact fun same => newline (Option.some.inj same))]
        rcases holds.writeAt_off (size ▸ short) '\n' with ⟨ended, stored, -, ended_holds⟩
        rw [if_pos newline, stored, Option.map_some, longer, ← ended_holds.off_eq]
        exact ⟨ended, rfl, ended_holds⟩

theorem closed_last (text : List Char) : (closed text).getLast? = some '\n' := by
  rw [closed]
  split
  · next last => exact last
  · exact List.getLast?_concat

theorem length_closed_le (text : List Char) : (closed text).length ≤ text.length + 1 := by
  rw [closed]
  split
  · exact Nat.le_succ _
  · rw [List.length_append, List.length_singleton]

theorem length_le_closed (text : List Char) : text.length ≤ (closed text).length := by
  rw [closed]
  split
  · exact Nat.le_refl _
  · rw [List.length_append]
    exact Nat.le_add_right _ _

/-! ## Lines -/

/-- What the writers are to pass on: one to `LOGSIZE` characters, a newline at the
end. -/
structure IsLine (line : List Char) : Prop where
  some_char : 1 ≤ line.length
  fits : line.length ≤ logSize
  newline : line.getLast? = some '\n'

theorem isLine_closed (short : text.length < logSize) : IsLine (closed text) where
  some_char := by
    have := closed_last text
    cases line : closed text with
    | nil => simp [line] at this
    | cons char rest => simp
  fits := (length_closed_le text).trans short
  newline := closed_last text

/-- A line without its first characters is a line. -/
theorem IsLine.drop {line : List Char} (isLine : IsLine line) {start : Nat}
    (within : start < line.length) : IsLine (line.drop start) where
  some_char := by
    rw [List.length_drop]
    omega
  fits := by
    have := isLine.fits
    rw [List.length_drop]
    omega
  newline := by
    rw [List.getLast?_drop, if_neg (by omega), isLine.newline]

/-- `<`, the level and the brackets alone are longer than the three characters that
the console does not get. -/
theorem three_lt_length_heading (answers : Answers) (level : Int) (filename : Option (List Char))
    (funcname : List Char) (lineno : Int) :
    3 < (heading answers level filename funcname lineno).length := by
  have stampLong (id : Int) : 3 < (stamp level answers.tm id).length := by
    have brackets : "] pid[".toList.length = 6 := rfl
    simp only [stamp, List.length_cons, List.length_append, brackets]
    omega
  cases filename with
  | none => exact stampLong _
  | some path =>
      have long := stampLong answers.gettid
      simp only [heading, List.length_append]
      omega

/-- The line that a heading and a message make. -/
def logLine (headed message : List Char) : List Char :=
  closed (cutOff (cutOff headed ++ message))

theorem length_cutOff_lt (text : List Char) : (cutOff text).length < logSize := by
  rw [length_cutOff, logSize]
  omega

/-- What stands in the buffer as a line is what the calls are passed. -/
theorem readRange_line {line : List Char} (holds : Holds buf line.length line)
    (isLine : IsLine line) {start : Nat} (within : start ≤ line.length) :
    readRange buf start (toSize (line.length - start)) = some (line.drop start) := by
  have bound : logSize < 2 ^ 64 := by decide
  have size : toSize (line.length - start : Int) = line.length - start := by
    have := isLine.fits
    rw [toSize_of_nonneg (by omega) (by omega)]
    omega
  rw [size, holds.readRange_drop within]

theorem readRange_whole {line : List Char} (holds : Holds buf line.length line)
    (isLine : IsLine line) : readRange buf 0 (toSize line.length) = some line := by
  simpa using readRange_line holds isLine (Nat.zero_le _)

/-- What `_write_stderr_` passes on. -/
theorem writeStderr_spec (some_char : message ≠ []) (returned : message.length < 2 ^ 31)
    (contents : Nat → Char) :
    writeStderr message contents = some (closed (cutOff message)) := by
  have cutNonempty : cutOff message ≠ [] := by
    simp [cutOff, logSize, some_char]
  rcases print_front returned contents with ⟨printed, stored, printedSize, printedHolds⟩
  obtain ⟨ended, endedStored, endedHolds⟩ :=
    endLine_spec printedSize printedHolds cutNonempty (length_cutOff_lt message)
  rw [writeStderr, stored, Option.bind_some, endedStored, Option.bind_some,
    readRange_whole endedHolds (isLine_closed (length_cutOff_lt message))]

/-- Of an empty message `_write_stderr_` reads the character before the buffer. -/
theorem writeStderr_nil (contents : Nat → Char) : writeStderr [] contents = none := by
  rcases print_front (show ([] : List Char).length < 2 ^ 31 by decide) contents with
    ⟨printed, stored, -⟩
  have empty : ((cutOff []).length : Int) = 0 := rfl
  rw [empty] at stored
  simp only [writeStderr, stored, Option.bind_some, endLine_of_nonpos (Int.le_refl 0),
    Option.bind_none]

/-- A heading and a message leave their line in the buffer. -/
theorem logLine_printed {headed : List Char} (long : 3 < headed.length)
    (headReturned : headed.length < 2 ^ 31) (returned : message.length < 2 ^ 31)
    (fits : (cutOff headed).length + message.length < 2 ^ 31) (contents : Nat → Char) :
    ∃ first printed ended,
      print (lineBuffer contents) 0 headed = some first ∧
        print first.1 first.2 message = some printed ∧
        endLine printed.1 printed.2 = some (ended, ((logLine headed message).length : Int)) ∧
        Holds ended (logLine headed message).length (logLine headed message) := by
  rcases print_front headReturned contents with ⟨first, firstStored, firstSize, firstHolds⟩
  obtain ⟨printed, stored, printedSize, printedHolds⟩ :=
    print_spec firstSize firstHolds (length_cutOff_lt headed) returned fits
  have some_char : cutOff (cutOff headed ++ message) ≠ [] := by
    refine List.ne_nil_of_length_pos ?_
    simp only [length_cutOff, List.length_append, logSize]
    omega
  obtain ⟨ended, endedStored, endedHolds⟩ :=
    endLine_spec printedSize printedHolds some_char (length_cutOff_lt _)
  exact ⟨_, _, ended, firstStored, stored, endedStored, endedHolds⟩

theorem isLine_logLine (headed message : List Char) : IsLine (logLine headed message) :=
  isLine_closed (length_cutOff_lt _)

theorem three_lt_length_logLine {headed : List Char} (long : 3 < headed.length)
    (message : List Char) : 3 < (logLine headed message).length := by
  have longer := length_le_closed (cutOff (cutOff headed ++ message))
  simp only [length_cutOff, List.length_append, logSize] at longer
  rw [logLine]
  omega

/-- What a call of `_write_log_` passes on where the offset stays an `int`: the line to
the file, and to the console all but its level. -/
theorem writeLog_spec {statics : Statics} {answers : Answers} {level : Int}
    {filename : Option (List Char)} {funcname : List Char} {lineno : Int} {headed : List Char}
    (headedEq : heading answers (clampLevel level) filename funcname lineno = headed)
    (named : statics.appname ≠ []) (headReturned : headed.length < 2 ^ 31)
    (returned : message.length < 2 ^ 31)
    (fits : (cutOff headed).length + message.length < 2 ^ 31) (contents : Nat → Char) :
    ∃ outcome,
      writeLog statics answers level filename funcname lineno message contents = some outcome ∧
        outcome.lines =
          (if statics.logfd ≥ 0 then [logLine headed message] else []) ++
            (if clampLevel level ≤ 6 ∧ ¬ statics.noconsole then
              [(logLine headed message).drop 3]
            else
              []) := by
  have long : 3 < headed.length := headedEq ▸ three_lt_length_heading ..
  obtain ⟨first, printed, ended, headStored, stored, endedStored, holds⟩ :=
    logLine_printed long headReturned returned fits contents
  have isLine := isLine_logLine headed message
  have toFile := readRange_whole holds isLine
  have toConsole : readRange ended 3 (toSize ((logLine headed message).length - 3)) =
      some ((logLine headed message).drop 3) :=
    readRange_line holds isLine (three_lt_length_logLine long message).le
  rw [writeLog, if_neg named]
  simp only [headedEq, headStored, stored, endedStored, Option.bind_some, toFile, toConsole,
    Option.map_some]
  have logged : (if statics.logfd ≥ 0 then some [logLine headed message] else some []) =
      some (if statics.logfd ≥ 0 then [logLine headed message] else []) :=
    (apply_ite some _ _ _).symm
  rw [logged, Option.bind_some]
  by_cases console : clampLevel level ≤ 6 ∧ ¬ statics.noconsole
  · rw [if_pos console, if_pos console]
    exact ⟨_, rfl, rfl⟩
  · rw [if_neg console, if_neg console]
    exact ⟨_, rfl, (List.append_nil _).symm⟩

/-- A sum that an `int` cannot hold lets `_write_log_` read outside the buffer. -/
theorem writeLog_overflow {statics : Statics} {answers : Answers} {level : Int}
    {filename : Option (List Char)} {funcname : List Char} {lineno : Int} {headed : List Char}
    (headedEq : heading answers (clampLevel level) filename funcname lineno = headed)
    (named : statics.appname ≠ []) (headReturned : headed.length < 2 ^ 31)
    (returned : message.length < 2 ^ 31)
    (overflow : 2 ^ 31 ≤ (cutOff headed).length + message.length) (contents : Nat → Char) :
    writeLog statics answers level filename funcname lineno message contents = none := by
  rcases print_front headReturned contents with ⟨first, headStored, firstSize, firstHolds⟩
  obtain ⟨printed, stored, negative⟩ :=
    print_overflow firstSize firstHolds (length_cutOff_lt headed) returned overflow
  rw [writeLog, if_neg named]
  simp only [headedEq, headStored, stored, Option.bind_some, endLine_of_nonpos negative.le,
    Option.bind_none]

/-! ## Calls -/

inductive Call
  | writeLog (statics : Statics) (answers : Answers) (level : Int)
      (filename : Option (List Char)) (funcname : List Char) (lineno : Int)
      (message : List Char)
  | writeStderr (message : List Char)

namespace Call

/-- What the call writes out, if its accesses are inside the buffer. -/
def lines (contents : Nat → Char) : Call → Option (List (List Char))
  | writeLog statics answers level filename funcname lineno message =>
      (Log.writeLog statics answers level filename funcname lineno message contents).map
        Outcome.lines
  | writeStderr message => (Log.writeStderr message contents).map fun line => [line]

/-- The lengths that `snprintf` and `vsnprintf` answer are those of the texts. -/
def Returned : Call → Prop
  | writeLog _ answers level filename funcname lineno message =>
      (heading answers (clampLevel level) filename funcname lineno).length < 2 ^ 31 ∧
        message.length < 2 ^ 31
  | writeStderr message => message.length < 2 ^ 31

/-- The call stays inside the buffer, and what it writes out is one line or more. -/
def StaysInside (contents : Nat → Char) (call : Call) : Prop :=
  ∃ written, call.lines contents = some written ∧ written ≠ [] ∧ ∀ line ∈ written, IsLine line

/-- There is a file or a console to write to. -/
def HasChannel : Call → Prop
  | writeLog statics _ level _ _ _ _ =>
      statics.appname ≠ [] ∧
        (statics.logfd ≥ 0 ∨ clampLevel level ≤ 6 ∧ ¬ statics.noconsole)
  | writeStderr _ => True

/-- The offset is positive and an `int` holds it. -/
def OffsetFits : Call → Prop
  | writeLog _ answers level filename funcname lineno message =>
      min (logSize - 1) (heading answers (clampLevel level) filename funcname lineno).length +
        message.length < 2 ^ 31
  | writeStderr message => message ≠ []

end Call

theorem staysInside_writeStderr (contents : Nat → Char) (returned : message.length < 2 ^ 31) :
    (Call.writeStderr message).StaysInside contents ↔ message ≠ [] := by
  constructor
  · rintro ⟨written, linesEq, -⟩ rfl
    rw [Call.lines, writeStderr_nil] at linesEq
    contradiction
  · intro some_char
    refine ⟨[closed (cutOff message)], ?_, List.cons_ne_nil _ _, ?_⟩
    · rw [Call.lines, writeStderr_spec some_char returned, Option.map_some]
    · intro line mem
      rw [List.mem_singleton.mp mem]
      exact isLine_closed (length_cutOff_lt message)

/-- Without a name `_write_log_` writes out nothing. -/
theorem writeLog_unnamed {statics : Statics} (unnamed : statics.appname = []) (answers : Answers)
    (level : Int) (filename : Option (List Char)) (funcname : List Char) (lineno : Int)
    (message : List Char) (contents : Nat → Char) :
    (Call.writeLog statics answers level filename funcname lineno message).lines contents =
      some [] := by
  rw [Call.lines, Log.writeLog, if_pos unnamed, Option.map_some]

theorem staysInside_writeLog {statics : Statics} {answers : Answers} {level : Int}
    {filename : Option (List Char)} {funcname : List Char} {lineno : Int}
    (contents : Nat → Char)
    (returned : (Call.writeLog statics answers level filename funcname lineno message).Returned) :
    (Call.writeLog statics answers level filename funcname lineno message).StaysInside contents ↔
      (Call.writeLog statics answers level filename funcname lineno message).HasChannel ∧
        (Call.writeLog statics answers level filename funcname lineno message).OffsetFits := by
  obtain ⟨headReturned, messageReturned⟩ := returned
  have condition : (Call.writeLog statics answers level filename funcname lineno
      message).OffsetFits ↔
        (cutOff (heading answers (clampLevel level) filename funcname lineno)).length +
          message.length < 2 ^ 31 := by
    rw [length_cutOff]
    rfl
  rw [condition]
  constructor
  · rintro ⟨written, linesEq, emits, -⟩
    have named : statics.appname ≠ [] := by
      intro unnamed
      rw [writeLog_unnamed unnamed] at linesEq
      exact emits (Option.some.inj linesEq).symm
    have fits : (cutOff (heading answers (clampLevel level) filename funcname lineno)).length +
        message.length < 2 ^ 31 := by
      by_contra overflow
      rw [Call.lines, writeLog_overflow rfl named headReturned messageReturned
        (not_lt.mp overflow)] at linesEq
      contradiction
    refine ⟨⟨named, ?_⟩, fits⟩
    by_contra noChannel
    obtain ⟨noFile, noConsole⟩ := not_or.mp noChannel
    obtain ⟨outcome, stored, outcomeLines⟩ :=
      writeLog_spec rfl named headReturned messageReturned fits contents
    rw [if_neg noFile, if_neg noConsole, List.append_nil] at outcomeLines
    rw [Call.lines, stored, Option.map_some, outcomeLines] at linesEq
    exact emits (Option.some.inj linesEq).symm
  · rintro ⟨⟨named, channel⟩, fits⟩
    obtain ⟨outcome, stored, linesEq⟩ :=
      writeLog_spec rfl named headReturned messageReturned fits contents
    refine ⟨outcome.lines, by rw [Call.lines, stored, Option.map_some], ?_, ?_⟩
    · rw [linesEq]
      rcases channel with file | console
      · rw [if_pos file]
        exact List.cons_ne_nil _ _
      · rw [if_pos console]
        exact List.append_ne_nil_of_right_ne_nil _ (List.cons_ne_nil _ _)
    · intro line mem
      have long := three_lt_length_heading answers (clampLevel level) filename funcname lineno
      have isLine := isLine_logLine
        (heading answers (clampLevel level) filename funcname lineno) message
      rw [linesEq] at mem
      rcases List.mem_append.mp mem with toFile | toConsole
      · rw [List.mem_singleton.mp (List.mem_ite_nil_right.mp toFile).2]
        exact isLine
      · rw [List.mem_singleton.mp (List.mem_ite_nil_right.mp toConsole).2]
        exact isLine.drop (three_lt_length_logLine long message)

/-- A call stays inside the buffer and writes out its line just if there is somewhere
to write to and the offset is positive and an `int` holds it, whatever the buffer held
before. -/
theorem staysInside_iff (contents : Nat → Char) (call : Call) (returned : call.Returned) :
    call.StaysInside contents ↔ call.HasChannel ∧ call.OffsetFits := by
  cases call with
  | writeLog statics answers level filename funcname lineno message =>
      exact staysInside_writeLog contents returned
  | writeStderr message =>
      exact (staysInside_writeStderr contents returned).trans (iff_of_eq (true_and _)).symm

theorem staysInside_iff_at : (Call.writeStderr ['a']).StaysInside fun _ => 'b' :=
  (staysInside_iff (fun _ => 'b') (Call.writeStderr ['a']) (show 1 < 2 ^ 31 by decide)).mpr
    ⟨trivial, List.cons_ne_nil _ _⟩

/-- For an empty message `buf[len - 1]` is `buf[-1]`. -/
theorem not_staysInside :
    (Call.writeStderr []).Returned ∧ ¬ (Call.writeStderr []).StaysInside fun _ => '\n' := by
  refine ⟨show 0 < 2 ^ 31 by decide, ?_⟩
  rintro ⟨written, linesEq, -⟩
  rw [Call.lines, writeStderr_nil] at linesEq
  contradiction

end NginxFastcgi.Public.Log
