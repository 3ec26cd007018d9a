import NginxFastcgi.Foundation.Memory
import Mathlib.Algebra.Order.Ring.Int

/-!
# Printing into a buffer

A buffer of characters of a fixed length, accessed at indices that a program
computes as signed numbers.  An access outside the buffer has no result.
`snprintf` prints a text that is already formatted: what does not fit is cut off,
and the answer is the length of the whole text.

`Holds` says that the text printed so far stands at the front of the buffer and
ends at the offset.
-/

namespace Foundation.TextBuffer

open Foundation.Memory

def readAt (buf : List Char) (index : Int) : Option Char :=
  if 0 ≤ index then buf[index.toNat]? else none

def writeAt (buf : List Char) (index : Int) (char : Char) : Option (List Char) :=
  if 0 ≤ index ∧ index < buf.length then some (blit buf index.toNat [char]) else none

/-- The `count` characters from `start` on. -/
def readRange (buf : List Char) (start : Int) (count : Nat) : Option (List Char) :=
  if 0 ≤ start ∧ start + count ≤ buf.length then some (slice buf start.toNat count) else none

/-- The answer of `snprintf`: the length, or an error where an `int` cannot hold it. -/
def printedLength (text : List Char) : Int :=
  if text.length < 2 ^ 31 then text.length else -1

/-- `snprintf(buf + off, size, ...)`. -/
def snprintf (buf : List Char) (off : Int) (size : Nat) (text : List Char) :
    Option (List Char × Int) :=
  let stored := if size = 0 then [] else text.take (size - 1) ++ ['\x00']
  if 0 ≤ off ∧ off + stored.length ≤ buf.length then
    some (blit buf off.toNat stored, printedLength text)
  else
    none

/-- `text` stands at the front of the buffer and ends at `off`. -/
structure Holds (buf : List Char) (off : Int) (text : List Char) : Prop where
  off_eq : off = text.length
  front : text <+: buf

variable {buf text message : List Char} {off : Int}

theorem holds_nil (buf : List Char) : Holds buf 0 [] :=
  ⟨rfl, List.nil_prefix⟩

/-- Writing behind a text that stands in front leaves it there. -/
theorem prefix_blit (front : text <+: buf) (source : List Char) :
    text ++ source <+: blit buf text.length source := by
  rcases front with ⟨rest, rfl⟩
  rw [blit, List.take_left]
  exact List.prefix_append _ _

namespace Holds

theorem off_toNat (holds : Holds buf off text) : off.toNat = text.length := by
  rw [holds.off_eq, Int.toNat_natCast]

/-- The last character of the text is read where it stands. -/
theorem readAt_last (holds : Holds buf off text) (some_char : text ≠ []) :
    readAt buf (off - 1) = text.getLast? := by
  have positive := List.length_pos_iff.mpr some_char
  have index : (off - 1).toNat = text.length - 1 := by
    rw [holds.off_eq]
    omega
  rcases holds.front with ⟨rest, rfl⟩
  rw [readAt, if_pos (by rw [holds.off_eq]; omega), index,
    List.getElem?_append_left (by omega), List.getLast?_eq_getElem?]

/-- Writing at the offset extends the text. -/
theorem writeAt_off (holds : Holds buf off text) (room : text.length < buf.length)
    (char : Char) :
    ∃ written, writeAt buf off char = some written ∧ written.length = buf.length ∧
      Holds written (off + 1) (text ++ [char]) := by
  refine ⟨blit buf text.length [char], ?_, length_blit buf [char] room, ?_, ?_⟩
  · rw [writeAt, if_pos (by rw [holds.off_eq]; omega), holds.off_toNat]
  · rw [holds.off_eq, List.length_append, List.length_singleton, Nat.cast_succ]
  · exact prefix_blit holds.front [char]

/-- Printing at the offset extends the text by as much as fits, with a terminator
behind it. -/
theorem snprintf_off (holds : Holds buf off text) (size : Nat) (some_room : 0 < size)
    (room : text.length + size ≤ buf.length) (message : List Char) :
    ∃ printed, snprintf buf off size message = some (printed, printedLength message) ∧
      printed.length = buf.length ∧ text ++ message.take (size - 1) <+: printed := by
  have stored : (message.take (size - 1) ++ ['\x00']).length ≤ size := by
    rw [List.length_append, List.length_take, List.length_singleton]
    omega
  refine ⟨blit buf text.length (message.take (size - 1) ++ ['\x00']), ?_,
    length_blit _ _ (by omega), ?_⟩
  · simp only [snprintf, if_neg some_room.ne']
    rw [if_pos (by rw [holds.off_eq]; omega), holds.off_toNat]
  · refine List.IsPrefix.trans ?_ (prefix_blit holds.front _)
    rw [← List.append_assoc]
    exact List.prefix_append _ _

/-- The text is read from any of its characters on. -/
theorem readRange_drop (holds : Holds buf off text) {start : Nat} (within : start ≤ text.length) :
    readRange buf start (text.length - start) = some (text.drop start) := by
  rcases holds.front with ⟨rest, rfl⟩
  rw [readRange, if_pos (by rw [List.length_append]; omega), Int.toNat_natCast, slice,
    List.drop_append_of_le_length within, List.take_left' (List.length_drop ..)]

end Holds

end Foundation.TextBuffer
