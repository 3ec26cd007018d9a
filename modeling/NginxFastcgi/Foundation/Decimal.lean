import Mathlib.Algebra.Order.Ring.Int
import Mathlib.Data.List.DropRight
import Mathlib.Tactic.Zify

/-!
# Decimal numbers in text

Integers as `printf` writes them and `scanf` reads them.  A character stands
for one `char`.  Reading goes on as long as there are digits, so that a number
is read back where no digit follows it.
-/

namespace Foundation.Decimal

/-- The digits of `value` behind zeros, `width` characters at least. -/
def padded (width value : Nat) : List Char :=
  List.replicate (width - (Nat.toDigits 10 value).length) '0' ++ Nat.toDigits 10 value

/-- The conversion `%0<width>d`; the sign counts towards the width. -/
def zeroPadded (width : Nat) (value : Int) : List Char :=
  if value < 0 then
    '-' :: padded (width - 1) value.natAbs
  else
    padded width value.natAbs

/-- The conversion `%d`. -/
def decimal (value : Int) : List Char :=
  zeroPadded 0 value

def isSpace (char : Char) : Bool :=
  char = ' ' ∨ char = '\t' ∨ char = '\n' ∨ char = '\x0b' ∨ char = '\x0c' ∨ char = '\r'

def skipSpace (input : List Char) : List Char :=
  input.dropWhile isSpace

/-- One or more digits, with what follows them. -/
def scanDigits (input : List Char) : Option (Nat × List Char) :=
  if input.takeWhile Char.isDigit = [] then
    none
  else
    some (Nat.ofDigitChars 10 (input.takeWhile Char.isDigit) 0, input.dropWhile Char.isDigit)

/-- The conversion `%d` of `scanf`, with what follows the number. -/
def scanInt (input : List Char) : Option (Int × List Char) :=
  match skipSpace input with
  | '-' :: rest => (scanDigits rest).map fun scanned => (-scanned.1, scanned.2)
  | '+' :: rest => (scanDigits rest).map fun scanned => (scanned.1, scanned.2)
  | rest => (scanDigits rest).map fun scanned => (scanned.1, scanned.2)

/-- The values that `sscanf` assigns, up to the first directive that fails.  The
conversions of the format are all `%d`. -/
def sscanf : List Char → List Char → List Int
  | [], _ => []
  | '%' :: 'd' :: format, input =>
      match scanInt input with
      | none => []
      | some (value, rest) => value :: sscanf format rest
  | directive :: format, input =>
      if isSpace directive then
        sscanf format (skipSpace input)
      else
        match input with
        | [] => []
        | char :: rest => if char = directive then sscanf format rest else []

/-! ## Reading back -/

variable {char : Char} {digits format input rest : List Char}

/-- Where the text stops being a number. -/
def Ends (rest : List Char) : Prop :=
  ∀ char ∈ rest.head?, char.isDigit = false

@[simp]
theorem ends_cons : Ends (char :: rest) ↔ char.isDigit = false := by
  simp [Ends]

theorem not_isSpace_of_isDigit (digit : char.isDigit) : isSpace char = false := by
  rw [isSpace, decide_eq_false_iff_not]
  rintro (rfl | rfl | rfl | rfl | rfl | rfl) <;> exact absurd digit (by decide)

/-- Digits that no digit follows are read as a whole. -/
theorem scanDigits_append (some_digit : digits ≠ []) (all : ∀ char ∈ digits, char.isDigit)
    (ends : Ends rest) :
    scanDigits (digits ++ rest) = some (Nat.ofDigitChars 10 digits 0, rest) := by
  have stops : rest.takeWhile Char.isDigit = [] ∧ rest.dropWhile Char.isDigit = rest := by
    cases rest with
    | nil => simp
    | cons char rest => simp [ends_cons.mp ends]
  have taken : (digits ++ rest).takeWhile Char.isDigit = digits := by
    rw [List.takeWhile_append_of_pos all, stops.1, List.append_nil]
  have left : (digits ++ rest).dropWhile Char.isDigit = rest := by
    rw [List.dropWhile_append_of_pos all, stops.2]
  rw [scanDigits, taken, left, if_neg some_digit]

theorem padded_ne_nil (width value : Nat) : padded width value ≠ [] := by
  simp [padded, Nat.toDigits_ne_nil]

theorem isDigit_of_mem_padded {width value : Nat} (mem : char ∈ padded width value) :
    char.isDigit := by
  rcases List.mem_append.mp mem with zero | digit
  · rw [List.eq_of_mem_replicate zero]
    rfl
  · exact Nat.isDigit_of_mem_toDigits (by decide) (by decide) digit

/-- The zeros in front do not change the number. -/
theorem scanDigits_padded (width value : Nat) (ends : Ends rest) :
    scanDigits (padded width value ++ rest) = some (value, rest) := by
  rw [scanDigits_append (padded_ne_nil width value) (fun _ => isDigit_of_mem_padded) ends,
    padded, Nat.ofDigitChars_append, Nat.ofDigitChars_replicate_zero, Nat.mul_zero,
    Nat.ofDigitChars_ten_toDigits]

/-- A text that starts with a digit has no sign and no space to skip. -/
theorem scanInt_of_isDigit (digit : char.isDigit) :
    scanInt (char :: rest) =
      (scanDigits (char :: rest)).map fun scanned => ((scanned.1 : Int), scanned.2) := by
  have skipped : skipSpace (char :: rest) = char :: rest := by
    simp [skipSpace, not_isSpace_of_isDigit digit]
  rw [scanInt, skipped]
  split
  · next same => cases same; exact absurd digit (by decide)
  · next same => cases same; exact absurd digit (by decide)
  · rfl

/-- What `%0<width>d` writes, `%d` reads back. -/
theorem scanInt_zeroPadded (width : Nat) (value : Int) (ends : Ends rest) :
    scanInt (zeroPadded width value ++ rest) = some (value, rest) := by
  rw [zeroPadded]
  split
  · next negative =>
      have minus : -(value.natAbs : Int) = value := by omega
      rw [List.cons_append, scanInt, skipSpace, List.dropWhile_cons_of_neg (by decide)]
      simp only [scanDigits_padded (width - 1) value.natAbs ends, Option.map_some, minus]
  · next nonneg =>
      have plus : (value.natAbs : Int) = value := by omega
      have read := scanDigits_padded width value.natAbs ends
      obtain ⟨char, digits, text⟩ :=
        List.exists_cons_of_ne_nil (padded_ne_nil width value.natAbs)
      have digit : char.isDigit := isDigit_of_mem_padded (text ▸ List.mem_cons_self)
      rw [text, List.cons_append] at read ⊢
      rw [scanInt_of_isDigit digit, read, Option.map_some, plus]

/-- What `%d` writes, `%d` reads back. -/
theorem scanInt_decimal (value : Int) (ends : Ends rest) :
    scanInt (decimal value ++ rest) = some (value, rest) :=
  scanInt_zeroPadded 0 value ends

/-- White space in front of a number is skipped. -/
theorem scanInt_skipSpace (input : List Char) : scanInt (skipSpace input) = scanInt input := by
  rw [scanInt, scanInt, skipSpace, skipSpace, List.dropWhile_idempotent]

theorem scanInt_of_isSpace (space : isSpace char) : scanInt (char :: rest) = scanInt rest := by
  rw [scanInt, scanInt, skipSpace, skipSpace, List.dropWhile_cons_of_pos space]

/-! ## One directive of the format -/

/-- A conversion takes a number and goes on behind it. -/
theorem sscanf_int {value : Int} (read : scanInt input = some (value, rest)) :
    sscanf ('%' :: 'd' :: format) input = value :: sscanf format rest := by
  rw [sscanf, read]

/-- Any other character of the format matches itself. -/
theorem sscanf_literal (space : isSpace char = false) (percent : char ≠ '%') :
    sscanf (char :: format) (char :: rest) = sscanf format rest := by
  rw [sscanf]
  · simp [space]
  · rintro _ rfl
    exact absurd rfl percent

/-- A character that differs ends the reading. -/
theorem sscanf_mismatch {directive : Char} (space : isSpace directive = false)
    (percent : directive ≠ '%') (differs : char ≠ directive) :
    sscanf (directive :: format) (char :: rest) = [] := by
  rw [sscanf]
  · simp [space, differs]
  · rintro _ rfl
    exact absurd rfl percent

/-- A space in the format says nothing new in front of a conversion. -/
theorem sscanf_space_int (space : isSpace char) (input : List Char) :
    sscanf (char :: '%' :: 'd' :: format) input = sscanf ('%' :: 'd' :: format) input := by
  rw [sscanf.eq_def]
  split
  · contradiction
  · next same => cases same
  · next same =>
      cases same
      rw [if_pos space, sscanf, sscanf, scanInt_skipSpace]

/-! ## The characters of the text -/

/-- A number that fits the width is written in exactly that many characters. -/
theorem length_padded {width value : Nat} (some_width : 0 < width)
    (fits : value < 10 ^ width) : (padded width value).length = width := by
  have short := (Nat.length_toDigits_le_iff (b := 10) (by decide) some_width).mpr fits
  rw [padded, List.length_append, List.length_replicate]
  omega

theorem length_zeroPadded {width : Nat} (some_width : 0 < width) (value : Int)
    (nonneg : 0 ≤ value) (fits : value < 10 ^ width) :
    (zeroPadded width value).length = width := by
  rw [zeroPadded, if_neg (not_lt.mpr nonneg)]
  refine length_padded some_width ?_
  zify
  rwa [abs_of_nonneg nonneg]

/-- Without padding the text is no longer than the number asks. -/
theorem length_decimal_le (width : Nat) {value : Int} (some_width : 0 < width)
    (nonneg : 0 ≤ value) (fits : value < 10 ^ width) : (decimal value).length ≤ width := by
  rw [decimal, zeroPadded, if_neg (not_lt.mpr nonneg), padded, Nat.zero_sub,
    List.replicate_zero, List.nil_append, Nat.length_toDigits_le_iff (by decide) some_width]
  zify
  rwa [abs_of_nonneg nonneg]

theorem eq_minus_or_isDigit_of_mem {width : Nat} {value : Int}
    (mem : char ∈ zeroPadded width value) : char = '-' ∨ char.isDigit := by
  rw [zeroPadded] at mem
  split at mem
  · exact (List.mem_cons.mp mem).imp_right isDigit_of_mem_padded
  · exact Or.inr (isDigit_of_mem_padded mem)

end Foundation.Decimal
