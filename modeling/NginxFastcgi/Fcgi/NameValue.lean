import Mathlib.Data.Nat.Bitwise
import NginxFastcgi.Fcgi.Params

/-!
# Name-value pairs

A pair is preceded by the lengths of its name and value.  A length below 128
is one byte; a longer one is four bytes in network order with the top bit set.
The encoder is that of `cgi-fcgi`; the decoder states on whole inputs what
`ReadParams` does byte by byte.
-/

namespace NginxFastcgi.Fcgi

open Foundation.Framing

/-- A name and its value. -/
structure NameValue where
  name : List UInt8
  value : List UInt8
  deriving DecidableEq

/-- The string that `ReadParams` makes of a pair. -/
def NameValue.entry (pair : NameValue) : List UInt8 :=
  pair.name ++ equalsSign :: pair.value

/-- One length of `FCGIUtil_BuildNameValueHeader`. -/
def lengthBytes (length : Nat) : List UInt8 :=
  if length < 0x80 then
    [UInt8.ofNat length]
  else
    [UInt8.ofNat (length >>> 24 ||| 0x80), UInt8.ofNat (length >>> 16), UInt8.ofNat (length >>> 8),
      UInt8.ofNat length]

/-- `FCGIUtil_BuildNameValueHeader`. -/
def buildNameValueHeader (nameLen valueLen : Nat) : List UInt8 :=
  lengthBytes nameLen ++ lengthBytes valueLen

/-- A pair on the wire. -/
def NameValue.bytes (pair : NameValue) : List UInt8 :=
  buildNameValueHeader pair.name.length pair.value.length ++ pair.name ++ pair.value

/-- A length of four bytes. -/
def longLength (first : UInt8) (more : List UInt8) : Nat :=
  (first &&& 0x7f).toNat <<< 24 + (more.getD 0 0).toNat <<< 16 + (more.getD 1 0).toNat <<< 8 +
    (more.getD 2 0).toNat

/-- The length that starts with the byte `first`, and the bytes behind it. -/
def lengthFrom (first : UInt8) (more : List UInt8) : Option (Nat × List UInt8) :=
  if first &&& 0x80 ≠ 0 then
    if 3 ≤ more.length then some (longLength first more, more.drop 3) else none
  else
    some (first.toNat, more)

def cutLength : List UInt8 → Option (Nat × List UInt8)
  | [] => none
  | first :: more => lengthFrom first more

/-- Both lengths, and the bytes behind them. -/
def cutLengths (input : List UInt8) : Option (Nat × Nat × List UInt8) :=
  (cutLength input).bind fun (nameLen, afterName) =>
    (cutLength afterName).map fun (valueLen, body) => (nameLen, valueLen, body)

/-- What the front of encoded pairs is.  The allocation for a pair of 2 GiB
overflows, which is the malformed case. -/
def cutPair (input : List UInt8) : Outcome NameValue :=
  match cutLengths input with
  | none => .incomplete
  | some (nameLen, valueLen, body) =>
      if nameLen + valueLen + 2 ≥ 2 ^ 31 then
        .malformed
      else if body.length < nameLen + valueLen then
        .incomplete
      else
        .frame ⟨body.take nameLen, (body.drop nameLen).take valueLen⟩
          (input.length - body.length + (nameLen + valueLen))

/-! ## Lengths -/

theorem and_0x80_eq_zero {length : Nat} (short : length < 128) :
    UInt8.ofNat length &&& 0x80 = 0 := by
  apply UInt8.toNat_inj.mp
  have bit : length.testBit 7 = false := Nat.testBit_lt_two_pow short
  rw [UInt8.toNat_and, UInt8.toNat_ofNat', Nat.mod_eq_of_lt (by omega)]
  change length &&& 2 ^ 7 = 0
  rw [Nat.and_two_pow, bit]
  rfl

theorem or_0x80 {high : Nat} (fits : high < 2 ^ 7) :
    UInt8.ofNat (high ||| 0x80) &&& 0x80 ≠ 0 ∧
      (UInt8.ofNat (high ||| 0x80) &&& 0x7f).toNat = high := by
  have sum : high ||| 0x80 = 2 ^ 7 * 1 + high := by
    rw [Nat.or_comm]
    exact (Nat.two_pow_add_eq_or_of_lt fits 1).symm
  have bounded : high ||| 0x80 < 256 := by omega
  constructor
  · intro zero
    have bits := congrArg UInt8.toNat zero
    rw [UInt8.toNat_and, UInt8.toNat_ofNat', Nat.mod_eq_of_lt bounded] at bits
    change (high ||| 2 ^ 7) &&& 2 ^ 7 = 0 at bits
    rw [Nat.and_two_pow, Nat.testBit_or, Nat.testBit_two_pow_self, Bool.or_true] at bits
    contradiction
  · rw [UInt8.toNat_and, UInt8.toNat_ofNat', Nat.mod_eq_of_lt bounded, sum]
    change (2 ^ 7 * 1 + high) &&& (2 ^ 7 - 1) = high
    rw [Nat.and_two_pow_sub_one_eq_mod]
    omega

/-- A length that was written is read back. -/
theorem cutLength_lengthBytes {length : Nat} (fits : length < 2 ^ 31) (more : List UInt8) :
    cutLength (lengthBytes length ++ more) = some (length, more) := by
  unfold lengthBytes
  split
  · rename_i short
    change lengthFrom _ more = _
    rw [lengthFrom, if_neg (not_not_intro (and_0x80_eq_zero short)), UInt8.toNat_ofNat',
      Nat.mod_eq_of_lt (by omega)]
  · have fitsHigh : length >>> 24 < 2 ^ 7 := by
      rw [Nat.shiftRight_eq_div_pow]
      omega
    obtain ⟨marked, high⟩ := or_0x80 fitsHigh
    change lengthFrom _ (UInt8.ofNat (length >>> 16) :: UInt8.ofNat (length >>> 8) ::
      UInt8.ofNat length :: more) = _
    rw [lengthFrom, if_pos marked, if_pos (by simp), longLength, high]
    simp only [List.getD_cons_zero, List.getD_cons_succ, UInt8.toNat_ofNat', Nat.shiftLeft_eq,
      Nat.shiftRight_eq_div_pow, Option.some.injEq, Prod.mk.injEq, List.drop_succ_cons,
      List.drop_zero, and_true]
    omega

theorem cutLength_suffix {input body : List UInt8} {length : Nat}
    (cutEq : cutLength input = some (length, body)) :
    body <:+ input ∧ body.length < input.length := by
  cases input with
  | nil => contradiction
  | cons first more =>
      simp only [cutLength, lengthFrom] at cutEq
      split at cutEq
      · split at cutEq
        · rename_i enough
          cases cutEq
          refine ⟨(List.drop_suffix 3 more).trans (List.suffix_cons first more), ?_⟩
          rw [List.length_drop, List.length_cons]
          omega
        · contradiction
      · cases cutEq
        exact ⟨List.suffix_cons first _, Nat.lt_succ_self _⟩

theorem cutLength_append {input body : List UInt8} {length : Nat}
    (cutEq : cutLength input = some (length, body)) (more : List UInt8) :
    cutLength (input ++ more) = some (length, body ++ more) := by
  cases input with
  | nil => contradiction
  | cons first behind =>
      simp only [cutLength, lengthFrom, List.cons_append] at cutEq ⊢
      split at cutEq
      · rename_i marked
        split at cutEq
        · rename_i enough
          cases cutEq
          have same : longLength first (behind ++ more) = longLength first behind := by
            match behind, enough with
            | _ :: _ :: _ :: _, _ => rfl
          rw [if_pos marked, if_pos (by rw [List.length_append]; omega), same,
            List.drop_append_of_le_length enough]
        · contradiction
      · rename_i unmarked
        cases cutEq
        rw [if_neg unmarked]

theorem cutLengths_eq_some {input body : List UInt8} {nameLen valueLen : Nat} :
    cutLengths input = some (nameLen, valueLen, body) ↔
      ∃ afterName, cutLength input = some (nameLen, afterName) ∧
        cutLength afterName = some (valueLen, body) := by
  constructor
  · intro cutEq
    obtain ⟨⟨firstLen, afterName⟩, firstEq, rest⟩ := Option.bind_eq_some_iff.mp cutEq
    obtain ⟨⟨secondLen, behind⟩, secondEq, same⟩ := Option.map_eq_some_iff.mp rest
    cases same
    exact ⟨afterName, firstEq, secondEq⟩
  · rintro ⟨afterName, firstEq, secondEq⟩
    simp only [cutLengths, firstEq, Option.bind_some, secondEq, Option.map_some]

theorem cutLengths_suffix {input body : List UInt8} {nameLen valueLen : Nat}
    (cutEq : cutLengths input = some (nameLen, valueLen, body)) :
    body <:+ input ∧ body.length < input.length := by
  obtain ⟨afterName, firstEq, secondEq⟩ := cutLengths_eq_some.mp cutEq
  obtain ⟨firstSuffix, firstLt⟩ := cutLength_suffix firstEq
  obtain ⟨secondSuffix, secondLt⟩ := cutLength_suffix secondEq
  exact ⟨secondSuffix.trans firstSuffix, secondLt.trans firstLt⟩

theorem cutLengths_append {input body : List UInt8} {nameLen valueLen : Nat}
    (cutEq : cutLengths input = some (nameLen, valueLen, body)) (more : List UInt8) :
    cutLengths (input ++ more) = some (nameLen, valueLen, body ++ more) := by
  obtain ⟨afterName, firstEq, secondEq⟩ := cutLengths_eq_some.mp cutEq
  exact cutLengths_eq_some.mpr
    ⟨afterName ++ more, cutLength_append firstEq more, cutLength_append secondEq more⟩

/-! ## Pairs -/

theorem cutPair_eq_frame {input : List UInt8} {pair : NameValue} {size : Nat} :
    cutPair input = .frame pair size ↔
      ∃ nameLen valueLen body, cutLengths input = some (nameLen, valueLen, body) ∧
        nameLen + valueLen + 2 < 2 ^ 31 ∧ nameLen + valueLen ≤ body.length ∧
        pair = ⟨body.take nameLen, (body.drop nameLen).take valueLen⟩ ∧
        size = input.length - body.length + (nameLen + valueLen) := by
  unfold cutPair
  constructor
  · intro pairEq
    split at pairEq
    · contradiction
    · rename_i nameLen valueLen body lengthsEq
      split at pairEq
      · contradiction
      · rename_i fits
        split at pairEq
        · contradiction
        · rename_i enough
          cases pairEq
          exact ⟨nameLen, valueLen, body, lengthsEq, Nat.lt_of_not_le fits,
            Nat.le_of_not_lt enough, rfl, rfl⟩
  · rintro ⟨nameLen, valueLen, body, lengthsEq, fits, enough, rfl, rfl⟩
    simp only [lengthsEq]
    rw [if_neg (Nat.not_le_of_lt fits), if_neg (Nat.not_lt_of_le enough)]

theorem cutPair_eq_malformed {input : List UInt8} :
    cutPair input = .malformed ↔
      ∃ nameLen valueLen body, cutLengths input = some (nameLen, valueLen, body) ∧
        2 ^ 31 ≤ nameLen + valueLen + 2 := by
  unfold cutPair
  constructor
  · intro pairEq
    split at pairEq
    · contradiction
    · rename_i nameLen valueLen body lengthsEq
      split at pairEq
      · rename_i long
        exact ⟨nameLen, valueLen, body, lengthsEq, long⟩
      · split at pairEq <;> contradiction
  · rintro ⟨nameLen, valueLen, body, lengthsEq, long⟩
    simp only [lengthsEq]
    rw [if_pos long]

/-- Encoded pairs as a framed stream. -/
def pairFormat : Format UInt8 NameValue where
  next := cutPair
  size_pos := by
    intro input pair size pairEq
    obtain ⟨nameLen, valueLen, body, lengthsEq, -, -, -, rfl⟩ := cutPair_eq_frame.mp pairEq
    have shorter := (cutLengths_suffix lengthsEq).2
    omega
  size_le := by
    intro input pair size pairEq
    obtain ⟨nameLen, valueLen, body, lengthsEq, -, enough, -, rfl⟩ := cutPair_eq_frame.mp pairEq
    have shorter := (cutLengths_suffix lengthsEq).2
    omega
  frame_append := by
    intro input pair size more pairEq
    obtain ⟨nameLen, valueLen, body, lengthsEq, fits, enough, rfl, rfl⟩ :=
      cutPair_eq_frame.mp pairEq
    apply cutPair_eq_frame.mpr
    refine ⟨nameLen, valueLen, body ++ more, cutLengths_append lengthsEq more, fits, ?_, ?_, ?_⟩
    · rw [List.length_append]
      omega
    · rw [List.take_append_of_le_length (by omega), List.drop_append_of_le_length (by omega),
        List.take_append_of_le_length (by rw [List.length_drop]; omega)]
    · rw [List.length_append, List.length_append, Nat.add_sub_add_right]
  malformed_append := by
    intro input more pairEq
    obtain ⟨nameLen, valueLen, body, lengthsEq, long⟩ := cutPair_eq_malformed.mp pairEq
    exact cutPair_eq_malformed.mpr
      ⟨nameLen, valueLen, body ++ more, cutLengths_append lengthsEq more, long⟩

/-- A pair whose string can be allocated. -/
def NameValue.Fits (pair : NameValue) : Prop :=
  pair.name.length + pair.value.length + 2 < 2 ^ 31

theorem cutLengths_bytes {pair : NameValue} (fits : pair.Fits) (more : List UInt8) :
    cutLengths (pair.bytes ++ more) =
      some (pair.name.length, pair.value.length, pair.name ++ (pair.value ++ more)) := by
  unfold NameValue.Fits at fits
  simp only [NameValue.bytes, buildNameValueHeader, List.append_assoc]
  exact cutLengths_eq_some.mpr
    ⟨_, cutLength_lengthBytes (by omega) _, cutLength_lengthBytes (by omega) _⟩

theorem cutPair_bytes {pair : NameValue} (fits : pair.Fits) (more : List UInt8) :
    cutPair (pair.bytes ++ more) = .frame pair pair.bytes.length := by
  apply cutPair_eq_frame.mpr
  refine ⟨_, _, _, cutLengths_bytes fits more, fits, ?_, ?_, ?_⟩
  · simp only [List.length_append]
    omega
  · rw [List.take_left, List.drop_left, List.take_left]
  · simp only [NameValue.bytes, List.length_append]
    omega

/-- Pairs that were encoded are cut back into these pairs. -/
theorem parses_pairs {pairs : List NameValue} (fits : ∀ pair ∈ pairs, pair.Fits) :
    pairFormat.Parses (pairs.flatMap NameValue.bytes) pairs [] := by
  induction pairs with
  | nil => exact .stop Format.stuck_nil
  | cons pair pairs inductionHypothesis =>
      have first := cutPair_bytes (fits pair List.mem_cons_self) (pairs.flatMap NameValue.bytes)
      apply Format.Parses.frame first
      rw [List.flatMap_cons, List.drop_left]
      exact inductionHypothesis fun other member => fits other (List.mem_cons_of_mem _ member)

end NginxFastcgi.Fcgi
