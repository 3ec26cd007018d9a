import Mathlib.Data.Nat.Digits.Defs

/-!
# Fixed-width integers as bytes

`littleEndian width value` lists the bytes of `value`, least significant
first, and drops what does not fit in `width` bytes.  Reading bytes back is
`Nat.ofDigits` in base 256.  A byte swap writes in one order and reads in the
other; on a little-endian host this is what the network conversions compute.
-/

namespace Foundation.ByteOrder

/-- The `width` low bytes of `value`, least significant byte first. -/
def littleEndian : Nat → Nat → List UInt8
  | 0, _ => []
  | width + 1, value => UInt8.ofNat value :: littleEndian width (value / 256)

/-- The number whose bytes, least significant first, are `bytes`. -/
def ofLittleEndian (bytes : List UInt8) : Nat :=
  Nat.ofDigits 256 (bytes.map UInt8.toNat)

/-- The number whose bytes, most significant first, are `bytes`. -/
def ofBigEndian (bytes : List UInt8) : Nat :=
  ofLittleEndian bytes.reverse

/-- Reverse the `width` bytes of a number. -/
def byteSwap (width value : Nat) : Nat :=
  ofBigEndian (littleEndian width value)

@[simp]
theorem length_littleEndian (width value : Nat) : (littleEndian width value).length = width := by
  induction width generalizing value with
  | zero => rfl
  | succ width inductionHypothesis =>
      simp only [littleEndian, List.length_cons, inductionHypothesis]

@[simp]
theorem ofLittleEndian_nil : ofLittleEndian [] = 0 :=
  rfl

@[simp]
theorem ofLittleEndian_cons (byte : UInt8) (bytes : List UInt8) :
    ofLittleEndian (byte :: bytes) = byte.toNat + 256 * ofLittleEndian bytes := by
  simp [ofLittleEndian, Nat.ofDigits_cons]

theorem ofLittleEndian_lt (bytes : List UInt8) : ofLittleEndian bytes < 256 ^ bytes.length := by
  have digit : ∀ value ∈ bytes.map UInt8.toNat, value < 256 := by
    intro value member
    obtain ⟨byte, _, rfl⟩ := List.mem_map.mp member
    exact byte.toNat_lt
  simpa [ofLittleEndian] using Nat.ofDigits_lt_base_pow_length (by decide : 1 < 256) digit

/-- Reading back a written number keeps what fits in the width. -/
theorem ofLittleEndian_littleEndian (width value : Nat) :
    ofLittleEndian (littleEndian width value) = value % 256 ^ width := by
  induction width generalizing value with
  | zero => simp [littleEndian, Nat.mod_one]
  | succ width inductionHypothesis =>
      have lowByte : (UInt8.ofNat value).toNat = value % 256 := UInt8.toNat_ofNat'
      rw [littleEndian, ofLittleEndian_cons, inductionHypothesis, lowByte, Nat.pow_succ',
        Nat.mod_mul]

/-- Writing back a read number restores the bytes. -/
theorem littleEndian_ofLittleEndian (bytes : List UInt8) :
    littleEndian bytes.length (ofLittleEndian bytes) = bytes := by
  induction bytes with
  | nil => rfl
  | cons byte bytes inductionHypothesis =>
      have byteBound : byte.toNat < 256 := byte.toNat_lt
      have lowByte : UInt8.ofNat (byte.toNat + 256 * ofLittleEndian bytes) = byte := by
        apply UInt8.toNat_inj.mp
        rw [UInt8.toNat_ofNat']
        omega
      have rest : (byte.toNat + 256 * ofLittleEndian bytes) / 256 = ofLittleEndian bytes := by
        omega
      rw [ofLittleEndian_cons, List.length_cons, littleEndian, lowByte, rest, inductionHypothesis]

theorem ofBigEndian_lt (bytes : List UInt8) : ofBigEndian bytes < 256 ^ bytes.length := by
  simpa [ofBigEndian] using ofLittleEndian_lt bytes.reverse

theorem byteSwap_lt (width value : Nat) : byteSwap width value < 256 ^ width := by
  simpa [byteSwap] using ofBigEndian_lt (littleEndian width value)

/-- Swapping a number that was read in host order reads it in network order. -/
theorem byteSwap_ofLittleEndian (bytes : List UInt8) :
    byteSwap bytes.length (ofLittleEndian bytes) = ofBigEndian bytes := by
  rw [byteSwap, littleEndian_ofLittleEndian]

theorem littleEndian_byteSwap (width value : Nat) :
    littleEndian width (byteSwap width value) = (littleEndian width value).reverse := by
  have written := littleEndian_ofLittleEndian (littleEndian width value).reverse
  rwa [List.length_reverse, length_littleEndian] at written

theorem byteSwap_byteSwap {width value : Nat} (fits : value < 256 ^ width) :
    byteSwap width (byteSwap width value) = value := by
  rw [byteSwap, littleEndian_byteSwap, ofBigEndian, List.reverse_reverse,
    ofLittleEndian_littleEndian, Nat.mod_eq_of_lt fits]

example : byteSwap 2 0xFDFC = 0xFCFD := by decide

end Foundation.ByteOrder
