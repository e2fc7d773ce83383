/-!
# Sixteen-bit words and their bytes

A word is `high * 256 + low`, so its two bytes are a quotient and a remainder. Splitting a word and
joining its bytes are inverse to each other.
-/

namespace Handheld.Word

set_option autoImplicit false

def ofBytes (high low : UInt8) : UInt16 :=
  UInt16.ofNat (high.toNat * 256 + low.toNat)

def highByte (word : UInt16) : UInt8 :=
  UInt8.ofNat (word.toNat / 256)

def lowByte (word : UInt16) : UInt8 :=
  UInt8.ofNat (word.toNat % 256)

theorem toNat_ofBytes (high low : UInt8) :
    (ofBytes high low).toNat = high.toNat * 256 + low.toNat := by
  have highBound := high.toNat_lt
  have lowBound := low.toNat_lt
  unfold ofBytes
  rw [UInt16.toNat_ofNat_of_lt']
  simp only [UInt16.size]
  omega

@[simp] theorem highByte_ofBytes (high low : UInt8) : highByte (ofBytes high low) = high := by
  have lowBound := low.toNat_lt
  unfold highByte
  rw [toNat_ofBytes, show (high.toNat * 256 + low.toNat) / 256 = high.toNat by omega]
  simp

@[simp] theorem lowByte_ofBytes (high low : UInt8) : lowByte (ofBytes high low) = low := by
  have lowBound := low.toNat_lt
  unfold lowByte
  rw [toNat_ofBytes, show (high.toNat * 256 + low.toNat) % 256 = low.toNat by omega]
  simp

theorem bytes_of_same {high low otherHigh otherLow : UInt8}
    (same : ofBytes high low = ofBytes otherHigh otherLow) : high = otherHigh ∧ low = otherLow := by
  constructor
  · simpa only [highByte_ofBytes] using congrArg highByte same
  · simpa only [lowByte_ofBytes] using congrArg lowByte same

theorem ofBytes_highByte_lowByte (word : UInt16) :
    ofBytes (highByte word) (lowByte word) = word := by
  have wordBound := word.toNat_lt
  apply UInt16.toNat.inj
  rw [toNat_ofBytes]
  unfold highByte lowByte
  rw [UInt8.toNat_ofNat_of_lt' (by simp only [UInt8.size]; omega),
    UInt8.toNat_ofNat_of_lt' (by simp only [UInt8.size]; omega)]
  omega

end Handheld.Word
