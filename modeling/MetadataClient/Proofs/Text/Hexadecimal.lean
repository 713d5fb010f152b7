import MetadataClient.Text.Hexadecimal
import Mathlib.Tactic.Common

/-! Hexadecimal digits. Numbers below sixteen have one in lower and one in upper case, and these
are the only characters that are read as digits. -/
namespace MetadataClient.Text

/-- The character is the digit of the number, in lower or in upper case. -/
def HexDigit (digit : Nat) (char : Char) : Prop :=
  "0123456789abcdef".toList[digit]? = some char ∨ "0123456789ABCDEF".toList[digit]? = some char

instance (digit : Nat) (char : Char) : Decidable (HexDigit digit char) :=
  inferInstanceAs (Decidable (_ ∨ _))

theorem HexDigit.lt {digit : Nat} {char : Char} (is : HexDigit digit char) : digit < 16 := by
  rcases is with lower | upper
  · exact (List.getElem?_eq_some_iff.mp lower).1
  · exact (List.getElem?_eq_some_iff.mp upper).1

theorem lt_of_hexValue? {digit : Nat} {char : Char} (read : hexValue? char = some digit) :
    char.toNat < 128 := by
  simp only [hexValue?, Char.le_def, UInt32.le_iff_toNat_le] at read
  change char.val.toNat < 128
  split at read
  next decimal => exact Nat.lt_of_le_of_lt decimal.2 (by decide)
  next =>
    split at read
    next lower => exact Nat.lt_of_le_of_lt lower.2 (by decide)
    next =>
      split at read
      next upper => exact Nat.lt_of_le_of_lt upper.2 (by decide)
      next => cases read

theorem hexValue?_eq_some_iff {digit : Nat} {char : Char} :
    hexValue? char = some digit ↔ HexDigit digit char := by
  constructor
  · intro read
    have all : ∀ code < 128, ∀ digit ∈ hexValue? (.ofNat code), HexDigit digit (.ofNat code) := by
      decide +kernel
    have found := all char.toNat (lt_of_hexValue? read) digit
    rw [Char.ofNat_toNat] at found
    exact found read
  · intro is
    have lower : ∀ digit < 16, ("0123456789abcdef".toList[digit]?).bind hexValue? = some digit := by
      decide +kernel
    have upper : ∀ digit < 16, ("0123456789ABCDEF".toList[digit]?).bind hexValue? = some digit := by
      decide +kernel
    rcases is with found | found
    · have value := lower digit (HexDigit.lt (.inl found))
      rwa [found] at value
    · have value := upper digit (HexDigit.lt (.inr found))
      rwa [found] at value

theorem HexDigit.utf8Size {digit : Nat} {char : Char} (is : HexDigit digit char) :
    char.utf8Size = 1 := by
  have small := lt_of_hexValue? (hexValue?_eq_some_iff.mpr is)
  have least : char.val ≤ 127 := UInt32.le_iff_toNat_le.mpr (Nat.le_of_lt_succ small)
  exact if_pos least

end MetadataClient.Text
