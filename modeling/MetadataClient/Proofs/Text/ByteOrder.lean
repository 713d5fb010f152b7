import MetadataClient.Text.Encoding
import Mathlib.Tactic.Common

/-! The order of UTF-8. Strings are ordered by their first different character, and their
bytes by the first different byte; the two orders are one. -/
namespace MetadataClient.Bytes

/-- Of two characters the one with the smaller code point has the smaller bytes, whatever
comes behind. -/
theorem utf8EncodeChar_lt {first second : Char} (before : first < second)
    (rest rest' : Bytes) :
    String.utf8EncodeChar first ++ rest < String.utf8EncodeChar second ++ rest' := by
  have code : first.val.toNat < second.val.toNat := UInt32.lt_iff_toNat_lt.mp before
  have most : second.val.toNat < 0x110000 := by
    have valid := second.valid
    rcases valid with low | ⟨-, high⟩ <;> omega
  simp only [String.utf8EncodeChar]
  generalize first.val.toNat = lower at code
  generalize second.val.toNat = upper at code most
  -- One case for each pair of lengths; the leading byte tells the length.
  split_ifs <;>
    simp only [List.cons_append, List.nil_append, List.cons_lt_cons_iff, UInt8.lt_iff_toNat_lt,
      ← UInt8.toNat_inj, UInt8.toNat_ofNat'] <;>
    simp (disch := omega) only [Nat.mod_eq_of_lt] <;>
    omega

theorem flatMap_utf8EncodeChar_lt {first second : List Char} (before : first < second) :
    first.flatMap String.utf8EncodeChar < second.flatMap String.utf8EncodeChar := by
  induction before with
  | @nil char rest =>
    rw [List.flatMap_nil, List.flatMap_cons]
    cases encoded : String.utf8EncodeChar char with
    | nil => exact absurd encoded String.utf8EncodeChar_ne_nil
    | cons byte bytes => exact List.nil_lt_cons ..
  | rel before =>
    rw [List.flatMap_cons, List.flatMap_cons]
    exact utf8EncodeChar_lt before _ _
  | cons _ ih =>
    rw [List.flatMap_cons, List.flatMap_cons]
    exact List.append_left_lt ih

theorem ofString_lt {first second : String} (before : first < second) :
    ofString first < ofString second := by
  rw [ofString_eq_flatMap, ofString_eq_flatMap]
  exact flatMap_utf8EncodeChar_lt before

end MetadataClient.Bytes
