/-! Numbers in base sixteen. Digits are read in either case and written in lower
case. -/
namespace MetadataClient.Text

def hexValue? (char : Char) : Option Nat :=
  if '0' ≤ char ∧ char ≤ '9' then some (char.toNat - '0'.toNat)
  else if 'a' ≤ char ∧ char ≤ 'f' then some (char.toNat - 'a'.toNat + 10)
  else if 'A' ≤ char ∧ char ≤ 'F' then some (char.toNat - 'A'.toNat + 10)
  else none

def hexDigit (value : Nat) : Char :=
  if value < 10 then Char.ofNat ('0'.toNat + value) else Char.ofNat ('a'.toNat + (value - 10))

def hexNumber (digits : List Nat) : Nat :=
  digits.foldl (· * 16 + ·) 0

/-- The last digits of a number, as many as are asked for. -/
def hexDigits : Nat → Nat → List Nat
  | 0, _ => []
  | count + 1, number => hexDigits count (number / 16) ++ [number % 16]

def hexText (number : Nat) : List Char :=
  Nat.toDigits 16 number

theorem hexValue?_hexDigit : ∀ value < 16, hexValue? (hexDigit value) = some value := by
  decide

theorem length_hexDigits (count number : Nat) : (hexDigits count number).length = count := by
  induction count generalizing number with
  | zero => rfl
  | succ count ih => simp [hexDigits, ih]

theorem lt_of_mem_hexDigits {count number digit : Nat} (member : digit ∈ hexDigits count number) :
    digit < 16 := by
  induction count generalizing number with
  | zero => contradiction
  | succ count ih =>
      rcases List.mem_append.mp member with earlier | last
      · exact ih earlier
      · have := List.mem_singleton.mp last; omega

theorem hexNumber_hexDigits (count number : Nat) :
    hexNumber (hexDigits count number) = number % Nat.pow 16 count := by
  induction count generalizing number with
  | zero => exact (Nat.mod_one number).symm
  | succ count ih =>
      have inner := ih (number / 16)
      simp only [hexNumber] at inner
      rw [hexDigits, hexNumber, List.foldl_append, inner, List.foldl_cons, List.foldl_nil]
      change number / 16 % Nat.pow 16 count * 16 + number % 16 =
        number % (Nat.pow 16 count * 16)
      rw [Nat.mul_comm (Nat.pow 16 count) 16, Nat.mod_mul]
      omega

end MetadataClient.Text
