/-! The decimal digits of a natural number, most significant first. -/
namespace MetadataClient.Decimal

def digits (number : Nat) : List Nat :=
  if number < 10 then [number] else digits (number / 10) ++ [number % 10]

def number (digits : List Nat) : Nat :=
  digits.foldl (· * 10 + ·) 0

theorem number_append_singleton (digits : List Nat) (digit : Nat) :
    number (digits ++ [digit]) = number digits * 10 + digit := by
  simp [number]

theorem number_digits (n : Nat) : number (digits n) = n := by
  rw [digits]
  split
  · simp [number]
  · rw [number_append_singleton, number_digits (n / 10)]
    omega

theorem lt_ten_of_mem_digits {n digit : Nat} (member : digit ∈ digits n) : digit < 10 := by
  rw [digits] at member
  split at member
  · simp_all
  · rcases List.mem_append.mp member with earlier | last
    · exact lt_ten_of_mem_digits earlier
    · have := List.mem_singleton.mp last; omega

theorem digits_ne_nil (n : Nat) : digits n ≠ [] := by
  rw [digits]
  split <;> simp

theorem head?_digits_ne_zero {n : Nat} (positive : 0 < n) : (digits n).head? ≠ some 0 := by
  rw [digits]
  split
  · simp; omega
  · have shorter := head?_digits_ne_zero (n := n / 10) (by omega)
    match found : digits (n / 10) with
    | [] => exact absurd found (digits_ne_nil _)
    | first :: rest => simpa [found] using shorter

def digitChar (digit : Nat) : Char :=
  Char.ofNat ('0'.toNat + digit)

def text (number : Nat) : List Char :=
  (digits number).map digitChar

end MetadataClient.Decimal
