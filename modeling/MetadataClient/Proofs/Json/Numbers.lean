import MetadataClient.Proofs.Decimal.Shortest
import MetadataClient.Proofs.Json.Tokens

/-! Numbers that were written can be read. An integer comes back as it was. A binary64
number comes back as some finite number, since the shortest decimal is never rounded out of
range. -/
namespace MetadataClient

namespace Decimal

theorem digits_of_lt {number : Nat} (small : number < 10) : digits number = [number] := by
  rw [digits, if_pos small]

theorem number_append (first second : List Nat) :
    number (first ++ second) = number first * 10 ^ second.length + number second := by
  induction second using List.reverseRecOn with
  | nil => simp [number]
  | append_singleton second digit ih =>
    rw [← List.append_assoc, number_append_singleton, number_append_singleton, ih,
      List.length_append, List.length_singleton, Nat.pow_succ]
    ring

theorem number_replicate_zero (count : Nat) : number (List.replicate count 0) = 0 := by
  induction count with
  | zero => rfl
  | succ count ih =>
    rw [List.replicate_succ', number_append_singleton, ih]

theorem number_lt (digits : List Nat) (small : ∀ digit ∈ digits, digit < 10) :
    number digits < 10 ^ digits.length := by
  induction digits using List.reverseRecOn with
  | nil => decide
  | append_singleton digits digit ih =>
    have first := ih fun other member => small other (List.mem_append_left _ member)
    have last := small digit (by simp)
    rw [number_append_singleton, List.length_append, List.length_singleton, Nat.pow_succ]
    omega

end Decimal

namespace Json

theorem gather_of_fits {start : Nat} {digits : List Nat}
    (fits : start * 10 ^ digits.length + Decimal.number digits < 0x10000000000000000) :
    gather start digits =
      (start * 10 ^ digits.length + Decimal.number digits, digits.length) := by
  induction digits generalizing start with
  | nil => simp [gather, Decimal.number]
  | cons digit digits ih =>
    have split : start * 10 ^ (digit :: digits).length + Decimal.number (digit :: digits) =
        (start * 10 + digit) * 10 ^ digits.length + Decimal.number digits := by
      rw [← List.singleton_append, Decimal.number_append, List.length_append,
        List.length_singleton, Nat.pow_add]
      simp only [Decimal.number, List.foldl_cons, List.foldl_nil]
      ring
    rw [split] at fits ⊢
    have now : start * 10 + digit < 0x10000000000000000 := by
      have : start * 10 + digit ≤ (start * 10 + digit) * 10 ^ digits.length :=
        Nat.le_mul_of_pos_right _ (Nat.pow_pos (by decide))
      omega
    rw [gather, if_pos now, ih fits]
    rfl

namespace Literal

/-- All digits, those behind the point too. -/
def number (literal : Literal) : Nat :=
  Decimal.number (literal.whole ++ literal.fraction)

def power (literal : Literal) : Int :=
  (match literal.exponent with
    | none => 0
    | some (true, digits) => -(Decimal.number digits : Int)
    | some (false, digits) => Decimal.number digits) - literal.fraction.length

/-- With few enough digits none is lost, and a point or an exponent makes the number a
binary64 one. -/
theorem value?_real {literal : Literal} (fits : literal.number < 0x10000000000000000)
    (real : literal.fraction ≠ [] ∨ literal.exponent.isSome) :
    literal.value? =
      (Binary64.ofDecimal? literal.negative literal.number literal.power).map .real := by
  have split := Decimal.number_append literal.whole literal.fraction
  have wholeFits : 0 * 10 ^ literal.whole.length + Decimal.number literal.whole <
      0x10000000000000000 := by
    have : Decimal.number literal.whole ≤
        Decimal.number literal.whole * 10 ^ literal.fraction.length :=
      Nat.le_mul_of_pos_right _ (Nat.pow_pos (by decide))
    rw [number] at fits
    omega
  have inexact : ¬ (literal.fraction.isEmpty = true ∧ literal.exponent.isNone = true) := by
    rcases real with some | some
    · simp [some]
    · simp [Option.isSome_iff_ne_none.mp some]
  rw [value?, gather_of_fits wholeFits]
  simp only [Nat.zero_mul, Nat.zero_add]
  rw [dif_neg (fun all => inexact all.1.2), gather_of_fits (split ▸ fits), ← split]
  refine congrArg (fun power =>
    (Binary64.ofDecimal? literal.negative literal.number power).map Number.real) ?_
  rw [power, Nat.sub_self]
  cases literal.exponent with
  | none => simp
  | some exponent =>
    obtain ⟨negative, digits⟩ := exponent
    cases negative <;> simp <;> omega

/-- The literal that is written for a decimal, positional or with an exponent. -/
def ofScaled (negative : Bool) (scaled : Decimal.Scaled) : Literal :=
  let digits := Decimal.digits scaled.digits
  let whole : Int := digits.length + scaled.power
  if whole < -4 ∨ 16 < whole then
    ⟨negative, digits.take 1, digits.drop 1, some (whole < 1, Decimal.digits (whole - 1).natAbs)⟩
  else if whole ≤ 0 then
    ⟨negative, [0], List.replicate (-whole).toNat 0 ++ digits, none⟩
  else if 0 ≤ scaled.power then
    ⟨negative, digits ++ List.replicate scaled.power.toNat 0, [0], none⟩
  else ⟨negative, digits.take whole.toNat, digits.drop whole.toNat, none⟩

def ofRank (negative : Bool) (rank : Nat) : Literal :=
  if rank = 0 then ⟨negative, [0], [0], none⟩ else ofScaled negative (Decimal.shortest rank)

theorem print_fraction (negative : Bool) (count : Nat) {digits : List Nat} (some : digits ≠ []) :
    (Literal.mk negative [0] (List.replicate count 0 ++ digits) none).print =
      zeroDigit :: point :: List.replicate count zeroDigit ++ printDigits digits := by
  rw [print, printFraction_of_some (List.append_ne_nil_of_right_ne_nil _ some)]
  simp only [printExponent, printDigits_append, printDigits_replicate_zero,
    printDigits_zero, List.append_nil, List.nil_append, List.cons_append]

theorem printMagnitude_eq (negative : Bool) (rank : Nat) :
    printMagnitude rank = (ofRank negative rank).print := by
  rw [printMagnitude, ofRank]
  split
  · rfl
  · generalize Decimal.shortest rank = scaled
    have some := Decimal.digits_ne_nil scaled.digits
    simp only [ofScaled, printNatural_eq, length_printDigits]
    split
    · simp only [print, printFraction, printExponent, take_printDigits, drop_printDigits,
        isEmpty_printDigits, List.append_assoc, decide_eq_true_eq]
    · split
      · rw [print_fraction negative _ some]
      · split
        · rw [print, printFraction_of_some (List.cons_ne_nil _ _)]
          simp only [printExponent, printDigits_append, printDigits_replicate_zero,
            printDigits_zero, List.append_nil]
        · have rest : (Decimal.digits scaled.digits).drop
              ((Decimal.digits scaled.digits).length +
                scaled.power).toNat ≠ [] := by
            rw [Ne, List.drop_eq_nil_iff]
            omega
          rw [print, printFraction_of_some rest]
          simp only [printExponent, take_printDigits, drop_printDigits, List.append_nil]

theorem ofScaled_lawful (negative : Bool) {scaled : Decimal.Scaled}
    (zero : scaled.digits = 0 → scaled.power = 0) : (ofScaled negative scaled).Lawful := by
  have some := Decimal.digits_ne_nil scaled.digits
  have small : ∀ digit ∈ Decimal.digits scaled.digits, digit < 10 := by
    intro digit
    exact Decimal.lt_ten_of_mem_digits
  have noExponent : ∀ (sign : Bool) (digits : List Nat), none = Option.some (sign, digits) →
      digits ≠ [] ∧ ∀ digit ∈ digits, digit < 10 := nofun
  have zeroSmall : ∀ digit ∈ [0], digit < 10 := by decide
  have positive : 0 < List.length (Decimal.digits scaled.digits) := List.length_pos_iff.mpr some
  -- Zero is a single digit, and no other number begins with one.
  have leading (h : (Decimal.digits scaled.digits).head? = .some 0) : scaled.digits = 0 := by
    rcases Nat.eq_zero_or_pos scaled.digits with none | above
    · exact none
    · exact absurd h (Decimal.head?_digits_ne_zero above)
  simp only [ofScaled]
  split
  · constructor
    · simpa using some
    · cases given : Decimal.digits scaled.digits with
      | nil => exact absurd given some
      | cons first rest => simp
    · intro digit member
      exact small digit (List.mem_of_mem_take member)
    · intro digit member
      exact small digit (List.mem_of_mem_drop member)
    · rintro sign digits ⟨⟩
      exact ⟨Decimal.digits_ne_nil _, fun _ => Decimal.lt_ten_of_mem_digits⟩
  · split
    · refine ⟨List.cons_ne_nil _ _, fun _ => rfl, zeroSmall, ?_, noExponent⟩
      intro digit member
      rcases List.mem_append.mp member with filled | written
      · exact zeroSmall digit (List.mem_singleton.mpr (List.eq_of_mem_replicate filled))
      · exact small digit written
    · split
      · refine ⟨List.append_ne_nil_of_left_ne_nil some _, ?_, ?_, zeroSmall, noExponent⟩
        · rw [List.head?_append_of_ne_nil _ some]
          intro first
          have none := leading first
          simp only [zero none, none, Int.toNat_zero, List.replicate_zero, List.append_nil]
          exact Decimal.digits_of_lt (by decide)
        · intro digit member
          rcases List.mem_append.mp member with written | filled
          · exact small digit written
          · exact zeroSmall digit (List.mem_singleton.mpr (List.eq_of_mem_replicate filled))
      · constructor
        · simp only [Ne, List.take_eq_nil_iff, some, or_false]
          omega
        · rw [List.head?_take, if_neg (by omega)]
          intro first
          have := zero (leading first)
          omega
        · intro digit member
          exact small digit (List.mem_of_mem_take member)
        · intro digit member
          exact small digit (List.mem_of_mem_drop member)
        · exact noExponent

/-- A literal that writes a decimal digit for digit is read as that decimal. -/
theorem value?_of_same {literal : Literal} (scaled : Decimal.Scaled)
    (few : scaled.digits < 0x10000000000000000)
    (readable : (Binary64.ofDecimal? literal.negative scaled.digits scaled.power).isSome)
    (real : literal.fraction ≠ [] ∨ literal.exponent.isSome)
    (digits : literal.number = scaled.digits) (power : literal.power = scaled.power) :
    ∃ number, literal.value? = some (.real number) := by
  obtain ⟨number, read⟩ := Option.isSome_iff_exists.mp readable
  exact ⟨number, by rw [value?_real (digits ▸ few) real, digits, power, read, Option.map_some]⟩

theorem ofScaled_value? (negative : Bool) {scaled : Decimal.Scaled}
    (few : scaled.digits < 1000000000000000000)
    (readable : (Binary64.ofDecimal? negative scaled.digits scaled.power).isSome) :
    ∃ number, (ofScaled negative scaled).value? = some (.real number) := by
  have fits : scaled.digits < 0x10000000000000000 := by omega
  have all := Decimal.number_digits scaled.digits
  have bounded := Decimal.number_lt (Decimal.digits scaled.digits) fun _ =>
    Decimal.lt_ten_of_mem_digits
  have positive : 0 < (Decimal.digits scaled.digits).length :=
    List.length_pos_iff.mpr (Decimal.digits_ne_nil _)
  rw [all] at bounded
  simp only [ofScaled]
  generalize Decimal.digits scaled.digits = digits at all bounded positive ⊢
  split
  · refine value?_of_same scaled fits readable (.inr rfl) ?_ ?_
    · rw [number, List.take_append_drop, all]
    · by_cases low : (digits.length + scaled.power : Int) < 1
      · simp only [power, low, decide_true, Decimal.number_digits, List.length_drop]
        omega
      · simp only [power, low, decide_false, Decimal.number_digits, List.length_drop]
        omega
  · split
    · refine value?_of_same scaled fits readable (.inl ?_) ?_ ?_
      · exact List.append_ne_nil_of_right_ne_nil _ (List.length_pos_iff.mp positive)
      · rw [number, Decimal.number_append, Decimal.number_append, Decimal.number_replicate_zero, all]
        simp [Decimal.number]
      · simp only [power, List.length_append, List.length_replicate]
        omega
    · split
      next above =>
        -- The zeros are digits too, and the one behind the point makes the power negative.
        have total : number ⟨negative, digits ++ List.replicate scaled.power.toNat 0, [0], none⟩ =
            scaled.digits * 10 ^ (scaled.power.toNat + 1) := by
          rw [number, Decimal.number_append, Decimal.number_append, Decimal.number_replicate_zero,
            all, List.length_replicate, Nat.pow_succ]
          simp [Decimal.number, Nat.mul_assoc]
        have few : scaled.digits * 10 ^ (scaled.power.toNat + 1) < 0x10000000000000000 := by
          calc scaled.digits * 10 ^ (scaled.power.toNat + 1)
              ≤ 10 ^ digits.length * 10 ^ (scaled.power.toNat + 1) :=
                Nat.mul_le_mul_right _ bounded.le
            _ = 10 ^ (digits.length + scaled.power.toNat + 1) := by rw [← Nat.pow_add, Nat.add_assoc]
            _ ≤ 10 ^ 17 := Nat.pow_le_pow_right (by decide) (by omega)
            _ < 0x10000000000000000 := by decide
        refine value?_of_same ⟨_, -1⟩ few ?_ (.inl (List.cons_ne_nil _ _)) total rfl
        exact Binary64.ofDecimal?_isSome negative few (.inl (show (-1 : Int) < 0 by decide))
      · refine value?_of_same scaled fits readable (.inl ?_) ?_ ?_
        · rw [Ne, List.drop_eq_nil_iff]
          omega
        · rw [number, List.take_append_drop, all]
        · simp only [power, List.length_drop]
          omega

theorem ofRank_readable (negative : Bool) {rank : Nat} (finite : rank < Binary64.overflow) :
    (ofRank negative rank).negative = negative ∧ (ofRank negative rank).Lawful ∧
      ∃ number, (ofRank negative rank).value? = some (.real number) := by
  rw [ofRank]
  split
  · refine ⟨rfl, ⟨List.cons_ne_nil _ _, fun _ => rfl, by decide +revert, by decide +revert, nofun⟩, ?_⟩
    have zero : (Binary64.ofDecimal? negative 0 (-1)).isSome :=
      Binary64.ofDecimal?_isSome negative (by decide) (.inl (by decide))
    exact value?_of_same ⟨0, -1⟩ (by decide) zero (.inl (List.cons_ne_nil _ _)) rfl rfl
  · refine ⟨?_, ofScaled_lawful negative (Decimal.shortest_bounded finite).2.2,
      ofScaled_value? negative (Decimal.shortest_digits_lt finite)
        (Decimal.ofDecimal?_shortest_isSome negative finite)⟩
    simp only [ofScaled]
    repeat' split
    all_goals rfl

end Literal

theorem readNumber_print {literal : Literal} (lawful : literal.Lawful) {number : Number}
    (value : literal.value? = some number) {rest : Bytes} (closed : Closed rest) :
    readNumber literal.negative (literal.print ++ rest) = .ok (number, rest) := by
  simp only [readNumber, readLiteral_print lawful closed, bind, Except.bind, value]

theorem readScalar_of_digit {byte : UInt8} (digit : isDigit byte = true) (rest : Bytes) :
    readScalar (byte :: rest) =
      (readNumber false (byte :: rest)).map fun (number, after) => (.number number, after) := by
  have other {mark : UInt8} (noDigit : isDigit mark = false) : byte ≠ mark := by
    rintro rfl
    exact Bool.false_ne_true (noDigit.symm.trans digit)
  rw [readScalar, if_neg (other rfl), if_neg (other rfl), if_neg (other rfl), if_neg (other rfl),
    if_neg (other rfl), if_pos digit]

theorem readScalar_print {literal : Literal} (lawful : literal.Lawful) {number : Number}
    (value : literal.value? = some number) {rest : Bytes} (closed : Closed rest) :
    readScalar ((if literal.negative then minus :: literal.print else literal.print) ++ rest) =
      .ok (.number number, rest) := by
  have read := readNumber_print lawful value closed
  cases sign : literal.negative with
  | true =>
    rw [sign] at read
    simp only [if_true, List.cons_append]
    rw [readScalar, if_neg (by decide), if_neg (by decide), if_neg (by decide), if_neg (by decide),
      if_pos rfl, read]
    rfl
  | false =>
    rw [sign] at read
    cases whole : literal.whole with
    | nil => exact absurd whole lawful.some
    | cons first digits =>
      have digit := (isDigit_digit first (lawful.whole first (by simp [whole]))).1
      have begins : literal.print = (0x30 + first.toUInt8) ::
          (printDigits digits ++ literal.printFraction ++ literal.printExponent) := by
        simp only [Literal.print, whole, printDigits, List.map_cons, List.cons_append]
      simp only [Bool.false_eq_true, if_false]
      rw [begins, List.cons_append] at read ⊢
      rw [readScalar_of_digit digit, read]
      rfl

namespace Number

def reread (number : Number) : Number :=
  match readScalar (printNumber number) with
  | .ok (.number found, _) => found
  | _ => number

theorem closed_nil : Closed [] := nofun

theorem value?_integer {value : Int} (least : -0x8000000000000000 ≤ value)
    (most : value < 0x10000000000000000) :
    (Literal.mk (value < 0) (Decimal.digits value.natAbs) [] none).value? =
      some (.integer value least most) := by
  have fits : 0 * 10 ^ (Decimal.digits value.natAbs).length +
      Decimal.number (Decimal.digits value.natAbs) < 0x10000000000000000 := by
    rw [Decimal.number_digits]
    omega
  have signed : (if value < 0 then -(value.natAbs : Int) else value.natAbs) = value := by
    split <;> omega
  have sound : ¬ (value < 0 ∧ value.natAbs = 0) := by omega
  simp only [Literal.value?, gather_of_fits fits, Decimal.number_digits, Nat.zero_mul,
    Nat.zero_add, decide_eq_true_eq, signed, List.isEmpty_nil, Option.isNone_none, sound,
    not_false_eq_true, and_self, least, most, dite_true]

theorem readScalar_integer {value : Int} (least : -0x8000000000000000 ≤ value)
    (most : value < 0x10000000000000000) {rest : Bytes} (closed : Closed rest) :
    readScalar (printNumber (.integer value least most) ++ rest) =
      .ok (.number (.integer value least most), rest) := by
  let literal : Literal := ⟨value < 0, Decimal.digits value.natAbs, [], none⟩
  have lawful : literal.Lawful := by
    refine ⟨Decimal.digits_ne_nil _, ?_, fun _ => Decimal.lt_ten_of_mem_digits, nofun, nofun⟩
    intro first
    rcases Nat.eq_zero_or_pos value.natAbs with zero | positive
    · simp only [literal, zero]
      exact Decimal.digits_of_lt (by decide)
    · exact absurd first (Decimal.head?_digits_ne_zero positive)
  have printed : printNumber (.integer value least most) =
      if literal.negative then minus :: literal.print else literal.print := by
    simp only [printNumber, literal, Literal.print, Literal.printFraction, Literal.printExponent,
      printNatural_eq, List.isEmpty_nil, if_true, List.append_nil, decide_eq_true_eq]
  rw [printed]
  exact readScalar_print lawful (value?_integer least most) closed

theorem readScalar_real (value : Binary64) :
    ∃ found : Binary64, ∀ {rest : Bytes}, Closed rest →
      readScalar (printNumber (.real value) ++ rest) = .ok (.number (.real found), rest) := by
  obtain ⟨sign, lawful, found, read⟩ := Literal.ofRank_readable value.negative value.finite
  refine ⟨found, ?_⟩
  intro rest closed
  have all := readScalar_print lawful read closed
  rw [sign, ← Literal.printMagnitude_eq] at all
  rw [printNumber]
  exact all

theorem reread_integer {value : Int} (least : -0x8000000000000000 ≤ value)
    (most : value < 0x10000000000000000) :
    reread (.integer value least most) = .integer value least most := by
  have read := readScalar_integer least most closed_nil
  rw [List.append_nil] at read
  rw [reread, read]

theorem readScalar_reread (number : Number) {rest : Bytes} (closed : Closed rest) :
    readScalar (printNumber number ++ rest) = .ok (.number number.reread, rest) := by
  cases number with
  | integer value least most =>
    rw [reread_integer]
    exact readScalar_integer least most closed
  | real value =>
    obtain ⟨found, read⟩ := readScalar_real value
    have alone := read closed_nil
    rw [List.append_nil] at alone
    rw [read closed, reread, alone]

end Number
end Json
end MetadataClient
