import MetadataClient.Json.Reader
import Mathlib.Tactic.Common

/-! Tokens that are read as they were written. Strings and literals of numbers come back
from their written form, whatever follows that cannot belong to them. -/
namespace MetadataClient.Json

/-! ## Strings -/

theorem letterMeaning?_of_shortEscape? : ∀ code < 256,
    (shortEscape? (.ofNat code)).all fun letter =>
      letter != 0x75 && letterMeaning? letter == some (.ofNat code) := by
  decide +kernel

theorem hexValue?_hexDigit : ∀ value < 16,
    hexValue? (hexDigit (.ofNat value)) = some value := by
  decide

theorem utf8EncodeChar_control : ∀ code < 0x20,
    String.utf8EncodeChar (Char.ofNat code) = [UInt8.ofNat code] := by
  decide

theorem ofNat_halves : ∀ code < 0x20, UInt8.ofNat code / 16 = .ofNat (code / 16) ∧
    UInt8.ofNat code % 16 = .ofNat (code % 16) := by
  decide

theorem readEscape_control {code : Nat} (control : code < 0x20) (rest : Bytes) :
    readEscape (0x75 :: 0x30 :: 0x30 :: hexDigit (.ofNat code / 16) ::
      hexDigit (.ofNat code % 16) :: rest) = .ok ([.ofNat code], 5) := by
  obtain ⟨high, low⟩ := ofNat_halves code control
  have highDigit := hexValue?_hexDigit (code / 16) (by omega)
  have lowDigit := hexValue?_hexDigit (code % 16) (by omega)
  have zero : hexValue? 0x30 = some 0 := by decide
  have unit : readUnit (0x30 :: 0x30 :: hexDigit (.ofNat code / 16) ::
      hexDigit (.ofNat code % 16) :: rest) = .ok code := by
    simp only [readUnit, zero, high, low, highDigit, lowDigit]
    congr 1
    omega
  have notLow : isLowSurrogate code = false := by
    simp only [isLowSurrogate, Bool.and_eq_false_iff, decide_eq_false_iff_not]
    omega
  have notHigh : isHighSurrogate code = false := by
    simp only [isHighSurrogate, Bool.and_eq_false_iff, decide_eq_false_iff_not]
    omega
  rw [readEscape, if_pos rfl, unit]
  simp only [bind, Except.bind, notLow, notHigh, Bool.false_eq_true, if_false,
    utf8EncodeChar_control code control]

/-- However a byte is escaped, the reader takes it for itself. -/
theorem readText_escape (byte : UInt8) (earlier rest : Bytes) :
    readText earlier (escape byte ++ rest) = readText (byte :: earlier) rest := by
  have code : byte = .ofNat byte.toNat := by simp
  rw [escape]
  cases short : shortEscape? byte with
  | some letter =>
    have meant := letterMeaning?_of_shortEscape? byte.toNat byte.toNat_lt
    rw [← code, short, Option.all_some, Bool.and_eq_true, bne_iff_ne, beq_iff_eq] at meant
    have escaped : readEscape (letter :: rest) = .ok ([byte], 1) := by
      rw [readEscape, if_neg meant.1, meant.2]
    simp only [List.cons_append, List.nil_append]
    rw [readText, if_neg (by decide), if_pos rfl, escaped]
    rfl
  | none =>
    by_cases control : byte < 0x20
    · have escaped := readEscape_control (UInt8.lt_iff_toNat_lt.mp control) rest
      rw [← code] at escaped
      simp only [control, if_true, List.cons_append, List.nil_append]
      rw [readText, if_neg (by decide), if_pos rfl, escaped]
      rfl
    · have plain : byte ≠ quoteByte ∧ byte ≠ backslash := by
        constructor <;> rintro rfl <;> exact absurd short (by decide)
      simp only [control, if_false, List.cons_append, List.nil_append]
      rw [readText, if_neg plain.1, if_neg plain.2, if_neg control]

theorem readText_escaped (bytes earlier rest : Bytes) :
    readText earlier (bytes.flatMap escape ++ quoteByte :: rest) =
      .ok (earlier.reverse ++ bytes, rest) := by
  induction bytes generalizing earlier with
  | nil =>
    rw [List.flatMap_nil, List.nil_append, readText, if_pos rfl, List.append_nil]
  | cons byte bytes ih =>
    rw [List.flatMap_cons, List.append_assoc, readText_escape, ih, List.reverse_cons,
      List.append_assoc, List.singleton_append]

theorem readString_print (text : String) (rest : Bytes) :
    readString ((Bytes.ofString text).flatMap escape ++ quoteByte :: rest) = .ok (text, rest) := by
  simp only [readString, readText_escaped, bind, Except.bind, List.reverse_nil, List.nil_append,
    Bytes.toString?_ofString]

theorem printString_append (text : String) (rest : Bytes) :
    printString text ++ rest =
      quoteByte :: ((Bytes.ofString text).flatMap escape ++ quoteByte :: rest) := by
  simp only [printString, List.append_assoc, List.cons_append, List.nil_append]

/-! ## Numbers -/

def printDigits (digits : List Nat) : Bytes :=
  digits.map fun digit => 0x30 + digit.toUInt8

theorem printNatural_eq (number : Nat) :
    printNatural number = printDigits (Decimal.digits number) := rfl

theorem printDigits_zero : printDigits [0] = [zeroDigit] := rfl

theorem length_printDigits (digits : List Nat) : (printDigits digits).length = digits.length :=
  List.length_map _

theorem printDigits_append (first second : List Nat) :
    printDigits (first ++ second) = printDigits first ++ printDigits second :=
  List.map_append

theorem take_printDigits (count : Nat) (digits : List Nat) :
    (printDigits digits).take count = printDigits (digits.take count) :=
  List.map_take.symm

theorem drop_printDigits (count : Nat) (digits : List Nat) :
    (printDigits digits).drop count = printDigits (digits.drop count) :=
  List.map_drop.symm

theorem isEmpty_printDigits (digits : List Nat) :
    (printDigits digits).isEmpty = digits.isEmpty := by
  cases digits <;> rfl

theorem printDigits_replicate_zero (count : Nat) :
    printDigits (List.replicate count 0) = List.replicate count zeroDigit :=
  List.map_replicate

/-- Whatever follows does not go on with digits. -/
def StopsDigits (rest : Bytes) : Prop :=
  ∀ byte ∈ rest.head?, isDigit byte = false

/-- Nothing follows, or a mark that ends a value. -/
def Closed (rest : Bytes) : Prop :=
  ∀ byte ∈ rest.head?, byte = comma ∨ byte = closeArray ∨ byte = closeObject

theorem isDigit_digit : ∀ digit < 10, isDigit (0x30 + digit.toUInt8) = true ∧
    (0x30 + digit.toUInt8 - 0x30).toNat = digit := by
  decide

theorem digit_ne_zero : ∀ digit < 10, 0 < digit → 0x30 + digit.toUInt8 ≠ zeroDigit := by
  decide

theorem readDigits_of_stops {rest : Bytes} (stops : StopsDigits rest) :
    readDigits rest = ([], rest) := by
  cases rest with
  | nil => rfl
  | cons byte rest => rw [readDigits, stops byte rfl, if_neg Bool.false_ne_true]

theorem readDigits_print {digits : List Nat} {rest : Bytes} (small : ∀ digit ∈ digits, digit < 10)
    (stops : StopsDigits rest) : readDigits (printDigits digits ++ rest) = (digits, rest) := by
  induction digits with
  | nil => exact readDigits_of_stops stops
  | cons digit digits ih =>
    obtain ⟨isOne, back⟩ := isDigit_digit digit (small digit List.mem_cons_self)
    have later := ih fun other member => small other (List.mem_cons_of_mem _ member)
    simp only [printDigits, List.map_cons, List.cons_append] at later ⊢
    rw [readDigits, if_pos isOne, later, back]

theorem readSomeDigits_print {digits : List Nat} {rest : Bytes} (some : digits ≠ [])
    (small : ∀ digit ∈ digits, digit < 10) (stops : StopsDigits rest) :
    readSomeDigits (printDigits digits ++ rest) = .ok (digits, rest) := by
  rw [readSomeDigits, readDigits_print small stops]
  cases digits with
  | nil => contradiction
  | cons => rfl

namespace Literal

/-- What a reader can have found in a text. -/
structure Lawful (literal : Literal) : Prop where
  some : literal.whole ≠ []
  leading : literal.whole.head? = .some 0 → literal.whole = [0]
  whole : ∀ digit ∈ literal.whole, digit < 10
  fraction : ∀ digit ∈ literal.fraction, digit < 10
  exponent : ∀ sign digits, literal.exponent = .some (sign, digits) →
    digits ≠ [] ∧ ∀ digit ∈ digits, digit < 10

def printFraction (literal : Literal) : Bytes :=
  if literal.fraction.isEmpty then [] else point :: printDigits literal.fraction

theorem printFraction_of_some {literal : Literal} (some : literal.fraction ≠ []) :
    literal.printFraction = point :: printDigits literal.fraction := by
  rw [printFraction, if_neg (some ∘ List.isEmpty_iff.mp)]

def printExponent (literal : Literal) : Bytes :=
  match literal.exponent with
  | none => []
  | some (sign, digits) => exponentMark :: (if sign then minus else plus) :: printDigits digits

def print (literal : Literal) : Bytes :=
  printDigits literal.whole ++ literal.printFraction ++ literal.printExponent

end Literal

theorem readWhole_print {digits : List Nat} {rest : Bytes} (some : digits ≠ [])
    (leading : digits.head? = .some 0 → digits = [0]) (small : ∀ digit ∈ digits, digit < 10)
    (stops : StopsDigits rest) : readWhole (printDigits digits ++ rest) = .ok (digits, rest) := by
  cases digits with
  | nil => contradiction
  | cons first digits =>
    rcases Nat.eq_zero_or_pos first with rfl | positive
    · obtain rfl : digits = [] := by simpa using leading rfl
      cases rest with
      | nil => rfl
      | cons byte rest =>
        have other := stops byte rfl
        change (if isDigit byte then _ else _) = _
        rw [other, if_neg Bool.false_ne_true]
        rfl
    · have one := isDigit_digit first (small first List.mem_cons_self)
      have other := digit_ne_zero first (small first List.mem_cons_self) positive
      have all := readDigits_print small stops
      simp only [printDigits, List.map_cons, List.cons_append] at all ⊢
      simp only [readWhole, other, one.1, if_false, if_true, all]

theorem readFraction_print {literal : Literal} {rest : Bytes}
    (small : ∀ digit ∈ literal.fraction, digit < 10) (stops : StopsDigits rest)
    (noPoint : ∀ byte ∈ rest.head?, byte ≠ point) :
    readFraction (literal.printFraction ++ rest) = .ok (literal.fraction, rest) := by
  rw [Literal.printFraction]
  cases given : literal.fraction with
  | nil =>
    simp only [List.isEmpty_nil, if_true, List.nil_append]
    cases rest with
    | nil => rfl
    | cons byte rest => rw [readFraction, if_neg (noPoint byte rfl)]
  | cons digit digits =>
    rw [given] at small
    simp only [List.isEmpty_cons, Bool.false_eq_true, if_false, List.cons_append]
    rw [readFraction, if_pos rfl]
    exact readSomeDigits_print (List.cons_ne_nil _ _) small stops

theorem stopsDigits_of_closed {rest : Bytes} (closed : Closed rest) : StopsDigits rest := by
  intro byte first
  rcases closed byte first with rfl | rfl | rfl <;> decide

theorem readExponent_print {literal : Literal} {rest : Bytes}
    (lawful : ∀ sign digits, literal.exponent = .some (sign, digits) →
      digits ≠ [] ∧ ∀ digit ∈ digits, digit < 10) (closed : Closed rest) :
    readExponent (literal.printExponent ++ rest) = .ok (literal.exponent, rest) := by
  rw [Literal.printExponent]
  cases given : literal.exponent with
  | none =>
    cases rest with
    | nil => rfl
    | cons byte rest =>
      have other : ¬ (byte = exponentMark ∨ byte = 0x45) := by
        rcases closed byte rfl with rfl | rfl | rfl <;> decide
      simp only [List.nil_append, readExponent, other, if_false]
  | some exponent =>
    obtain ⟨sign, digits⟩ := exponent
    obtain ⟨some, small⟩ := lawful sign digits given
    have all := readSomeDigits_print some small (stopsDigits_of_closed closed)
    simp only [List.cons_append]
    cases sign with
    | true => simp [readExponent, all, bind, Except.bind, minus, plus]
    | false => simp [readExponent, all, bind, Except.bind, minus, plus]

/-- Behind the digits of a literal comes none of a digit and a point, also if there is no
exponent. -/
theorem printExponent_stops (literal : Literal) {rest : Bytes} (closed : Closed rest) :
    StopsDigits (literal.printExponent ++ rest) ∧
      ∀ byte ∈ (literal.printExponent ++ rest).head?, byte ≠ point := by
  rw [Literal.printExponent]
  cases literal.exponent with
  | none =>
    constructor
    · exact stopsDigits_of_closed closed
    · intro byte first
      rcases closed byte first with rfl | rfl | rfl <;> decide
  | some exponent =>
    constructor
    · rintro byte ⟨⟩
      decide
    · rintro byte ⟨⟩
      decide

theorem readLiteral_print {literal : Literal} (lawful : literal.Lawful) {rest : Bytes}
    (closed : Closed rest) :
    readLiteral literal.negative (literal.print ++ rest) = .ok (literal, rest) := by
  obtain ⟨stops, noPoint⟩ := printExponent_stops literal closed
  have behindWhole : StopsDigits (literal.printFraction ++ (literal.printExponent ++ rest)) := by
    rw [Literal.printFraction]
    split
    · exact stops
    · rintro byte ⟨⟩
      decide
  rw [readLiteral, Literal.print, List.append_assoc, List.append_assoc,
    readWhole_print lawful.some lawful.leading lawful.whole behindWhole]
  simp only [bind, Except.bind, readFraction_print lawful.fraction stops noPoint,
    readExponent_print lawful.exponent closed]

end MetadataClient.Json
