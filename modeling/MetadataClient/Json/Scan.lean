import MetadataClient.Json.Printer

/-! The tokens of JSON text, read from the front of a byte list. A reader gives what
it read and the bytes behind it, or the fault that was met first from left to
right. -/
namespace MetadataClient.Json

/-- Why bytes are not the text of a wanted value: they stop short, no JSON text goes on like
this, or they are JSON of a value that is not wanted here. -/
inductive Fault
  | endOfText
  | malformed
  | mismatch
deriving DecidableEq

def isBlank (byte : UInt8) : Bool :=
  byte = 0x20 || byte = 0x09 || byte = 0x0a || byte = 0x0d

def skipBlanks : Bytes → Bytes
  | [] => []
  | byte :: rest => if isBlank byte then skipBlanks rest else byte :: rest

theorem skipBlanks_length_le (input : Bytes) : (skipBlanks input).length ≤ input.length := by
  induction input with
  | nil => simp [skipBlanks]
  | cons byte rest ih =>
      rw [skipBlanks]
      split
      · exact Nat.le_succ_of_le ih
      · exact Nat.le_refl _

theorem length_lt_of_skipBlanks {input rest : Bytes} {byte : UInt8}
    (found : skipBlanks input = byte :: rest) : rest.length < input.length := by
  have := skipBlanks_length_le input
  rw [found] at this
  exact this

def readWord : Bytes → Bytes → Except Fault Bytes
  | [], input => .ok input
  | _ :: _, [] => .error .endOfText
  | letter :: word, byte :: rest =>
    if byte = letter then readWord word rest else .error .malformed

theorem readWord_length_le {word input rest : Bytes} (read : readWord word input = .ok rest) :
    rest.length ≤ input.length := by
  induction word generalizing input with
  | nil => simp only [readWord, Except.ok.injEq] at read; simp [read]
  | cons letter word ih =>
      match input with
      | [] => simp [readWord] at read
      | byte :: input =>
          rw [readWord] at read
          split at read
          · exact Nat.le_succ_of_le (ih read)
          · contradiction

/-! ## Strings -/

def hexValue? (byte : UInt8) : Option Nat :=
  if 0x30 ≤ byte ∧ byte ≤ 0x39 then some (byte - 0x30).toNat
  else if 0x61 ≤ byte ∧ byte ≤ 0x66 then some (byte - 0x57).toNat
  else if 0x41 ≤ byte ∧ byte ≤ 0x46 then some (byte - 0x37).toNat
  else none

/-- Four hexadecimal digits. They are looked at together, so three bytes or fewer are
the end of the text whatever they hold. -/
def readUnit : Bytes → Except Fault Nat
  | a :: b :: c :: d :: _ =>
    match hexValue? a, hexValue? b, hexValue? c, hexValue? d with
    | some a, some b, some c, some d => .ok (((a * 16 + b) * 16 + c) * 16 + d)
    | _, _, _, _ => .error .malformed
  | _ => .error .endOfText

def isLowSurrogate (unit : Nat) : Bool := 0xdc00 ≤ unit && unit ≤ 0xdfff
def isHighSurrogate (unit : Nat) : Bool := 0xd800 ≤ unit && unit ≤ 0xdbff

def letterMeaning? (letter : UInt8) : Option UInt8 :=
  if letter = quoteByte ∨ letter = backslash ∨ letter = 0x2f then some letter
  else if letter = 0x62 then some 0x08
  else if letter = 0x66 then some 0x0c
  else if letter = 0x6e then some 0x0a
  else if letter = 0x72 then some 0x0d
  else if letter = 0x74 then some 0x09
  else none

def readLowHalf : Bytes → Except Fault Nat
  | [] => .error .endOfText
  | first :: rest =>
    if first ≠ backslash then .error .malformed
    else match rest with
      | [] => .error .endOfText
      | second :: rest =>
        if second ≠ 0x75 then .error .malformed
        else do
          let unit ← readUnit rest
          if isLowSurrogate unit then .ok unit else .error .malformed

/-- What an escape stands for, given the bytes behind its backslash, and how many of
these belong to it. A character outside the basic plane is a pair of escapes. -/
def readEscape : Bytes → Except Fault (Bytes × Nat)
  | [] => .error .endOfText
  | letter :: rest =>
    if letter = 0x75 then do
      let unit ← readUnit rest
      if isLowSurrogate unit then .error .malformed
      else if isHighSurrogate unit then do
        let low ← readLowHalf (rest.drop 4)
        let scalar := 0x10000 + (unit - 0xd800) * 0x400 + (low - 0xdc00)
        .ok (String.utf8EncodeChar (Char.ofNat scalar), 11)
      else .ok (String.utf8EncodeChar (Char.ofNat unit), 5)
    else match letterMeaning? letter with
      | some byte => .ok ([byte], 1)
      | none => .error .malformed

/-- The bytes of a string up to its closing quote; `earlier` holds those already
read, last first. -/
def readText (earlier : Bytes) (input : Bytes) : Except Fault (Bytes × Bytes) :=
  match input with
  | [] => .error .endOfText
  | byte :: rest =>
    if byte = quoteByte then .ok (earlier.reverse, rest)
    else if byte = backslash then
      match readEscape rest with
      | .error fault => .error fault
      | .ok (meant, taken) => readText (meant.reverse ++ earlier) (rest.drop taken)
    else if byte < 0x20 then .error .malformed
    else readText (byte :: earlier) rest
termination_by input.length

theorem readText_length_lt {earlier input text rest : Bytes}
    (read : readText earlier input = .ok (text, rest)) : rest.length < input.length := by
  fun_induction readText earlier input with
  | case1 => contradiction
  | case2 => simp_all
  | case3 => contradiction
  | case4 earlier rest _ meant taken _ ih =>
      have := ih read
      simp only [List.length_drop] at this
      simp only [List.length_cons]
      omega
  | case5 => contradiction
  | case6 earlier byte rest _ _ _ ih =>
      have := ih read
      simp only [List.length_cons]
      omega

/-- A string behind its opening quote. Bytes that are no text are a fault of the
whole string, met at its end. -/
def readString (input : Bytes) : Except Fault (String × Bytes) := do
  let (bytes, rest) ← readText [] input
  match Bytes.toString? bytes with
  | some text => .ok (text, rest)
  | none => .error .malformed

theorem readString_length_lt {input rest : Bytes} {text : String}
    (read : readString input = .ok (text, rest)) : rest.length < input.length := by
  simp only [readString, bind, Except.bind] at read
  split at read
  · contradiction
  · rename_i found
    split at read
    · simp only [Except.ok.injEq, Prod.mk.injEq] at read
      exact read.2 ▸ readText_length_lt found
    · contradiction

/-! ## Numbers -/

/-- A number as it is written. The whole part has no needless leading zero, and the
fraction is empty if there is no point. -/
structure Literal where
  negative : Bool
  whole : List Nat
  fraction : List Nat
  exponent : Option (Bool × List Nat)

def isDigit (byte : UInt8) : Bool :=
  0x30 ≤ byte && byte ≤ 0x39

def readDigits : Bytes → List Nat × Bytes
  | [] => ([], [])
  | byte :: rest =>
    if isDigit byte then
      let (digits, after) := readDigits rest
      ((byte - 0x30).toNat :: digits, after)
    else ([], byte :: rest)

theorem readDigits_length_le (input : Bytes) :
    (readDigits input).2.length ≤ input.length := by
  induction input with
  | nil => simp [readDigits]
  | cons byte rest ih =>
      rw [readDigits]
      split
      · exact Nat.le_succ_of_le ih
      · exact Nat.le_refl _

def readSomeDigits (input : Bytes) : Except Fault (List Nat × Bytes) :=
  match readDigits input with
  | ([], []) => .error .endOfText
  | ([], _ :: _) => .error .malformed
  | (digits, rest) => .ok (digits, rest)

theorem readSomeDigits_length_le {input rest : Bytes} {digits : List Nat}
    (read : readSomeDigits input = .ok (digits, rest)) : rest.length ≤ input.length := by
  have := readDigits_length_le input
  revert read this
  rw [readSomeDigits]
  split <;> simp_all

def readWhole (input : Bytes) : Except Fault (List Nat × Bytes) :=
  match input with
  | [] => .error .endOfText
  | byte :: rest =>
    if byte = zeroDigit then
      match rest with
      | [] => .ok ([0], [])
      | next :: _ => if isDigit next then .error .malformed else .ok ([0], rest)
    else if isDigit byte then .ok (readDigits input)
    else .error .malformed

theorem readWhole_length_lt {input rest : Bytes} {digits : List Nat}
    (read : readWhole input = .ok (digits, rest)) : rest.length < input.length := by
  match input with
  | [] => simp [readWhole] at read
  | byte :: input =>
      simp only [readWhole] at read
      split at read
      · split at read
        · simp_all
        · split at read <;> simp_all
      · split at read
        · rename_i isDigit
          simp only [Except.ok.injEq] at read
          have := readDigits_length_le input
          rw [readDigits, if_pos isDigit, Prod.mk.injEq] at read
          exact read.2 ▸ Nat.lt_succ_of_le this
        · contradiction

def readFraction (input : Bytes) : Except Fault (List Nat × Bytes) :=
  match input with
  | byte :: rest => if byte = point then readSomeDigits rest else .ok ([], input)
  | [] => .ok ([], input)

theorem readFraction_length_le {input rest : Bytes} {digits : List Nat}
    (read : readFraction input = .ok (digits, rest)) : rest.length ≤ input.length := by
  simp only [readFraction] at read
  split at read
  · split at read
    · exact Nat.le_succ_of_le (readSomeDigits_length_le read)
    · simp_all
  · simp_all

/-- A mark, a sign or none, and digits; the result says whether the sign is a minus. -/
def readExponent (input : Bytes) : Except Fault (Option (Bool × List Nat) × Bytes) :=
  match input with
  | byte :: rest =>
    if byte = exponentMark ∨ byte = 0x45 then
      match rest with
      | sign :: unsigned =>
        if sign = plus ∨ sign = minus then do
          let (digits, rest) ← readSomeDigits unsigned
          .ok (some (sign == minus, digits), rest)
        else do
          let (digits, rest) ← readSomeDigits rest
          .ok (some (false, digits), rest)
      | [] => .error .endOfText
    else .ok (none, input)
  | [] => .ok (none, input)

theorem readExponent_length_le {input rest : Bytes} {exponent : Option (Bool × List Nat)}
    (read : readExponent input = .ok (exponent, rest)) : rest.length ≤ input.length := by
  simp only [readExponent, bind, Except.bind] at read
  split at read
  · split at read
    · split at read
      · split at read
        · split at read
          · contradiction
          · rename_i found
            have := readSomeDigits_length_le found
            simp_all
            omega
        · split at read
          · contradiction
          · rename_i found
            have := readSomeDigits_length_le found
            simp_all
            omega
      · contradiction
    · simp_all
  · simp_all

def readLiteral (negative : Bool) (input : Bytes) : Except Fault (Literal × Bytes) := do
  let (whole, rest) ← readWhole input
  let (fraction, rest) ← readFraction rest
  let (exponent, rest) ← readExponent rest
  .ok (⟨negative, whole, fraction, exponent⟩, rest)

theorem readLiteral_length_lt {negative : Bool} {input rest : Bytes} {literal : Literal}
    (read : readLiteral negative input = .ok (literal, rest)) : rest.length < input.length := by
  simp only [readLiteral, bind, Except.bind] at read
  split at read
  · contradiction
  · rename_i whole
    split at read
    · contradiction
    · rename_i fraction
      split at read
      · contradiction
      · rename_i exponent
        have first := readWhole_length_lt whole
        have second := readFraction_length_le fraction
        have third := readExponent_length_le exponent
        simp only [Except.ok.injEq, Prod.mk.injEq] at read
        obtain ⟨-, rfl⟩ := read
        omega

/-- Appends digits to a number while it fits sixty-four bits, and counts them. -/
def gather (number : Nat) : List Nat → Nat × Nat
  | [] => (number, 0)
  | digit :: rest =>
    if number * 10 + digit < 0x10000000000000000 then
      let (total, used) := gather (number * 10 + digit) rest
      (total, used + 1)
    else (number, 0)

/-- The value of a literal, unless it is out of range. Without point and exponent
this is an integer if it fits; zero with a minus does not, as no integer has a
signed zero. Of the digits of any other number those that fit sixty-four bits count,
first in the whole part and then, starting anew, in the fraction. -/
def Literal.value? (literal : Literal) : Option Number :=
  let (whole, used) := gather 0 literal.whole
  let exact := used = literal.whole.length ∧ literal.fraction.isEmpty ∧ literal.exponent.isNone
  let signed : Int := if literal.negative then -whole else whole
  if fits : exact ∧ ¬ (literal.negative ∧ whole = 0) ∧ -0x8000000000000000 ≤ signed ∧
      signed < 0x10000000000000000 then
    some (.integer signed fits.2.2.1 fits.2.2.2)
  else
    let (digits, usedInFraction) := gather whole literal.fraction
    let power : Int := (literal.whole.length - used : Nat) - usedInFraction
    let shift : Int := match literal.exponent with
      | none => 0
      | some (negative, digits) =>
        if negative then -(Decimal.number digits : Int) else Decimal.number digits
    (Binary64.ofDecimal? literal.negative digits (power + shift)).map .real

def readNumber (negative : Bool) (input : Bytes) : Except Fault (Number × Bytes) := do
  let (literal, rest) ← readLiteral negative input
  match literal.value? with
  | some number => .ok (number, rest)
  | none => .error .malformed

theorem readNumber_length_lt {negative : Bool} {input rest : Bytes} {number : Number}
    (read : readNumber negative input = .ok (number, rest)) : rest.length < input.length := by
  simp only [readNumber, bind, Except.bind] at read
  split at read
  · contradiction
  · rename_i found
    split at read
    · simp only [Except.ok.injEq, Prod.mk.injEq] at read
      exact read.2 ▸ readLiteral_length_lt found
    · contradiction

end MetadataClient.Json
