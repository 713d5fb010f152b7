import MetadataClient.Decimal.Binary64
import MetadataClient.Text.Hexadecimal

/-! Numbers, truth values, dates and times in TOML. They are read to be passed over, so
a reader gives only the text behind them, and nothing if there is no valid one. -/
namespace MetadataClient.Toml.Scalar

abbrev Digit := Char → Option Nat

def digit (base : Nat) : Digit := fun char =>
  (Text.hexValue? char).filter (· < base)

/-- More digits of a number. An underscore may stand between two digits. -/
def readMore (digit : Digit) : List Char → Option (List Nat × List Char)
  | [] => some ([], [])
  | ['_'] => none
  | '_' :: char :: rest => do
    let value ← digit char
    let (more, rest) ← readMore digit rest
    return (value :: more, rest)
  | char :: rest =>
    match digit char with
    | none => some ([], char :: rest)
    | some value => (readMore digit rest).map fun (more, rest) => (value :: more, rest)

def readDigits (digit : Digit) (input : List Char) : Option (List Nat × List Char) :=
  match input with
  | [] => none
  | char :: rest => do
    let value ← digit char
    let (more, rest) ← readMore digit rest
    return (value :: more, rest)

/-- A sign, which is there if it is a minus. -/
def readSign (input : List Char) : Bool × List Char :=
  match input with
  | '-' :: rest => (true, rest)
  | '+' :: rest => (false, rest)
  | _ => (false, input)

def readWhole (input : List Char) : Option (List Nat × List Char) :=
  match input with
  | '0' :: rest => some ([0], rest)
  | _ => readDigits (digit 10) input

/-- An integer of a base other than ten must fit sixty-four bits with a sign. -/
def readBased (base : Nat) (input : List Char) : Option (List Char) := do
  let (digits, rest) ← readDigits (digit base) input
  if digits.foldl (· * base + ·) 0 < 0x8000000000000000 then some rest else none

def readInteger (input : List Char) : Option (List Char) :=
  match input with
  | '0' :: 'x' :: rest => readBased 16 rest
  | '0' :: 'o' :: rest => readBased 8 rest
  | '0' :: 'b' :: rest => readBased 2 rest
  | _ => do
    let (negative, rest) := readSign input
    let (digits, rest) ← readWhole rest
    let number := digits.foldl (· * 10 + ·) 0
    if number < 0x8000000000000000 ∨ negative ∧ number = 0x8000000000000000 then some rest else none

def readFraction (input : List Char) : Option (List Nat × List Char) :=
  match input with
  | '.' :: rest => readDigits (digit 10) rest
  | _ => some ([], input)

def readExponent (input : List Char) : Option (Option Int × List Char) :=
  match input with
  | mark :: rest =>
    if mark = 'e' ∨ mark = 'E' then do
      let (negative, rest) := readSign rest
      let (digits, rest) ← readDigits (digit 10) rest
      let power : Int := (digits.foldl (· * 10 + ·) 0 : Nat)
      return (some (if negative then -power else power), rest)
    else some (none, input)
  | [] => some (none, input)

def readWord (word : String) (input : List Char) : Option (List Char) :=
  if word.toList.isPrefixOf input then some (input.drop word.length) else none

/-- A number with a fraction or an exponent. One that is too large is refused if it is
positive. -/
def readDecimal (input : List Char) : Option (List Char) := do
  let (negative, rest) := readSign input
  let (whole, rest) ← readWhole rest
  let (fraction, rest) ← readFraction rest
  let (power, rest) ← readExponent rest
  if fraction.isEmpty ∧ power.isNone then none
  else if !negative && Binary64.overflows (whole ++ fraction)
      (power.getD 0 - fraction.length) then none
  else some rest

def readFloat (input : List Char) : Option (List Char) :=
  readDecimal input <|>
    let (_, rest) := readSign input
    readWord "inf" rest <|> readWord "nan" rest

def readFixed (count least most : Nat) (input : List Char) : Option (Nat × List Char) := do
  let digits ← (input.take count).mapM (digit 10)
  let number := digits.foldl (· * 10 + ·) 0
  if digits.length = count ∧ least ≤ number ∧ number ≤ most then some (number, input.drop count)
  else none

def readMark (mark : Char) (input : List Char) : Option (List Char) :=
  match input with
  | char :: rest => if char = mark then some rest else none
  | [] => none

def isLeapYear (year : Nat) : Bool :=
  year % 4 == 0 && (year % 100 != 0 || year % 400 == 0)

def daysOfMonth (year month : Nat) : Nat :=
  if month = 2 then if isLeapYear year then 29 else 28
  else if month = 4 ∨ month = 6 ∨ month = 9 ∨ month = 11 then 30
  else 31

def readDate (input : List Char) : Option (List Char) := do
  let (year, rest) ← readFixed 4 0 9999 input
  let rest ← readMark '-' rest
  let (month, rest) ← readFixed 2 1 12 rest
  let rest ← readMark '-' rest
  let (_, rest) ← readFixed 2 1 (daysOfMonth year month) rest
  return rest

/-- A time of day, to the second or finer. A minute may have a leap second. -/
def readTime (input : List Char) : Option (List Char) := do
  let (_, rest) ← readFixed 2 0 23 input
  let rest ← readMark ':' rest
  let (_, rest) ← readFixed 2 0 59 rest
  let rest ← readMark ':' rest
  let (_, rest) ← readFixed 2 0 60 rest
  match rest with
  | '.' :: after =>
    let rest := after.dropWhile fun char => (digit 10 char).isSome
    if rest.length < after.length then some rest else some ('.' :: after)
  | _ => some rest

def readOffset (input : List Char) : Option (List Char) :=
  match input with
  | mark :: rest =>
    if mark = 'Z' ∨ mark = 'z' then some rest
    else if mark = '+' ∨ mark = '-' then do
      let (_, rest) ← readFixed 2 0 23 rest
      let rest ← readMark ':' rest
      let (_, rest) ← readFixed 2 0 59 rest
      return rest
    else some input
  | [] => some input

/-- A date, a time, or both. A date stands alone unless a time follows it. -/
def readMoment (input : List Char) : Option (List Char) :=
  match readDate input with
  | none => readTime input
  | some rest =>
    match rest with
    | mark :: after =>
      if mark = 'T' ∨ mark = 't' ∨ mark = ' ' then
        match readTime after with
        | some after => readOffset after
        | none => some rest
      else some rest
    | [] => some rest

def read (input : List Char) : Option (List Char) :=
  match input with
  | 't' :: _ => readWord "true" input
  | 'f' :: _ => readWord "false" input
  | _ => readMoment input <|> readFloat input <|> readInteger input

end MetadataClient.Toml.Scalar
