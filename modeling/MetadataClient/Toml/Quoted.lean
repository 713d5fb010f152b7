import MetadataClient.Text.Hexadecimal
import MetadataClient.Toml.Blank

/-! Quoted text. Between double quotes a backslash starts an escape; between single
quotes every character stands for itself. Quotes of either kind may be tripled, and
then the text may go over several lines. -/
namespace MetadataClient.Toml.Quoted

def isBasicChar (char : Char) : Bool :=
  !isControl char && char ≠ '"' && char ≠ '\\'

def isLiteralChar (char : Char) : Bool :=
  !isControl char && char ≠ '\''

def letterMeaning? (letter : Char) : Option Char :=
  match letter with
  | 'b' => some '\x08'
  | 't' => some '\t'
  | 'n' => some '\n'
  | 'f' => some '\x0c'
  | 'r' => some '\r'
  | '"' => some '"'
  | '\\' => some '\\'
  | _ => none

def readCode (count : Nat) (input : List Char) : Option (Char × List Char) :=
  if count ≤ input.length then do
    let digits ← (input.take count).mapM Text.hexValue?
    let code := Text.hexNumber digits
    if code.isValidChar then some (Char.ofNat code, input.drop count) else none
  else none

def readEscape (input : List Char) : Option (Char × List Char) :=
  match input with
  | 'u' :: rest => readCode 4 rest
  | 'U' :: rest => readCode 8 rest
  | letter :: rest => (letterMeaning? letter).map (·, rest)
  | [] => none

theorem readCode_length_le {count : Nat} {input rest : List Char} {char : Char}
    (read : readCode count input = some (char, rest)) : rest.length ≤ input.length := by
  unfold readCode at read
  split at read
  · obtain ⟨digits, -, read⟩ := Option.bind_eq_some_iff.mp read
    simp only at read
    split at read
    · simp only [Option.some.injEq, Prod.mk.injEq] at read
      obtain ⟨-, rfl⟩ := read
      simp
    · contradiction
  · contradiction

theorem readEscape_length_lt {input rest : List Char} {char : Char}
    (read : readEscape input = some (char, rest)) : rest.length < input.length := by
  unfold readEscape at read
  split at read
  · exact Nat.lt_succ_of_le (readCode_length_le read)
  · exact Nat.lt_succ_of_le (readCode_length_le read)
  · obtain ⟨_, -, same⟩ := Option.map_eq_some_iff.mp read
    simp only [Prod.mk.injEq] at same
    obtain ⟨-, rfl⟩ := same
    simp
  · contradiction

def cons (char : Char) : Option (List Char × List Char) → Option (List Char × List Char) :=
  Option.map fun (text, rest) => (char :: text, rest)

set_option linter.unusedVariables false in
def readBasic (input : List Char) : Option (List Char × List Char) :=
  match input with
  | [] => none
  | '"' :: rest => some ([], rest)
  | '\\' :: rest =>
    match read : readEscape rest with
    | some (char, after) => cons char (readBasic after)
    | none => none
  | char :: rest => if isBasicChar char then cons char (readBasic rest) else none
termination_by input.length
decreasing_by
  · exact Nat.lt_succ_of_lt (readEscape_length_lt read)
  · exact Nat.lt_succ_self _

def readLiteral : List Char → Option (List Char × List Char)
  | [] => none
  | char :: rest =>
    if char = '\'' then some ([], rest)
    else if isLiteralChar char then cons char (readLiteral rest)
    else none

/-- Three quotes end a text. Up to two more in front of them belong to it. -/
def closing (quote : Char) (input : List Char) : List Char × List Char :=
  match input with
  | first :: second :: rest =>
    if first ≠ quote then ([], input)
    else if second ≠ quote then ([quote], second :: rest)
    else ([quote, quote], rest)
  | [only] => if only = quote then ([quote], []) else ([], input)
  | [] => ([], [])

set_option linter.unusedVariables false in
/-- Text up to three double quotes. A backslash at the end of a line joins it to the
next one that is not blank. -/
def readLongBasic (input : List Char) : Option (List Char × List Char) :=
  match input with
  | [] => none
  | '"' :: '"' :: '"' :: rest => some (closing '"' rest)
  | '"' :: rest => cons '"' (readLongBasic rest)
  | '\\' :: rest =>
    match ended : lineEnd? (skipBlanks rest) with
    | some after => readLongBasic (skipBlankLines after)
    | none =>
      match read : readEscape rest with
      | some (char, after) => cons char (readLongBasic after)
      | none => none
  | char :: rest =>
    if isBasicChar char then cons char (readLongBasic rest)
    else match ended : lineEnd? (char :: rest) with
      | some after => cons '\n' (readLongBasic after)
      | none => none
termination_by input.length
decreasing_by
  · exact Nat.lt_succ_self _
  · have shorter := lineEnd?_length_lt ended
    have start := length_dropWhile_le isBlank rest
    rw [← skipBlanks] at start
    have blank := skipBlankLines_length_le after
    simp only [List.length_cons]
    omega
  · exact Nat.lt_succ_of_lt (readEscape_length_lt read)
  · exact Nat.lt_succ_self _
  · exact lineEnd?_length_lt ended

set_option linter.unusedVariables false in
def readLongLiteral (input : List Char) : Option (List Char × List Char) :=
  match input with
  | [] => none
  | '\'' :: '\'' :: '\'' :: rest => some (closing '\'' rest)
  | '\'' :: rest => cons '\'' (readLongLiteral rest)
  | char :: rest =>
    if isLiteralChar char then cons char (readLongLiteral rest)
    else match ended : lineEnd? (char :: rest) with
      | some after => cons '\n' (readLongLiteral after)
      | none => none
termination_by input.length
decreasing_by
  · exact Nat.lt_succ_self _
  · exact Nat.lt_succ_self _
  · exact lineEnd?_length_lt ended

/-- A line end right behind the opening quotes is not part of the text. -/
def skipLineEnd (input : List Char) : List Char :=
  (lineEnd? input).getD input

def read (input : List Char) : Option (List Char × List Char) :=
  match input with
  | '"' :: '"' :: '"' :: rest => readLongBasic (skipLineEnd rest)
  | '"' :: rest => readBasic rest
  | '\'' :: '\'' :: '\'' :: rest => readLongLiteral (skipLineEnd rest)
  | '\'' :: rest => readLiteral rest
  | _ => none

def printChar (char : Char) : List Char :=
  match char with
  | '\x08' => ['\\', 'b']
  | '\t' => ['\\', 't']
  | '\n' => ['\\', 'n']
  | '\x0c' => ['\\', 'f']
  | '\r' => ['\\', 'r']
  | '"' => ['\\', '"']
  | '\\' => ['\\', '\\']
  | char =>
    if isControl char then
      ['\\', 'u'] ++ (Text.hexDigits 4 char.toNat).map fun digit => (Text.hexDigit digit).toUpper
    else [char]

/-- Text as it is written between three double quotes. Of three quotes in a row the
last is escaped. -/
def printLong (quotes : Nat) : List Char → List Char
  | [] => []
  | char :: rest =>
    if char = '"' then
      if quotes < 2 then '"' :: printLong (quotes + 1) rest
      else '\\' :: '"' :: printLong 0 rest
    else if char = '\n' then '\n' :: printLong 0 rest
    else printChar char ++ printLong 0 rest

/-- The length of the longest row of a character. The current row is given. -/
def longestRow (char : Char) (row : Nat) : List Char → Nat
  | [] => row
  | first :: rest =>
    if first = char then longestRow char (row + 1) rest
    else max row (longestRow char 0 rest)

/-- Text between quotes. The form is the plainest that needs no escape: double quotes,
single quotes, and then the tripled ones. -/
def print (text : List Char) : List Char :=
  let special := text.any fun char => isControl char && char ≠ '\n'
  let backslash := text.contains '\\'
  let lines := text.contains '\n'
  let doubles := longestRow '"' 0 text
  let singles := longestRow '\'' 0 text
  let opening := if lines then ['\n'] else []
  let basic := '"' :: (text.flatMap printChar ++ ['"'])
  let long := ['"', '"', '"'] ++ opening ++ printLong 0 text ++ ['"', '"', '"']
  if !special && !backslash && doubles = 0 && !lines then basic
  else if !special && singles = 0 && !lines then '\'' :: (text ++ ['\''])
  else if !special && !backslash && doubles ≤ 2 then long
  else if !special && singles ≤ 2 then
    ['\'', '\'', '\''] ++ opening ++ text ++ ['\'', '\'', '\'']
  else if lines then long
  else basic

end MetadataClient.Toml.Quoted
