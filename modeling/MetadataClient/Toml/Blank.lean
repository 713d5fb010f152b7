/-! What stands between the parts of a TOML text: blanks, line ends and comments. -/
namespace MetadataClient.Toml

def isBlank (char : Char) : Bool :=
  char = ' ' || char = '\t'

def skipBlanks (input : List Char) : List Char :=
  input.dropWhile isBlank

def lineEnd? (input : List Char) : Option (List Char) :=
  match input with
  | '\n' :: rest => some rest
  | '\r' :: '\n' :: rest => some rest
  | _ => none

/-- A control other than a tab, or the delete character. -/
def isControl (char : Char) : Bool :=
  (char < ' ' && char ≠ '\t') || char = '\x7f'

def isCommentChar (char : Char) : Bool :=
  !isControl char

def skipComment (input : List Char) : List Char :=
  match input with
  | '#' :: rest => rest.dropWhile isCommentChar
  | _ => input

/-- What follows the end of a line on which nothing may come but a comment. The end of
the text ends its last line. -/
def endLine? (input : List Char) : Option (List Char) :=
  match skipComment (skipBlanks input) with
  | [] => some []
  | rest => lineEnd? rest

theorem length_dropWhile_le (test : Char → Bool) (input : List Char) :
    (input.dropWhile test).length ≤ input.length :=
  (List.dropWhile_sublist test).length_le

theorem lineEnd?_length_lt {input rest : List Char} (ended : lineEnd? input = some rest) :
    rest.length < input.length := by
  unfold lineEnd? at ended
  split at ended
  · obtain rfl := Option.some.inj ended
    exact Nat.lt_succ_self _
  · obtain rfl := Option.some.inj ended
    simp only [List.length_cons]
    omega
  · contradiction

set_option linter.unusedVariables false in
/-- Leaves out blanks, line ends, and comments that end with their line. -/
def skipLines (input : List Char) : List Char :=
  match found : skipBlanks input with
  | '#' :: rest =>
    match ended : lineEnd? (rest.dropWhile isCommentChar) with
    | some after => skipLines after
    | none => '#' :: rest
  | rest =>
    match ended : lineEnd? rest with
    | some after => skipLines after
    | none => rest
termination_by input.length
decreasing_by
  · have shorter := lineEnd?_length_lt ended
    have here := length_dropWhile_le isCommentChar rest
    have start := length_dropWhile_le isBlank input
    rw [← skipBlanks, found, List.length_cons] at start
    omega
  · have shorter := lineEnd?_length_lt ended
    have start := length_dropWhile_le isBlank input
    rw [← skipBlanks, found] at start
    omega

set_option linter.unusedVariables false in
def skipBlankLines (input : List Char) : List Char :=
  match ended : lineEnd? (skipBlanks input) with
  | some after => skipBlankLines after
  | none => skipBlanks input
termination_by input.length
decreasing_by
  have shorter := lineEnd?_length_lt ended
  have start := length_dropWhile_le isBlank input
  rw [← skipBlanks] at start
  omega

theorem skipBlankLines_length_le (input : List Char) :
    (skipBlankLines input).length ≤ input.length := by
  fun_induction skipBlankLines input with
  | case1 input after ended ih =>
      have shorter := lineEnd?_length_lt ended
      have start := length_dropWhile_le isBlank input
      rw [← skipBlanks] at start
      omega
  | case2 input => exact length_dropWhile_le isBlank input

end MetadataClient.Toml
