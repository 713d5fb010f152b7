import MetadataClient.Json.Skip

/-! A choice among names in JSON: the name as a string, or an object whose only
member has that name and is null. -/
namespace MetadataClient.Json

variable {α : Type}

def printName (name : String) : Bytes :=
  printString name

/-- Reads a string and looks it up; an unknown name is met at its closing quote. -/
def readKnown (known : String → Option α) (input : Bytes) : Except Fault (α × Bytes) :=
  match readString input with
  | .error fault => .error fault
  | .ok (name, rest) =>
    match known name with
    | some value => .ok (value, rest)
    | none => .error .mismatch

theorem readKnown_length_lt {known : String → Option α} {input rest : Bytes} {value : α}
    (read : readKnown known input = .ok (value, rest)) : rest.length < input.length := by
  simp only [readKnown] at read
  split at read
  · contradiction
  · rename_i named
    split at read
    · simp only [Except.ok.injEq, Prod.mk.injEq] at read
      exact read.2 ▸ readString_length_lt named
    · contradiction

def readMark (mark : UInt8) (input : Bytes) : Except Fault Bytes :=
  match skipBlanks input with
  | [] => .error .endOfText
  | byte :: rest => if byte = mark then .ok rest else .error .malformed

theorem readMark_length_lt {mark : UInt8} {input rest : Bytes}
    (read : readMark mark input = .ok rest) : rest.length < input.length := by
  simp only [readMark] at read
  split at read
  · contradiction
  · rename_i found
    split at read
    · simp only [Except.ok.injEq] at read
      exact read ▸ length_lt_of_skipBlanks found
    · contradiction

def readNull (input : Bytes) : Except Fault Bytes :=
  match skipBlanks input with
  | [] => .error .endOfText
  | byte :: rest =>
    if byte = 0x6e then readWord [0x75, 0x6c, 0x6c] rest else .error (unwanted (byte :: rest))

theorem readNull_length_lt {input rest : Bytes} (read : readNull input = .ok rest) :
    rest.length < input.length := by
  simp only [readNull] at read
  split at read
  · contradiction
  · rename_i found
    split at read
    · have := length_lt_of_skipBlanks found
      have := readWord_length_le read
      omega
    · contradiction

def readChoice (known : String → Option α) (input : Bytes) : Except Fault (α × Bytes) :=
  match skipBlanks input with
  | [] => .error .endOfText
  | byte :: rest =>
    if byte = quoteByte then readKnown known rest
    else if byte = openObject then
      match skipBlanks rest with
      | [] => .error .endOfText
      | next :: after =>
        if next ≠ quoteByte then .error (unwanted (next :: after))
        else do
          let (value, rest) ← readKnown known after
          let rest ← readMark colon rest
          let rest ← readNull rest
          let rest ← readMark closeObject rest
          return (value, rest)
    else .error .malformed

theorem readChoice_length_lt {known : String → Option α} {input rest : Bytes} {value : α}
    (read : readChoice known input = .ok (value, rest)) : rest.length < input.length := by
  simp only [readChoice] at read
  split at read
  · contradiction
  · rename_i start
    have outside := length_lt_of_skipBlanks start
    split at read
    · have := readKnown_length_lt read
      omega
    · split at read
      · split at read
        · contradiction
        · rename_i inside
          have inside := length_lt_of_skipBlanks inside
          split at read
          · contradiction
          · simp only [bind, Except.bind, pure, Except.pure] at read
            repeat' split at read
            all_goals try contradiction
            rename_i named _ _ separated _ _ empty _ _ closed
            simp only [Except.ok.injEq, Prod.mk.injEq] at read
            obtain ⟨-, rfl⟩ := read
            have first := readKnown_length_lt named
            have second := readMark_length_lt separated
            have third := readNull_length_lt empty
            have fourth := readMark_length_lt closed
            omega
      · contradiction

def parseChoice (known : String → Option α) (input : Bytes) : Except Fault α := do
  let (value, rest) ← readChoice known input
  expectEnd rest
  return value

def parseBelow (bound : Nat) (input : Bytes) : Except Fault Nat := do
  match skipBlanks input with
  | [] => .error .endOfText
  | byte :: rest =>
    if byte = openArray ∨ byte = openObject then .error .mismatch
    else
      let (tree, rest) ← readScalar (byte :: rest)
      match tree with
      | .number (.integer value _ _) =>
        if 0 ≤ value ∧ value < bound then
          expectEnd rest
          return value.toNat
        else .error .mismatch
      | _ => .error .mismatch

end MetadataClient.Json
