import MetadataClient.Json.Reader

/-! Passing over a JSON value that is not wanted. Only its shape is looked at:
containers nest without limit, numbers may have any size, and the characters that
escapes stand for are not checked. -/
namespace MetadataClient.Json

def skipEscape : Bytes → Except Fault Nat
  | [] => .error .endOfText
  | letter :: rest =>
    if letter = 0x75 then (readUnit rest).map fun _ => 5
    else if (letterMeaning? letter).isSome then .ok 1
    else .error .malformed

def skipString (input : Bytes) : Except Fault Bytes :=
  match input with
  | [] => .error .endOfText
  | byte :: rest =>
    if byte = quoteByte then .ok rest
    else if byte = backslash then
      match skipEscape rest with
      | .error fault => .error fault
      | .ok taken => skipString (rest.drop taken)
    else if byte < 0x20 then .error .malformed
    else skipString rest
termination_by input.length

theorem skipString_length_lt {input rest : Bytes} (skipped : skipString input = .ok rest) :
    rest.length < input.length := by
  fun_induction skipString input with
  | case1 => contradiction
  | case2 => simp_all
  | case3 => contradiction
  | case4 rest _ taken _ ih =>
      have := ih skipped
      simp only [List.length_drop] at this
      simp only [List.length_cons]
      omega
  | case5 => contradiction
  | case6 byte rest _ _ _ ih =>
      have := ih skipped
      simp only [List.length_cons]
      omega

/-- A number that stops short is malformed even at the end of the text. -/
def skipNumber (negative : Bool) (input : Bytes) : Except Fault Bytes :=
  match readLiteral negative input with
  | .ok (_, rest) => .ok rest
  | .error _ => .error .malformed

theorem skipNumber_length_lt {negative : Bool} {input rest : Bytes}
    (skipped : skipNumber negative input = .ok rest) : rest.length < input.length := by
  simp only [skipNumber] at skipped
  split at skipped
  · rename_i read
    simp only [Except.ok.injEq] at skipped
    exact skipped ▸ readLiteral_length_lt read
  · contradiction

def skipScalar (input : Bytes) : Except Fault Bytes :=
  match input with
  | [] => .error .endOfText
  | byte :: rest =>
    if byte = 0x6e then readWord [0x75, 0x6c, 0x6c] rest
    else if byte = 0x74 then readWord [0x72, 0x75, 0x65] rest
    else if byte = 0x66 then readWord [0x61, 0x6c, 0x73, 0x65] rest
    else if byte = quoteByte then skipString rest
    else if byte = minus then skipNumber true rest
    else if isDigit byte then skipNumber false input
    else .error .malformed

theorem skipScalar_length_lt {input rest : Bytes} (skipped : skipScalar input = .ok rest) :
    rest.length < input.length := by
  match input with
  | [] => simp [skipScalar] at skipped
  | byte :: input =>
      simp only [skipScalar] at skipped
      repeat' split at skipped
      · exact Nat.lt_succ_of_le (readWord_length_le skipped)
      · exact Nat.lt_succ_of_le (readWord_length_le skipped)
      · exact Nat.lt_succ_of_le (readWord_length_le skipped)
      · exact Nat.lt_succ_of_lt (skipString_length_lt skipped)
      · exact Nat.lt_succ_of_lt (skipNumber_length_lt skipped)
      · exact skipNumber_length_lt skipped
      · contradiction

def skipKey (input : Bytes) : Except Fault Bytes :=
  match skipBlanks input with
  | [] => .error .endOfText
  | byte :: rest =>
    if byte = quoteByte then
      match skipString rest with
      | .error fault => .error fault
      | .ok after =>
        match skipBlanks after with
        | [] => .error .endOfText
        | mark :: after => if mark = colon then .ok after else .error .malformed
    else .error .malformed

theorem skipKey_length_lt {input rest : Bytes} (skipped : skipKey input = .ok rest) :
    rest.length < input.length := by
  simp only [skipKey] at skipped
  split at skipped
  · contradiction
  · rename_i opened
    split at skipped
    · split at skipped
      · contradiction
      · rename_i named
        split at skipped
        · contradiction
        · rename_i separated
          split at skipped
          · simp only [Except.ok.injEq] at skipped
            subst skipped
            have first := length_lt_of_skipBlanks opened
            have second := skipString_length_lt named
            have third := length_lt_of_skipBlanks separated
            omega
          · contradiction
    · contradiction

inductive Enclosure
  | array
  | object

set_option linter.unusedVariables false in
mutual

/-- The bytes behind a value inside the open containers, and behind those. -/
def skipValue (enclosures : List Enclosure) (input : Bytes) : Except Fault Bytes :=
  match start : skipBlanks input with
  | [] => .error .endOfText
  | byte :: rest =>
    if byte = openArray then
      match inside : skipBlanks rest with
      | [] => .error .endOfText
      | next :: after =>
        if next = closeArray then skipRest enclosures after
        else skipValue (.array :: enclosures) rest
    else if byte = openObject then
      match inside : skipBlanks rest with
      | [] => .error .endOfText
      | next :: after =>
        if next = closeObject then skipRest enclosures after
        else match named : skipKey rest with
          | .error fault => .error fault
          | .ok after => skipValue (.object :: enclosures) after
    else match skipped : skipScalar (byte :: rest) with
      | .error fault => .error fault
      | .ok after => skipRest enclosures after
termination_by input.length
decreasing_by
  · have := length_lt_of_skipBlanks start; have := length_lt_of_skipBlanks inside; omega
  · exact length_lt_of_skipBlanks start
  · have := length_lt_of_skipBlanks start; have := length_lt_of_skipBlanks inside; omega
  · have := length_lt_of_skipBlanks start; have := skipKey_length_lt named; omega
  · have := length_lt_of_skipBlanks start
    have := skipScalar_length_lt skipped
    simp only [List.length_cons] at this
    omega

def skipRest (enclosures : List Enclosure) (input : Bytes) : Except Fault Bytes :=
  match enclosures with
  | [] => .ok input
  | .array :: outer =>
    match start : skipBlanks input with
    | [] => .error .endOfText
    | byte :: rest =>
      if byte = comma then skipValue (.array :: outer) rest
      else if byte = closeArray then skipRest outer rest
      else .error .malformed
  | .object :: outer =>
    match start : skipBlanks input with
    | [] => .error .endOfText
    | byte :: rest =>
      if byte = comma then
        match named : skipKey rest with
        | .error fault => .error fault
        | .ok after => skipValue (.object :: outer) after
      else if byte = closeObject then skipRest outer rest
      else .error .malformed
termination_by input.length
decreasing_by
  · exact length_lt_of_skipBlanks start
  · exact length_lt_of_skipBlanks start
  · have := length_lt_of_skipBlanks start; have := skipKey_length_lt named; omega
  · exact length_lt_of_skipBlanks start

end

mutual

theorem skipValue_length_lt {enclosures : List Enclosure} {input rest : Bytes}
    (skipped : skipValue enclosures input = .ok rest) : rest.length < input.length := by
  rw [skipValue] at skipped
  split at skipped
  · contradiction
  · rename_i byte inner start
    have outside := length_lt_of_skipBlanks start
    split at skipped
    · split at skipped
      · contradiction
      · rename_i next after inside
        have inside := length_lt_of_skipBlanks inside
        split at skipped
        · have := skipRest_length_le skipped; omega
        · have := skipValue_length_lt skipped; omega
    · split at skipped
      · split at skipped
        · contradiction
        · rename_i next after inside
          have inside := length_lt_of_skipBlanks inside
          split at skipped
          · have := skipRest_length_le skipped; omega
          · split at skipped
            · contradiction
            · rename_i named
              have named := skipKey_length_lt named
              have := skipValue_length_lt skipped; omega
      · split at skipped
        · contradiction
        · rename_i scalar
          have scalar := skipScalar_length_lt scalar
          simp only [List.length_cons] at scalar
          have := skipRest_length_le skipped; omega
termination_by input.length
decreasing_by all_goals (simp only [List.length_cons] at *; omega)

theorem skipRest_length_le {enclosures : List Enclosure} {input rest : Bytes}
    (skipped : skipRest enclosures input = .ok rest) : rest.length ≤ input.length := by
  rw [skipRest.eq_def] at skipped
  split at skipped
  · simp only [Except.ok.injEq] at skipped; simp [skipped]
  · split at skipped
    · contradiction
    · rename_i start
      have outside := length_lt_of_skipBlanks start
      split at skipped
      · have := skipValue_length_lt skipped; omega
      · split at skipped
        · have := skipRest_length_le skipped; omega
        · contradiction
  · split at skipped
    · contradiction
    · rename_i start
      have outside := length_lt_of_skipBlanks start
      split at skipped
      · split at skipped
        · contradiction
        · rename_i named
          have named := skipKey_length_lt named
          have := skipValue_length_lt skipped; omega
      · split at skipped
        · have := skipRest_length_le skipped; omega
        · contradiction
termination_by input.length
decreasing_by all_goals omega

end
end MetadataClient.Json
