import MetadataClient.Json.Scan

/-! Reading a JSON value. The containers that are still open are kept as a list of
frames, so reading is one pass over the bytes in which every step takes at least
one of them. -/
namespace MetadataClient.Json

def depthLimit : Nat := 127

def readScalar (input : Bytes) : Except Fault (Tree × Bytes) :=
  match input with
  | [] => .error .endOfText
  | byte :: rest =>
    if byte = 0x6e then (readWord [0x75, 0x6c, 0x6c] rest).map (.null, ·)
    else if byte = 0x74 then (readWord [0x72, 0x75, 0x65] rest).map (.bool true, ·)
    else if byte = 0x66 then (readWord [0x61, 0x6c, 0x73, 0x65] rest).map (.bool false, ·)
    else if byte = quoteByte then (readString rest).map fun (text, after) => (.string text, after)
    else if byte = minus then
      (readNumber true rest).map fun (number, after) => (.number number, after)
    else if isDigit byte then
      (readNumber false input).map fun (number, after) => (.number number, after)
    else .error .malformed

theorem readScalar_length_lt {input rest : Bytes} {tree : Tree}
    (read : readScalar input = .ok (tree, rest)) : rest.length < input.length := by
  match input with
  | [] => simp [readScalar] at read
  | byte :: input =>
      simp only [readScalar, Except.map] at read
      repeat' split at read
      all_goals
        first
        | contradiction
        | (rename_i found
           simp only [Except.ok.injEq, Prod.mk.injEq] at read
           obtain ⟨-, rfl⟩ := read
           first
           | exact Nat.lt_succ_of_le (readWord_length_le found)
           | exact Nat.lt_succ_of_lt (readString_length_lt found)
           | exact Nat.lt_succ_of_lt (readNumber_length_lt found)
           | exact readNumber_length_lt found)

def readKey (input : Bytes) : Except Fault (String × Bytes) :=
  match skipBlanks input with
  | [] => .error .endOfText
  | byte :: rest =>
    if byte = quoteByte then
      match readString rest with
      | .error fault => .error fault
      | .ok (name, after) =>
        match skipBlanks after with
        | [] => .error .endOfText
        | mark :: after => if mark = colon then .ok (name, after) else .error .malformed
    else .error .malformed

theorem readKey_length_lt {input rest : Bytes} {name : String}
    (read : readKey input = .ok (name, rest)) : rest.length < input.length := by
  simp only [readKey] at read
  split at read
  · contradiction
  · rename_i opened
    split at read
    · split at read
      · contradiction
      · rename_i named
        split at read
        · contradiction
        · rename_i separated
          split at read
          · simp only [Except.ok.injEq, Prod.mk.injEq] at read
            obtain ⟨-, rfl⟩ := read
            have first := length_lt_of_skipBlanks opened
            have second := readString_length_lt named
            have third := length_lt_of_skipBlanks separated
            omega
          · contradiction
    · contradiction

/-- A container that is still open. What it holds so far comes last first; the value
of the last named member is being read. -/
inductive Frame
  | array (items : List Tree)
  | object (members : List (String × Tree)) (name : String)

set_option linter.unusedVariables false in
mutual

/-- Reads a value inside the open frames, then what closes them. -/
def readValue (frames : List Frame) (input : Bytes) : Except Fault (Tree × Bytes) :=
  match start : skipBlanks input with
  | [] => .error .endOfText
  | byte :: rest =>
    if byte = openArray then
      if depthLimit ≤ frames.length then .error .malformed
      else match inside : skipBlanks rest with
        | [] => .error .endOfText
        | next :: after =>
          if next = closeArray then finishValue (.array []) frames after
          else readValue (.array [] :: frames) rest
    else if byte = openObject then
      if depthLimit ≤ frames.length then .error .malformed
      else match inside : skipBlanks rest with
        | [] => .error .endOfText
        | next :: after =>
          if next = closeObject then finishValue (.object []) frames after
          else match named : readKey rest with
            | .error fault => .error fault
            | .ok (name, after) => readValue (.object [] name :: frames) after
    else match read : readScalar (byte :: rest) with
      | .error fault => .error fault
      | .ok (tree, after) => finishValue tree frames after
termination_by input.length
decreasing_by
  · have := length_lt_of_skipBlanks start; have := length_lt_of_skipBlanks inside; omega
  · exact length_lt_of_skipBlanks start
  · have := length_lt_of_skipBlanks start; have := length_lt_of_skipBlanks inside; omega
  · have := length_lt_of_skipBlanks start; have := readKey_length_lt named; omega
  · have := length_lt_of_skipBlanks start
    have := readScalar_length_lt read
    simp only [List.length_cons] at this
    omega

def finishValue (tree : Tree) (frames : List Frame) (input : Bytes) :
    Except Fault (Tree × Bytes) :=
  match frames with
  | [] => .ok (tree, input)
  | .array items :: outer =>
    match start : skipBlanks input with
    | [] => .error .endOfText
    | byte :: rest =>
      if byte = comma then readValue (.array (tree :: items) :: outer) rest
      else if byte = closeArray then finishValue (.array (tree :: items).reverse) outer rest
      else .error .malformed
  | .object members name :: outer =>
    match start : skipBlanks input with
    | [] => .error .endOfText
    | byte :: rest =>
      if byte = comma then
        match named : readKey rest with
        | .error fault => .error fault
        | .ok (next, after) => readValue (.object ((name, tree) :: members) next :: outer) after
      else if byte = closeObject then
        finishValue (.object ((name, tree) :: members).reverse) outer rest
      else .error .malformed
termination_by input.length
decreasing_by
  · exact length_lt_of_skipBlanks start
  · exact length_lt_of_skipBlanks start
  · have := length_lt_of_skipBlanks start; have := readKey_length_lt named; omega
  · exact length_lt_of_skipBlanks start

end

def expectEnd (input : Bytes) : Except Fault Unit :=
  match skipBlanks input with
  | [] => .ok ()
  | _ :: _ => .error .malformed

/-- The fault of a value of the wrong kind. A scalar is read to its end first, a
container is refused at its first byte. -/
def unwanted (input : Bytes) : Fault :=
  match skipBlanks input with
  | [] => .endOfText
  | byte :: rest =>
    if byte = openArray ∨ byte = openObject then .mismatch
    else match readScalar (byte :: rest) with
      | .error fault => fault
      | .ok _ => .mismatch

def parse (input : Bytes) : Except Fault Tree := do
  let (tree, rest) ← readValue [] input
  expectEnd rest
  return tree

def Value.parse (input : Bytes) : Except Fault Value :=
  (Json.parse input).map Value.ofTree

/-- A whole text that holds one object; its members are given as they stand. -/
def parseObject (input : Bytes) : Except Fault (List (String × Tree)) := do
  match skipBlanks input with
  | [] => .error .endOfText
  | byte :: _ =>
    if byte ≠ openObject then .error (unwanted input)
    else match ← Json.parse input with
      | .object members => return members
      | _ => .error .mismatch

end MetadataClient.Json
