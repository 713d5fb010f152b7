import MetadataClient.Text.Repeated
import MetadataClient.Toml.Quoted
import MetadataClient.Toml.Scalar
import MetadataClient.Toml.Table

/-! Reading a TOML text, line by line. A line names a table, or sets a name to a value
in the table named last. -/
namespace MetadataClient.Toml

/-- How many arrays and inline tables may be open at once, and how many names a key
may have. -/
def nestingLimit : Nat := 79

def isNameChar (char : Char) : Bool :=
  char.isAlphanum || char = '-' || char = '_'

def readName (input : List Char) : Option (String × List Char) :=
  match input with
  | '"' :: rest => (Quoted.readBasic rest).map fun (text, rest) => (String.ofList text, rest)
  | '\'' :: rest => (Quoted.readLiteral rest).map fun (text, rest) => (String.ofList text, rest)
  | _ =>
    let name := input.takeWhile isNameChar
    if name.isEmpty then none else some (String.ofList name, input.dropWhile isNameChar)

def readPart (input : List Char) : Option (String × List Char) :=
  (readName (skipBlanks input)).map fun (name, rest) => (name, skipBlanks rest)

def readKey (input : List Char) : Option (Key × List Char) :=
  let (names, rest) := Text.separated '.' readPart input
  if nestingLimit < names.length then none
  else names.getLast?.map fun name => (⟨names.dropLast, name⟩, rest)

def readPair (readValue : List Char → Option (Value × List Char)) (input : List Char) :
    Option ((Key × Value) × List Char) := do
  let (key, rest) ← readKey input
  let rest ← Scalar.readMark '=' rest
  let (value, rest) ← readValue (skipBlanks rest)
  return ((key, value), rest)

/-- The rest of an array. It may go over several lines and end with a comma. -/
def readItems (readValue : List Char → Option (Value × List Char)) (input : List Char) :
    Option (Value × List Char) := do
  let (items, rest) := Text.separated ',' (fun input =>
    (readValue (skipLines input)).map fun (value, rest) => (value, skipLines rest)) input
  let rest := if items.isEmpty then rest else (Scalar.readMark ',' rest).getD rest
  let rest ← Scalar.readMark ']' (skipLines rest)
  return (.array items, rest)

def readInline (readValue : List Char → Option (Value × List Char)) (input : List Char) :
    Option (Value × List Char) := do
  let (pairs, rest) := Text.separated ',' (fun input =>
    (readPair readValue input).map fun (pair, rest) => (pair, skipBlanks rest)) input
  let rest ← Scalar.readMark '\x7d' (skipBlanks rest)
  let members ← pairs.foldlM (fun members (key, value) =>
    Members.assign value key.name key.path members) []
  return (.table (Members.values members), rest)

def readValue (levels : Nat) (input : List Char) : Option (Value × List Char) :=
  match input with
  | [] => none
  | first :: rest =>
    if first = '"' ∨ first = '\'' then
      (Quoted.read input).map fun (text, rest) => (.string (String.ofList text), rest)
    else if first = '[' then
      match levels with
      | 0 => none
      | levels + 1 => readItems (readValue levels) rest
    else if first = '\x7b' then
      match levels with
      | 0 => none
      | levels + 1 => readInline (readValue levels) rest
    else (Scalar.read input).map (.scalar, ·)

inductive Line
  | blank
  | table (key : Key)
  | element (key : Key)
  | pair (key : Key) (value : Value)

def readHeader (closing : List Char) (input : List Char) : Option (Key × List Char) := do
  let (key, rest) ← readKey input
  let rest ← closing.foldlM (fun rest mark => Scalar.readMark mark rest) rest
  return (key, ← endLine? rest)

def readContent (input : List Char) : Option (Line × List Char) :=
  match input with
  | '#' :: _ => (endLine? input).map (Line.blank, ·)
  | '[' :: '[' :: rest =>
    (readHeader [']', ']'] rest).map fun (key, rest) => (Line.element key, rest)
  | '[' :: rest => (readHeader [']'] rest).map fun (key, rest) => (Line.table key, rest)
  | _ =>
    match lineEnd? input with
    | some rest => some (Line.blank, rest)
    | none => do
      let ((key, value), rest) ← readPair (readValue nestingLimit) input
      return (Line.pair key value, ← endLine? rest)

def readLine (input : List Char) : Option (Line × List Char) :=
  (readContent input).map fun (line, rest) => (line, skipBlanks rest)

structure Draft where
  members : Members
  current : List String

namespace Draft

def empty : Draft :=
  ⟨[], []⟩

def add (draft : Draft) : Line → Option Draft
  | .blank => some draft
  | .table key =>
    (Members.changeAt (Members.openTable key.name) key.path draft.members).map fun members =>
      ⟨members, key.path ++ [key.name]⟩
  | .element key =>
    (Members.changeAt (Members.openElement key.name) key.path draft.members).map fun members =>
      ⟨members, key.path ++ [key.name]⟩
  | .pair key value =>
    (Members.changeAt (Members.assign value key.name key.path) draft.current
      draft.members).map fun members => { draft with members }

end Draft

/-- The values that a text sets. A byte order mark at its start is passed over. -/
def parse (text : String) : Option (List (String × Value)) := do
  let input := match text.toList with
    | '\uFEFF' :: rest => rest
    | input => input
  let (lines, rest) := Text.repeated readLine (skipBlanks input)
  if rest.isEmpty then
    let draft ← lines.foldlM Draft.add .empty
    return Members.values draft.members
  else none

end MetadataClient.Toml
