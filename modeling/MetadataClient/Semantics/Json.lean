import MetadataClient.Json.Choice
import MetadataClient.Semantics.Basic

/-! Semantics in JSON. They are written as an object with one member for each axis.
Read back, the members may stand in any order among others that are passed over, but
each axis must be there once; or the six values stand in an array. -/
namespace MetadataClient.Semantics

open MetadataClient.Json (Fault skipBlanks readString readMark readChoice skipValue)

def print (semantics : Semantics) : Bytes :=
  Json.openObject :: [Json.comma].intercalate (semantics.settings.map fun setting =>
    Json.printString setting.axis.name ++ Json.colon :: Json.printName setting.name) ++
    [Json.closeObject]

def ofSettings? (settings : List Setting) : Option Semantics :=
  if Axis.all.all fun axis => settings.any (·.axis == axis) then
    some (settings.foldl set Template.standard.semantics)
  else none

def readSetting (axis : Axis) (input : Bytes) : Except Fault (Setting × Bytes) :=
  readChoice (Setting.ofName? axis) input

set_option linter.unusedVariables false in
/-- Reads members from a name on up to the closing brace; `found` holds the settings
read so far. -/
def readMembers (found : List Setting) (input : Bytes) : Except Fault (Semantics × Bytes) :=
  match start : skipBlanks input with
  | [] => .error .endOfText
  | byte :: named =>
    if byte ≠ Json.quoteByte then .error .malformed
    else match text : readString named with
      | .error fault => .error fault
      | .ok (name, rest) =>
        match Axis.ofName? name with
        | some axis =>
          if found.any (·.axis == axis) then .error .mismatch
          else match separated : readMark Json.colon rest with
            | .error fault => .error fault
            | .ok rest =>
              match value : readSetting axis rest with
              | .error fault => .error fault
              | .ok (setting, rest) => behind (found ++ [setting]) rest
        | none =>
          match separated : readMark Json.colon rest with
          | .error fault => .error fault
          | .ok rest =>
            match value : skipValue [] rest with
            | .error fault => .error fault
            | .ok rest => behind found rest
termination_by (input.length, 0)
decreasing_by
  · have := Json.length_lt_of_skipBlanks start
    have := Json.readString_length_lt text
    have := Json.readMark_length_lt separated
    have := Json.readChoice_length_lt value
    exact Prod.Lex.left _ _ (by omega)
  · have := Json.length_lt_of_skipBlanks start
    have := Json.readString_length_lt text
    have := Json.readMark_length_lt separated
    have := Json.skipValue_length_lt value
    exact Prod.Lex.left _ _ (by omega)
where
  behind (found : List Setting) (input : Bytes) : Except Fault (Semantics × Bytes) :=
    match start : skipBlanks input with
    | [] => .error .endOfText
    | byte :: rest =>
      if byte = Json.comma then readMembers found rest
      else if byte = Json.closeObject then
        match ofSettings? found with
        | some semantics => .ok (semantics, rest)
        | none => .error .mismatch
      else .error .malformed
  termination_by (input.length, 1)
  decreasing_by
    have := Json.length_lt_of_skipBlanks start
    exact Prod.Lex.left _ _ (by omega)

def readItems (first : Bool) (found : List Setting) :
    List Axis → Bytes → Except Fault (Semantics × Bytes)
  | [], input => do
    let rest ← readMark Json.closeArray input
    match ofSettings? found with
    | some semantics => .ok (semantics, rest)
    | none => .error .mismatch
  | axis :: axes, input =>
    match skipBlanks input with
    | [] => .error .endOfText
    | byte :: rest =>
      if byte = Json.closeArray then .error .mismatch
      else if first then do
        let (setting, rest) ← readSetting axis (byte :: rest)
        readItems false (found ++ [setting]) axes rest
      else if byte = Json.comma then do
        let (setting, rest) ← readSetting axis rest
        readItems false (found ++ [setting]) axes rest
      else .error .malformed

def parseJson (input : Bytes) : Except Fault Semantics := do
  match skipBlanks input with
  | [] => .error .endOfText
  | byte :: rest =>
    if byte = Json.openArray then
      let (semantics, rest) ← readItems true [] Axis.all rest
      Json.expectEnd rest
      return semantics
    else if byte = Json.openObject then
      match skipBlanks rest with
      | [] => .error .endOfText
      | next :: _ =>
        if next = Json.closeObject then .error .mismatch
        else
          let (semantics, rest) ← readMembers [] rest
          Json.expectEnd rest
          return semantics
    else .error (Json.unwanted input)

end MetadataClient.Semantics
