/-! Reading one thing after another from the front of a text. -/
namespace MetadataClient.Text

variable {α : Type}

/-- Reads as often as the reader succeeds and takes something away. -/
def repeated (read : List Char → Option (α × List Char)) (input : List Char) :
    List α × List Char :=
  match read input with
  | none => ([], input)
  | some (first, rest) =>
    if rest.length < input.length then
      let (more, rest) := repeated read rest
      (first :: more, rest)
    else ([], input)
termination_by input.length

def behind (mark : Char) (read : List Char → Option (α × List Char)) (input : List Char) :
    Option (α × List Char) :=
  match input with
  | char :: rest => if char = mark then read rest else none
  | [] => none

/-- Reads as often as the reader succeeds, each time but the first behind a mark. -/
def separated (mark : Char) (read : List Char → Option (α × List Char)) (input : List Char) :
    List α × List Char :=
  match read input with
  | none => ([], input)
  | some (first, rest) =>
    let (more, rest) := repeated (behind mark read) rest
    (first :: more, rest)

end MetadataClient.Text
