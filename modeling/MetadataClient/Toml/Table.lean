import MetadataClient.Entries

/-! Tables of a TOML text while it is read. A table can be named by a header, by a
longer header, or by the dots in the name of a setting; which of these it was says how
it may be added to later. -/
namespace MetadataClient.Toml

/-- Numbers, truth values, dates and times are not told apart, as no setting is one. -/
inductive Value
  | string (text : String)
  | scalar
  | array (items : List Value)
  | table (entries : List (String × Value))

inductive Origin
  | header
  | longerHeader
  | dots
deriving DecidableEq

/-- Something with a name. An array of tables has at least one element, the last. -/
inductive Node
  | value (value : Value)
  | table (origin : Origin) (entries : List (String × Node))
  | tables (earlier : List (List (String × Node))) (last : List (String × Node))

abbrev Members := List (String × Node)

structure Key where
  path : List String
  name : String

namespace Members

/-- Changes the table at the end of a path of headers. Tables on the way that are
missing are made. -/
def changeAt (change : Members → Option Members) : List String → Members → Option Members
  | [], members => change members
  | name :: path, members =>
    match Entries.find? name members with
    | none => (changeAt change path []).map fun inner =>
      Entries.insert name (.table .longerHeader inner) members
    | some (.table origin inner) => (changeAt change path inner).map fun inner =>
      Entries.insert name (.table origin inner) members
    | some (.tables earlier last) => (changeAt change path last).map fun last =>
      Entries.insert name (.tables earlier last) members
    | some (.value _) => none

def openTable (name : String) (members : Members) : Option Members :=
  match Entries.find? name members with
  | none => some (Entries.insert name (.table .header []) members)
  | some (.table .longerHeader inner) =>
    some (Entries.insert name (.table .header inner) members)
  | some _ => none

def openElement (name : String) (members : Members) : Option Members :=
  match Entries.find? name members with
  | none => some (Entries.insert name (.tables [] []) members)
  | some (.tables earlier last) =>
    some (Entries.insert name (.tables (earlier ++ [last]) []) members)
  | some _ => none

/-- Sets a new name to a value. The table that a path of dots ends in must have been
named by dots, and no table on the way by its own header. -/
def assign (value : Value) (name : String) : List String → Members → Option Members
  | [], members =>
    match Entries.find? name members with
    | none => some (Entries.insert name (.value value) members)
    | some _ => none
  | next :: path, members =>
    match Entries.find? next members with
    | none => (assign value name path []).map fun inner =>
      Entries.insert next (.table .dots inner) members
    | some (.table .dots inner) => (assign value name path inner).map fun inner =>
      Entries.insert next (.table .dots inner) members
    | some (.table .longerHeader inner) =>
      if path.isEmpty then none
      else (assign value name path inner).map fun inner =>
        Entries.insert next (.table .longerHeader inner) members
    | some (.tables earlier last) =>
      if path.isEmpty then none
      else (assign value name path last).map fun last =>
        Entries.insert next (.tables earlier last) members
    | some (.table .header _) => none
    | some (.value _) => none

mutual

def values : Members → List (String × Value)
  | [] => []
  | (name, node) :: rest => (name, nodeValue node) :: values rest

def nodeValue : Node → Value
  | .value value => value
  | .table _ entries => .table (values entries)
  | .tables earlier last => .array (tableValues earlier ++ [.table (values last)])

def tableValues : List Members → List Value
  | [] => []
  | first :: rest => .table (values first) :: tableValues rest

end
end Members
end MetadataClient.Toml
