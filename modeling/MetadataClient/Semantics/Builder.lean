import MetadataClient.Semantics.Basic

/-! Configuring semantics one setting at a time. An edit that names no known axis or
value is refused and changes nothing. -/
namespace MetadataClient.Semantics

inductive EditError
  | invalidTag (axis : Axis) (tag : Int)
  | unknownValue (axis : Axis) (value : String)
  | unknownAxis (axis : String)
deriving DecidableEq

def EditError.message : EditError → String
  | invalidTag axis tag => "tag " ++ toString tag ++ " is not a valid " ++ axis.name ++ " value"
  | unknownValue axis value => "unknown " ++ axis.name ++ " value: " ++ value
  | unknownAxis axis => "unknown semantics axis: " ++ axis

structure Builder where
  current : Semantics
deriving DecidableEq

namespace Builder

def ofTemplate (template : Template) : Builder :=
  ⟨template.semantics⟩

def get (builder : Builder) (axis : Axis) : Setting :=
  builder.current.get axis

def set (builder : Builder) (setting : Setting) : Builder :=
  ⟨builder.current.set setting⟩

def setTag (builder : Builder) (axis : Axis) (tag : Int) : Except EditError Builder :=
  match Setting.ofTag? axis tag with
  | some setting => .ok (builder.set setting)
  | none => .error (.invalidTag axis tag)

/-- The axis is looked up before the value. -/
def setNamed (builder : Builder) (axis value : String) : Except EditError Builder :=
  match Axis.ofName? axis with
  | none => .error (.unknownAxis axis)
  | some axis =>
    match Setting.ofName? axis value with
    | some setting => .ok (builder.set setting)
    | none => .error (.unknownValue axis value)

def build (builder : Builder) : Semantics :=
  builder.current

end Builder

def toBuilder (semantics : Semantics) : Builder :=
  ⟨semantics⟩

end MetadataClient.Semantics
