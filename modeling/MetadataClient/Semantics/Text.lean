import MetadataClient.Text.Split
import MetadataClient.Semantics.Basic

/-! Semantics written as text: the name of a template and a list of settings between
commas. A part of the list that is no setting is passed over. -/
namespace MetadataClient.Semantics

/-- The setting that a part of the list names. The value is all that follows the
first equals sign. -/
def settingOfToken? (token : List Char) : Option Setting := do
  let (axis, value) ← Text.cut? '=' token
  let axis ← Axis.ofName? (String.ofList axis)
  Setting.ofName? axis (String.ofList value)

def applyToken (semantics : Semantics) (token : List Char) : Semantics :=
  match settingOfToken? token with
  | some setting => semantics.set setting
  | none => semantics

def parse (template : String) (overrides : Option String) : Semantics :=
  let start := (Template.ofText template).semantics
  match overrides with
  | none => start
  | some overrides => (Text.split ',' overrides.toList).foldl applyToken start

end MetadataClient.Semantics
