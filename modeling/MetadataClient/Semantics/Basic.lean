import MetadataClient.Semantics.Axis

/-! Semantics are one setting on each axis. A template is a named choice of all six
from which others are derived one setting at a time. -/
namespace MetadataClient

inductive Template
  | standard
  | posix
  | checkpoint
deriving DecidableEq, Repr

structure Semantics where
  atomicity : Atomicity
  concurrency : Concurrency
  consistency : Consistency
  persistency : Persistency
  safety : Safety
  security : Security
deriving DecidableEq, Repr

namespace Template

def all : List Template :=
  [standard, posix, checkpoint]

def name : Template → String
  | standard => "default"
  | posix => "posix"
  | checkpoint => "checkpoint"

def ofName? (text : String) : Option Template :=
  all.find? (·.name == text)

/-- Any text but the name of another template chooses the standard one. -/
def ofText (text : String) : Template :=
  (ofName? text).getD standard

def tag (template : Template) : Nat :=
  all.idxOf template

def ofTag? (tag : Int) : Option Template :=
  all.find? fun template => (template.tag : Int) == tag

/-- An unknown tag chooses the standard template and leaves a warning. -/
def ofTag (tag : Int) : Template × List String :=
  match ofTag? tag with
  | some template => (template, [])
  | none =>
    (standard, ["Unknown semantics template tag " ++ toString tag ++ ", using default template"])

def semantics : Template → Semantics
  | standard => ⟨.none, .overlapping, .immediate, .eventual, .none, .strict⟩
  | posix => ⟨.operation, .overlapping, .immediate, .eventual, .none, .strict⟩
  | checkpoint => ⟨.none, .nonOverlapping, .eventual, .eventual, .none, .none⟩

end Template

namespace Semantics

def get (semantics : Semantics) : Axis → Setting
  | .atomicity => .atomicity semantics.atomicity
  | .concurrency => .concurrency semantics.concurrency
  | .consistency => .consistency semantics.consistency
  | .persistency => .persistency semantics.persistency
  | .safety => .safety semantics.safety
  | .security => .security semantics.security

def set (semantics : Semantics) : Setting → Semantics
  | .atomicity value => { semantics with atomicity := value }
  | .concurrency value => { semantics with concurrency := value }
  | .consistency value => { semantics with consistency := value }
  | .persistency value => { semantics with persistency := value }
  | .safety value => { semantics with safety := value }
  | .security value => { semantics with security := value }

def settings (semantics : Semantics) : List Setting :=
  Axis.all.map semantics.get

/-- The list of settings that chooses these semantics from any template. -/
def text (semantics : Semantics) : String :=
  ",".intercalate (semantics.settings.map Setting.text)

theorem get_set (semantics : Semantics) (setting : Setting) (axis : Axis) :
    (semantics.set setting).get axis = if setting.axis = axis then setting else semantics.get axis := by
  rcases setting with value | value | value | value | value | value <;> cases axis <;> rfl

theorem axis_get (semantics : Semantics) (axis : Axis) : (semantics.get axis).axis = axis := by
  cases axis <;> rfl

theorem ext_get {first second : Semantics} (same : ∀ axis, first.get axis = second.get axis) :
    first = second := by
  obtain ⟨a, b, c, d, e, f⟩ := first
  obtain ⟨a', b', c', d', e', f'⟩ := second
  have atomicity := same .atomicity
  have concurrency := same .concurrency
  have consistency := same .consistency
  have persistency := same .persistency
  have safety := same .safety
  have security := same .security
  simp_all [get]

end Semantics
end MetadataClient
