/-! The six axes on which the consistency of metadata is chosen, and the values of
each. A value is known by its name in text and by its tag, its place in the domain
of its axis, where semantics travel as numbers. -/
namespace MetadataClient

inductive Axis
  | atomicity
  | concurrency
  | consistency
  | persistency
  | safety
  | security
deriving DecidableEq, Repr

namespace Axis

/-- The order in which axes are listed everywhere. -/
def all : List Axis :=
  [atomicity, concurrency, consistency, persistency, safety, security]

def name : Axis → String
  | atomicity => "atomicity"
  | concurrency => "concurrency"
  | consistency => "consistency"
  | persistency => "persistency"
  | safety => "safety"
  | security => "security"

def ofName? (text : String) : Option Axis :=
  all.find? (·.name == text)

theorem ofName?_name (axis : Axis) : ofName? axis.name = some axis := by
  cases axis <;> decide

end Axis

/-- How large a group of writes becomes visible as a whole. -/
inductive Atomicity
  | none
  | operation
  | batch
deriving DecidableEq, Repr

/-- Whether operations on one target may interleave. -/
inductive Concurrency
  | none
  | nonOverlapping
  | overlapping
deriving DecidableEq, Repr

/-- When a reader sees what a writer did. -/
inductive Consistency
  | none
  | eventual
  | immediate
deriving DecidableEq, Repr

/-- How durable an operation is before it is reported complete. -/
inductive Persistency
  | none
  | eventual
  | immediate
deriving DecidableEq, Repr

/-- Completion may be reported before the operation is written. -/
def Persistency.isDeferrable : Persistency → Bool
  | none => true
  | eventual => true
  | immediate => false

/-- The failures that an operation survives. -/
inductive Safety
  | none
  | network
  | storage
deriving DecidableEq, Repr

inductive Security
  | none
  | strict
deriving DecidableEq, Repr

inductive Setting
  | atomicity (value : Atomicity)
  | concurrency (value : Concurrency)
  | consistency (value : Consistency)
  | persistency (value : Persistency)
  | safety (value : Safety)
  | security (value : Security)
deriving DecidableEq, Repr

namespace Setting

def axis : Setting → Axis
  | atomicity _ => .atomicity
  | concurrency _ => .concurrency
  | consistency _ => .consistency
  | persistency _ => .persistency
  | safety _ => .safety
  | security _ => .security

/-- The values of an axis, in the order of their tags. -/
def domain : Axis → List Setting
  | .atomicity => [.atomicity .none, .atomicity .operation, .atomicity .batch]
  | .concurrency => [.concurrency .none, .concurrency .nonOverlapping, .concurrency .overlapping]
  | .consistency => [.consistency .none, .consistency .eventual, .consistency .immediate]
  | .persistency => [.persistency .none, .persistency .eventual, .persistency .immediate]
  | .safety => [.safety .none, .safety .network, .safety .storage]
  | .security => [.security .none, .security .strict]

def name : Setting → String
  | atomicity .none => "none"
  | atomicity .operation => "operation"
  | atomicity .batch => "batch"
  | concurrency .none => "none"
  | concurrency .nonOverlapping => "non-overlapping"
  | concurrency .overlapping => "overlapping"
  | consistency .none => "none"
  | consistency .eventual => "eventual"
  | consistency .immediate => "immediate"
  | persistency .none => "none"
  | persistency .eventual => "eventual"
  | persistency .immediate => "immediate"
  | safety .none => "none"
  | safety .network => "network"
  | safety .storage => "storage"
  | security .none => "none"
  | security .strict => "strict"

def tag (setting : Setting) : Nat :=
  (domain setting.axis).idxOf setting

def ofName? (axis : Axis) (text : String) : Option Setting :=
  (domain axis).find? (·.name == text)

def ofTag? (axis : Axis) (tag : Int) : Option Setting :=
  (domain axis).find? fun setting => (setting.tag : Int) == tag

def text (setting : Setting) : String :=
  setting.axis.name ++ "=" ++ setting.name

theorem axis_of_mem_domain {axis : Axis} {setting : Setting} (member : setting ∈ domain axis) :
    setting.axis = axis := by
  cases axis <;> simp only [domain, List.mem_cons, List.not_mem_nil, or_false] at member <;>
    rcases member with rfl | rfl | rfl <;> rfl

theorem ofName?_name (setting : Setting) : ofName? setting.axis setting.name = some setting := by
  rcases setting with value | value | value | value | value | value <;> cases value <;> decide

theorem axis_of_ofName? {axis : Axis} {text : String} {setting : Setting}
    (found : ofName? axis text = some setting) : setting.axis = axis :=
  axis_of_mem_domain (List.mem_of_find?_eq_some found)

theorem axis_of_ofTag? {axis : Axis} {tag : Int} {setting : Setting}
    (found : ofTag? axis tag = some setting) : setting.axis = axis :=
  axis_of_mem_domain (List.mem_of_find?_eq_some found)

end Setting
end MetadataClient
