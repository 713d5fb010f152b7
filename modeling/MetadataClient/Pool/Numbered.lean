import MetadataClient.Pool.Basic

/-! A connector whose connections are numbers, given out in order. It refuses the
attempts that it is told to refuse. -/
namespace MetadataClient

structure Numbered where
  backends : Nat
  refused : List Nat
  attempts : Nat
  next : Nat

namespace Numbered

def new (backends : Nat) (refused : List Nat) : Numbered :=
  ⟨backends, refused, 0, 0⟩

def connect (numbered : Numbered) (_index : Nat) : Except Error Nat × Numbered :=
  let after := { numbered with attempts := numbered.attempts + 1 }
  if numbered.refused.contains numbered.attempts then
    (.error (.connectionFailed ("refused " ++ toString numbered.attempts)), after)
  else (.ok numbered.next, { after with next := numbered.next + 1 })

instance : Connector Numbered Nat :=
  ⟨backends, connect⟩

end Numbered
end MetadataClient
