import MetadataClient.DocumentStore.Basic
import MetadataClient.Text.Quoted

/-! A cursor goes once through the rows that a namespace had when it was opened.
Later writes do not reach it. -/
namespace MetadataClient

/-- Nothing stands for the rows ahead once the end was reached. -/
structure Cursor where
  source : String
  options : FindOptions
  ahead : Option (List (Nat × Bytes))
  current : Option Document
  skipped : Nat
  returned : Nat

namespace Cursor

/-- What a cursor meets next: a document to return, an unreadable row or the end.
The first two come with the rows behind them. -/
inductive Sight
  | document (document : Document) (ahead : List (Nat × Bytes))
  | unreadable (fault : Json.Fault) (ahead : List (Nat × Bytes))
  | nothing

/-- Looks for the first document that is accepted and not to be skipped. Also counts
the documents skipped so far. -/
def look (options : FindOptions) (skipped : Nat) : List (Nat × Bytes) → Sight × Nat
  | [] => (.nothing, skipped)
  | (_, bytes) :: ahead =>
    match Document.decode bytes with
    | .error fault => (.unreadable fault ahead, skipped)
    | .ok document =>
      if !options.filter.accepts document then look options skipped ahead
      else if skipped < options.skip then look options (skipped + 1) ahead
      else (.document document ahead, skipped)

theorem length_lt_of_look_document {options : FindOptions} {skipped skippedAfter : Nat}
    {rows ahead : List (Nat × Bytes)} {document : Document}
    (seen : look options skipped rows = (.document document ahead, skippedAfter)) :
    ahead.length < rows.length := by
  fun_induction look options skipped rows with
  | case1 | case2 => simp at seen
  | case3 _ _ _ _ _ _ _ ih | case4 _ _ _ _ _ _ _ _ ih => exact Nat.lt_succ_of_lt (ih seen)
  | case5 _ _ _ rows =>
      simp only [Prod.mk.injEq, Sight.document.injEq] at seen
      obtain ⟨⟨-, rfl⟩, -⟩ := seen
      exact Nat.lt_succ_self _

def isSatisfied (cursor : Cursor) : Bool :=
  0 < cursor.options.limit && cursor.options.limit ≤ cursor.returned

/-- Moves to the next document and says if there is one. An unreadable row is a
failure once, and passed. -/
def advance (cursor : Cursor) : Except StoreError Bool × Cursor :=
  if cursor.isSatisfied then (.ok false, { cursor with current := none, ahead := none })
  else match cursor.ahead with
    | none => (.ok false, { cursor with current := none })
    | some rows =>
      match look cursor.options cursor.skipped rows with
      | (.document document ahead, skipped) =>
        (.ok true, { cursor with
          ahead := some ahead, current := some (cursor.options.view document), skipped,
          returned := cursor.returned + 1 })
      | (.unreadable fault ahead, skipped) =>
        (.error (.document fault), { cursor with ahead := some ahead, current := none, skipped })
      | (.nothing, skipped) => (.ok false, { cursor with ahead := none, current := none, skipped })

def remaining (cursor : Cursor) : Nat :=
  cursor.ahead.elim 0 List.length

theorem remaining_advance_lt {cursor next : Cursor}
    (found : cursor.advance = (.ok true, next)) : next.remaining < cursor.remaining := by
  unfold advance at found
  split at found
  · simp at found
  · split at found
    · simp at found
    next rows ahead =>
      split at found
      next seen =>
        simp only [Prod.mk.injEq, true_and] at found
        subst found
        simpa [remaining, ahead] using length_lt_of_look_document seen
      all_goals simp at found

set_option linter.unusedVariables false in
def collect (cursor : Cursor) : List Document × Option StoreError :=
  match found : cursor.advance with
  | (.error error, _) => ([], some error)
  | (.ok false, _) => ([], none)
  | (.ok true, next) =>
    let (documents, failure) := next.collect
    (next.current.toList ++ documents, failure)
termination_by cursor.remaining
decreasing_by exact remaining_advance_lt found

def description (cursor : Cursor) : String :=
  "MetaCursor \x7b namespace: " ++ Text.quoted cursor.source ++ ", returned: "
    ++ toString cursor.returned ++ ", exhausted: " ++ toString cursor.ahead.isNone ++ ", .. \x7d"

end Cursor

namespace DocumentStore

/-- A cursor before the first row. A namespace without a table has no rows. -/
def find (store : DocumentStore) (source : String) (options : FindOptions) :
    Except StoreError Cursor :=
  (store.rows? source).map fun rows =>
    ⟨source, options, rows.map (·.entries), none, 0, 0⟩

end DocumentStore
end MetadataClient
