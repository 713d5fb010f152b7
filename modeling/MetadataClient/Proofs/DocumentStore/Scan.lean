import MetadataClient.DocumentStore.Cursor
import MetadataClient.Proofs.Document.RoundTrip
import Mathlib.Data.List.Forall2

/-! An unrestricted scan. A cursor without filter, skip and limit returns the documents of
its rows one by one and then nothing more. -/
namespace MetadataClient

/-- The rows hold these documents, in this order. -/
def Rows.Hold (rows : List (Nat × Bytes)) (documents : List Document) : Prop :=
  List.Forall₂ (fun row document => Document.decode row.2 = .ok document) rows documents

namespace Cursor

/-- The cursor scans, and these documents are still ahead of it. -/
structure Scans (cursor : Cursor) (documents : List Document) : Prop where
  options : cursor.options = .scan
  ahead : Rows.Hold (cursor.ahead.getD []) documents

theorem not_isSatisfied {cursor : Cursor} (scan : cursor.options = .scan) :
    cursor.isSatisfied = false := by
  rw [isSatisfied, scan]
  rfl

theorem look_scan {row : Nat × Bytes} {document : Document}
    (decoded : Document.decode row.2 = .ok document) (skipped : Nat) (rows : List (Nat × Bytes)) :
    look .scan skipped (row :: rows) = (.document document rows, skipped) := by
  have all : FindOptions.scan.filter.accepts document = true := rfl
  rw [look, decoded]
  simp only [all, Bool.not_true, Bool.false_eq_true, if_false]
  rfl

theorem advance_nil {cursor : Cursor} (scans : cursor.Scans []) :
    ∃ next, cursor.advance = (.ok false, next) ∧ next.current = none ∧ next.Scans [] := by
  obtain ⟨scan, ahead⟩ := scans
  rw [advance, not_isSatisfied scan, if_neg Bool.false_ne_true]
  cases rest : cursor.ahead with
  | none => exact ⟨_, rfl, rfl, scan, .nil⟩
  | some rows =>
    rw [rest] at ahead
    obtain rfl : rows = [] := List.forall₂_nil_right_iff.mp ahead
    exact ⟨_, rfl, rfl, scan, .nil⟩

theorem advance_cons {cursor : Cursor} {document : Document} {documents : List Document}
    (scans : cursor.Scans (document :: documents)) :
    ∃ next, cursor.advance = (.ok true, next) ∧ next.current = some document ∧
      next.Scans documents := by
  obtain ⟨scan, ahead⟩ := scans
  rw [advance, not_isSatisfied scan, if_neg Bool.false_ne_true]
  cases rest : cursor.ahead with
  | none =>
    rw [rest] at ahead
    cases ahead
  | some rows =>
    rw [rest] at ahead
    cases ahead with
    | cons decoded later =>
      simp only [scan, look_scan decoded]
      exact ⟨_, rfl, rfl, rfl, later⟩

theorem collect_of_advance {cursor next : Cursor} {answer : Except StoreError Bool}
    (moved : cursor.advance = (answer, next)) :
    cursor.collect = match answer with
      | .error error => ([], some error)
      | .ok false => ([], none)
      | .ok true => (next.current.toList ++ next.collect.1, next.collect.2) := by
  rw [collect]
  split
  next found =>
    cases moved.symm.trans found
    rfl
  next found =>
    cases moved.symm.trans found
    rfl
  next found =>
    cases moved.symm.trans found
    rfl

/-- A scan that goes to the end yields all the documents, without a failure. -/
theorem collect_scan {cursor : Cursor} {documents : List Document}
    (scans : cursor.Scans documents) : cursor.collect = (documents, none) := by
  induction documents generalizing cursor with
  | nil =>
    obtain ⟨next, moved, -⟩ := advance_nil scans
    exact collect_of_advance moved
  | cons document documents ih =>
    obtain ⟨next, moved, current, later⟩ := advance_cons scans
    rw [collect_of_advance moved, current, ih later]
    rfl

end Cursor
end MetadataClient
