import MetadataClient.DocumentStore.Cursor
import Mathlib.Tactic.Common

/-! Selection of documents. The options of a search select documents of a list. Where some of
what is read turns out not to be a document, the way to the selected ones leads past these
faults, which are neither skipped nor counted. -/
namespace MetadataClient

abbrev Decoded := Except Json.Fault Document

namespace Decoded

def ofRows (rows : List (Nat × Bytes)) : List Decoded :=
  rows.map fun row => Document.decode row.2

theorem ofRows_cons (row : Nat × Bytes) (rows : List (Nat × Bytes)) :
    ofRows (row :: rows) = Document.decode row.2 :: ofRows rows := rfl

/-- The documents that can be read. -/
def documents (readings : List Decoded) : List Document :=
  readings.filterMap Except.toOption

/-- Without the documents that fail a test. -/
def keep (test : Document → Bool) (readings : List Decoded) : List Decoded :=
  readings.filter fun
    | .ok document => test document
    | .error _ => true

/-- Without the first documents. The faults among them stay. -/
def skip : Nat → List Decoded → List Decoded
  | 0, readings => readings
  | _ + 1, [] => []
  | count + 1, .error fault :: rest => .error fault :: skip (count + 1) rest
  | count + 1, .ok _ :: rest => skip count rest

/-- As far as the last document that is wanted. -/
def limit : Nat → List Decoded → List Decoded
  | 0, _ => []
  | _ + 1, [] => []
  | count + 1, .error fault :: rest => .error fault :: limit (count + 1) rest
  | count + 1, .ok document :: rest => .ok document :: limit count rest

def faults (readings : List Decoded) : List Json.Fault :=
  readings.filterMap fun
    | .ok _ => none
    | .error fault => some fault

@[simp] theorem documents_nil : documents [] = [] := rfl

@[simp] theorem documents_error (fault : Json.Fault) (readings : List Decoded) :
    documents (.error fault :: readings) = documents readings := rfl

@[simp] theorem documents_ok (document : Document) (readings : List Decoded) :
    documents (.ok document :: readings) = document :: documents readings := rfl

@[simp] theorem keep_error (test : Document → Bool) (fault : Json.Fault) (readings : List Decoded) :
    keep test (.error fault :: readings) = .error fault :: keep test readings := rfl

theorem keep_ok (test : Document → Bool) (document : Document) (readings : List Decoded) :
    keep test (.ok document :: readings) =
      if test document then .ok document :: keep test readings else keep test readings :=
  List.filter_cons

@[simp] theorem skip_nil (count : Nat) : skip count [] = [] := by
  cases count <;> rfl

@[simp] theorem skip_zero (readings : List Decoded) : skip 0 readings = readings := by
  cases readings <;> rfl

@[simp] theorem skip_error (count : Nat) (fault : Json.Fault) (readings : List Decoded) :
    skip count (.error fault :: readings) = .error fault :: skip count readings := by
  cases count with
  | zero => rw [skip_zero, skip_zero]
  | succ count => rfl

@[simp] theorem limit_zero (readings : List Decoded) : limit 0 readings = [] := by
  cases readings <;> rfl

@[simp] theorem limit_nil (count : Nat) : limit count [] = [] := by
  cases count <;> rfl

theorem documents_keep (test : Document → Bool) (readings : List Decoded) :
    documents (keep test readings) = (documents readings).filter test := by
  induction readings with
  | nil => rfl
  | cons reading rest ih =>
    cases reading with
    | error fault => exact ih
    | ok document =>
      rw [keep_ok, documents_ok, List.filter_cons]
      split
      · rw [documents_ok, ih]
      · exact ih

theorem documents_skip (count : Nat) (readings : List Decoded) :
    documents (skip count readings) = (documents readings).drop count := by
  fun_induction skip count readings with
  | case1 => rfl
  | case2 => rfl
  | case3 count fault rest ih => exact ih
  | case4 count document rest ih => exact ih

theorem documents_limit (count : Nat) (readings : List Decoded) :
    documents (limit count readings) = (documents readings).take count := by
  fun_induction limit count readings with
  | case1 => rfl
  | case2 => rfl
  | case3 count fault rest ih => exact ih
  | case4 count document rest ih => rw [documents_ok, documents_ok, List.take_succ_cons, ih]

theorem documents_map (view : Document → Document) (readings : List Decoded) :
    documents (readings.map (Except.map view)) = (documents readings).map view := by
  induction readings with
  | nil => rfl
  | cons reading rest ih =>
    cases reading with
    | error fault => exact ih
    | ok document => exact congrArg (view document :: ·) ih

theorem documents_map_ok (documents : List Document) :
    Decoded.documents (documents.map .ok) = documents := by
  induction documents with
  | nil => rfl
  | cons document rest ih => rw [List.map_cons, documents_ok, ih]

theorem faults_map_ok (documents : List Document) : faults (documents.map .ok) = [] := by
  induction documents with
  | nil => rfl
  | cons document rest ih => exact ih

theorem faults_append (first second : List Decoded) :
    faults (first ++ second) = faults first ++ faults second :=
  List.filterMap_append ..

theorem faults_keep (test : Document → Bool) (readings : List Decoded) :
    faults (keep test readings) = faults readings := by
  induction readings with
  | nil => rfl
  | cons reading rest ih =>
    cases reading with
    | error fault => exact congrArg (fault :: ·) ih
    | ok document =>
      rw [keep_ok]
      split
      · exact ih
      · exact ih

theorem faults_skip (count : Nat) (readings : List Decoded) :
    faults (skip count readings) = faults readings := by
  fun_induction skip count readings with
  | case1 => rfl
  | case2 => rfl
  | case3 count fault rest ih => exact congrArg (fault :: ·) ih
  | case4 count document rest ih => exact ih

theorem faults_limit (count : Nat) (readings : List Decoded) :
    faults (limit count readings) <+: faults readings := by
  fun_induction limit count readings with
  | case1 => exact List.nil_prefix
  | case2 => exact List.nil_prefix
  | case3 count fault rest ih => exact List.prefix_cons_inj fault |>.mpr ih
  | case4 count document rest ih => exact ih

theorem faults_map (view : Document → Document) (readings : List Decoded) :
    faults (readings.map (Except.map view)) = faults readings := by
  induction readings with
  | nil => rfl
  | cons reading rest ih =>
    cases reading with
    | error fault => exact congrArg (fault :: ·) ih
    | ok document => exact ih

end Decoded

/-- The row holds a document that the filter accepts. -/
def Filter.selects (filter : Filter) (row : Nat × Bytes) : Bool :=
  match Document.decode row.2 with
  | .ok document => filter.accepts document
  | .error _ => false

namespace Decoded

theorem ofRows_unselected (filter : Filter) (rows : List (Nat × Bytes)) :
    ofRows (rows.filter fun row => !filter.selects row) =
      keep (fun document => !filter.accepts document) (ofRows rows) := by
  rw [ofRows, ofRows, keep, List.filter_map]
  refine congrArg _ (List.filter_congr ?_)
  intro row _
  rw [Filter.selects, Function.comp_apply]
  cases Document.decode row.2 <;> rfl

theorem length_selected (filter : Filter) (rows : List (Nat × Bytes)) :
    (rows.filter filter.selects).length = (documents (ofRows rows)).countP filter.accepts := by
  induction rows with
  | nil => rfl
  | cons row rows ih =>
    rw [ofRows_cons, List.filter_cons, Filter.selects]
    cases Document.decode row.2 with
    | error fault => exact ih
    | ok document =>
      rw [documents_ok, List.countP_cons]
      dsimp only
      split
      · rw [List.length_cons, ih]
      · exact ih

end Decoded

namespace FindOptions

/-- The documents that match, without those to be skipped, as many of them as are asked for,
as they are returned. -/
def select (options : FindOptions) (documents : List Document) : List Document :=
  let wanted := (documents.filter options.filter.accepts).drop options.skip
  (if options.limit = 0 then wanted else wanted.take options.limit).map options.view

/-- What is met on the way through the rest of the rows, when so many documents were skipped
and returned before: the documents that are selected, and the faults up to the last of them. -/
def onward (options : FindOptions) (skipped returned : Nat) (readings : List Decoded) :
    List Decoded :=
  let wanted := Decoded.skip (options.skip - skipped) (Decoded.keep options.filter.accepts readings)
  (if options.limit = 0 then wanted else Decoded.limit (options.limit - returned) wanted).map
    (Except.map options.view)

def walk (options : FindOptions) (readings : List Decoded) : List Decoded :=
  options.onward 0 0 readings

theorem documents_walk (options : FindOptions) (readings : List Decoded) :
    Decoded.documents (options.walk readings) = options.select (Decoded.documents readings) := by
  rw [walk, onward, select, Decoded.documents_map]
  split
  · rw [Decoded.documents_skip, Decoded.documents_keep, Nat.sub_zero]
  · rw [Decoded.documents_limit, Decoded.documents_skip, Decoded.documents_keep, Nat.sub_zero,
      Nat.sub_zero]

/-- Faults are told in their order. Without a limit none of them is left out. -/
theorem faults_walk (options : FindOptions) (readings : List Decoded) :
    Decoded.faults (options.walk readings) <+: Decoded.faults readings ∧
      (options.limit = 0 → Decoded.faults (options.walk readings) = Decoded.faults readings) := by
  have wanted : Decoded.faults (Decoded.skip (options.skip - 0)
      (Decoded.keep options.filter.accepts readings)) = Decoded.faults readings := by
    rw [Decoded.faults_skip, Decoded.faults_keep]
  rw [walk, onward, Decoded.faults_map]
  split
  next unlimited => exact ⟨wanted ▸ List.prefix_refl _, fun _ => wanted⟩
  next limited =>
    constructor
    · exact wanted ▸ Decoded.faults_limit ..
    · intro unlimited
      exact absurd unlimited limited

variable {options : FindOptions} {skipped returned : Nat}

theorem onward_nil : options.onward skipped returned [] = [] := by
  simp [onward, Decoded.keep]

theorem onward_satisfied (satisfied : 0 < options.limit ∧ options.limit ≤ returned)
    (readings : List Decoded) : options.onward skipped returned readings = [] := by
  obtain ⟨bounded, enough⟩ := satisfied
  rw [onward, if_neg (Nat.ne_of_gt bounded), Nat.sub_eq_zero_of_le enough, Decoded.limit_zero,
    List.map_nil]

theorem onward_error (wanting : ¬(0 < options.limit ∧ options.limit ≤ returned))
    (fault : Json.Fault) (readings : List Decoded) :
    options.onward skipped returned (.error fault :: readings) =
      .error fault :: options.onward skipped returned readings := by
  simp only [onward, Decoded.keep_error, Decoded.skip_error]
  split
  · rfl
  · obtain ⟨count, left⟩ : ∃ count, options.limit - returned = count + 1 :=
      Nat.exists_eq_succ_of_ne_zero (by omega)
    rw [left]
    rfl

theorem onward_rejected {document : Document} (rejected : options.filter.accepts document = false)
    (readings : List Decoded) :
    options.onward skipped returned (.ok document :: readings) =
      options.onward skipped returned readings := by
  simp only [onward, Decoded.keep_ok, rejected, Bool.false_eq_true, if_false]

theorem onward_skipped {document : Document} (accepted : options.filter.accepts document = true)
    (early : skipped < options.skip) (readings : List Decoded) :
    options.onward skipped returned (.ok document :: readings) =
      options.onward (skipped + 1) returned readings := by
  obtain ⟨count, left⟩ : ∃ count, options.skip - skipped = count + 1 :=
    Nat.exists_eq_succ_of_ne_zero (by omega)
  have next : options.skip - (skipped + 1) = count := by omega
  simp only [onward, Decoded.keep_ok, accepted, if_true, left, next, Decoded.skip]

theorem onward_returned {document : Document} (accepted : options.filter.accepts document = true)
    (behind : options.skip ≤ skipped)
    (wanting : ¬(0 < options.limit ∧ options.limit ≤ returned)) (readings : List Decoded) :
    options.onward skipped returned (.ok document :: readings) =
      .ok (options.view document) :: options.onward skipped (returned + 1) readings := by
  simp only [onward, Decoded.keep_ok, accepted, if_true, Nat.sub_eq_zero_of_le behind, Decoded.skip]
  split
  · rfl
  · obtain ⟨count, left⟩ : ∃ count, options.limit - returned = count + 1 :=
      Nat.exists_eq_succ_of_ne_zero (by omega)
    have next : options.limit - (returned + 1) = count := by omega
    rw [left, next]
    rfl

def only (filter : Filter) : FindOptions := { filter }

theorem walk_only (filter : Filter) (readings : List Decoded) :
    (only filter).walk readings = Decoded.keep filter.accepts readings := by
  have same : Except.map (only filter).view = (id : Decoded → Decoded) := by
    funext reading
    cases reading <;> rfl
  rw [walk, onward, same, List.map_id]
  exact Decoded.skip_zero _

theorem walk_scan (readings : List Decoded) : scan.walk readings = readings := by
  refine (walk_only .all readings).trans (List.filter_eq_self.mpr ?_)
  rintro (fault | document) _ <;> rfl

end FindOptions
end MetadataClient
