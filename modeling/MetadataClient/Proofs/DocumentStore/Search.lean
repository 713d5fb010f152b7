import MetadataClient.Proofs.DocumentStore.Refinement
import MetadataClient.Proofs.DocumentStore.Selection

/-! Searches. A cursor goes through the rows that a namespace had when it was opened. It shows
the documents that its options select from these rows and tells the faults on the way to
them, whatever is done with the store in the meantime. -/
namespace MetadataClient
namespace Cursor

structure Move where
  answer : Except StoreError Bool
  current : Option Document
  returned : Nat

namespace Move

/-- What is seen when the next thing is met, and what is behind it. -/
def next (returned : Nat) : List Decoded → Move × List Decoded
  | [] => (⟨.ok false, none, returned⟩, [])
  | .error fault :: later => (⟨.error (.document fault), none, returned⟩, later)
  | .ok document :: later => (⟨.ok true, some document, returned + 1⟩, later)

def along (returned : Nat) (ahead : List Decoded) : Nat → List Move
  | 0 => []
  | steps + 1 =>
    (next returned ahead).1 ::
      along (next returned ahead).1.returned (next returned ahead).2 steps

def failure? (move : Move) : Option StoreError :=
  match move.answer with
  | .ok _ => none
  | .error error => some error

theorem length_along (returned : Nat) (ahead : List Decoded) (steps : Nat) :
    (along returned ahead steps).length = steps := by
  induction steps generalizing returned ahead with
  | zero => rfl
  | succ steps ih => rw [along, List.length_cons, ih]

theorem along_add (returned : Nat) (ahead : List Decoded) (first second : Nat) :
    along returned ahead (first + second) = along returned ahead first ++
      along (returned + (Decoded.documents (ahead.take first)).length) (ahead.drop first) second := by
  induction first generalizing returned ahead with
  | zero => simp [along]
  | succ first ih =>
    rw [Nat.add_right_comm, along, along, List.cons_append, ih]
    cases ahead with
    | nil => simp [next]
    | cons reading later =>
      cases reading with
      | error fault => rfl
      | ok document =>
        simp only [next, List.take_succ_cons, List.drop_succ_cons, Decoded.documents_ok,
          List.length_cons, Nat.add_assoc, Nat.add_comm 1]

theorem current_along (returned : Nat) (ahead : List Decoded) (steps : Nat) :
    (along returned ahead steps).filterMap Move.current =
      Decoded.documents (ahead.take steps) := by
  induction steps generalizing returned ahead with
  | zero => rfl
  | succ steps ih =>
    rw [along]
    cases ahead with
    | nil => exact (ih returned []).trans (by rw [List.take_nil, List.take_nil])
    | cons reading later =>
      cases reading with
      | error fault => exact ih returned later
      | ok document => exact congrArg (document :: ·) (ih (returned + 1) later)

theorem failure_along (returned : Nat) (ahead : List Decoded) (steps : Nat) :
    (along returned ahead steps).filterMap failure? =
      (Decoded.faults (ahead.take steps)).map .document := by
  induction steps generalizing returned ahead with
  | zero => rfl
  | succ steps ih =>
    rw [along]
    cases ahead with
    | nil => exact (ih returned []).trans (by rw [List.take_nil, List.take_nil])
    | cons reading later =>
      cases reading with
      | error fault => exact congrArg (StoreError.document fault :: ·) (ih returned later)
      | ok document => exact ih (returned + 1) later

/-- A move in the middle meets what the moves before it have left. -/
theorem along_eq_append {ahead : List Decoded} {steps : Nat} {before after : List Move}
    {move : Move} (split : along 0 ahead steps = before ++ move :: after) :
    before = along 0 ahead before.length ∧
      ∃ returned, returned = (Decoded.documents (ahead.take before.length)).length ∧
        move = (next returned (ahead.drop before.length)).1 ∧
        after = along move.returned (next returned (ahead.drop before.length)).2 after.length := by
  have counted : steps = before.length + (after.length + 1) := by
    rw [← length_along 0 ahead steps, split, List.length_append, List.length_cons]
  rw [counted, along_add, Nat.zero_add, along] at split
  obtain ⟨first, second⟩ := List.append_inj split (length_along ..)
  rw [List.cons.injEq] at second
  refine ⟨first.symm, _, rfl, second.1.symm, ?_⟩
  rw [← second.1]
  exact second.2.symm

theorem next_current_iff (returned : Nat) (ahead : List Decoded) :
    (next returned ahead).1.current.isSome ↔ (next returned ahead).1.answer = .ok true := by
  rcases ahead with _ | ⟨fault | document, later⟩ <;> simp [next]

theorem next_returned (returned : Nat) (ahead : List Decoded) :
    (next returned ahead).1.returned =
      returned + (Decoded.documents (ahead.take 1)).length := by
  rcases ahead with _ | ⟨fault | document, later⟩ <;> simp [next]

theorem eq_nil_of_next_false {returned : Nat} {ahead : List Decoded}
    (ended : (next returned ahead).1.answer = .ok false) : ahead = [] := by
  rcases ahead with _ | ⟨fault | document, later⟩
  · rfl
  · simp [next] at ended
  · simp [next] at ended

/-- Nothing is left when the end is told. -/
theorem drop_of_ended {ahead : List Decoded} {steps : Nat} {before after : List Move} {move : Move}
    (split : along 0 ahead steps = before ++ move :: after) (last : move.answer = .ok false) :
    ahead.drop before.length = [] := by
  obtain ⟨-, returned, -, met, -⟩ := along_eq_append split
  exact eq_nil_of_next_false (met ▸ last)

theorem along_nil (returned steps : Nat) :
    along returned [] steps = List.replicate steps ⟨.ok false, none, returned⟩ := by
  induction steps with
  | zero => rfl
  | succ steps ih => rw [along, List.replicate_succ, next, ih]

/-- The moves of a cursor over these readings. Each meets what comes next on the way. So what
the options select is shown from the first document on, every fault on the way is told once,
and the end is told when there is nothing more to be met, and ever after. -/
structure Shows (options : FindOptions) (readings : List Decoded) (moves : List Move) : Prop where
  met : moves = along 0 (options.walk readings) moves.length
  shown : moves.filterMap Move.current <+: options.select (Decoded.documents readings)
  failed : moves.filterMap failure? =
    (Decoded.faults ((options.walk readings).take moves.length)).map .document
  ended (before : List Move) (move : Move) (after : List Move)
    (split : moves = before ++ move :: after) (last : move.answer = .ok false) :
    before.filterMap Move.current = options.select (Decoded.documents readings) ∧
      ∀ later ∈ after, later.answer = .ok false
  ends : (options.walk readings).length < moves.length → ∃ move ∈ moves, move.answer = .ok false
  current (move : Move) (member : move ∈ moves) :
    move.current.isSome ↔ move.answer = .ok true
  returned (before : List Move) (move : Move) (after : List Move)
    (split : moves = before ++ move :: after) :
    move.returned = ((before ++ [move]).filterMap Move.current).length

theorem Shows.take_of_ended {options : FindOptions} {readings : List Decoded} {moves : List Move}
    (shows : Shows options readings moves) (ended : ∃ move ∈ moves, move.answer = .ok false) :
    (options.walk readings).take moves.length = options.walk readings := by
  obtain ⟨move, member, last⟩ := ended
  obtain ⟨before, after, split⟩ := List.append_of_mem member
  have none := drop_of_ended (shows.met.symm.trans split) last
  apply List.take_of_length_le
  rw [split, List.length_append]
  exact (List.drop_eq_nil_iff.mp none).trans (Nat.le_add_right ..)

theorem along_shows (options : FindOptions) (readings : List Decoded) (steps : Nat) :
    Shows options readings (along 0 (options.walk readings) steps) := by
  constructor
  · rw [length_along]
  · rw [current_along, ← FindOptions.documents_walk]
    exact (List.take_prefix ..).filterMap _
  · rw [failure_along, length_along]
  · intro before move after split last
    obtain ⟨first, returned, -, -, behind⟩ := along_eq_append split
    have none := drop_of_ended split last
    have whole : (options.walk readings).take before.length = options.walk readings :=
      List.take_of_length_le (List.drop_eq_nil_iff.mp none)
    constructor
    · rw [first, current_along, whole, FindOptions.documents_walk]
    · intro later member
      rw [behind, none, next, along_nil] at member
      rw [List.eq_of_mem_replicate member]
  · intro more
    rw [length_along] at more
    obtain ⟨count, rfl⟩ := Nat.exists_eq_add_of_lt more
    refine ⟨⟨.ok false, none, (Decoded.documents (options.walk readings)).length⟩, ?_, rfl⟩
    rw [Nat.add_assoc, along_add, List.drop_length, List.take_length, along_nil, Nat.zero_add]
    exact List.mem_append_right _ (List.mem_replicate.mpr ⟨Nat.succ_ne_zero _, rfl⟩)
  · intro move member
    obtain ⟨before, after, split⟩ := List.append_of_mem member
    obtain ⟨-, returned, -, met, -⟩ := along_eq_append split
    rw [met]
    exact next_current_iff ..
  · intro before move after split
    obtain ⟨first, returned, counted, met, -⟩ := along_eq_append split
    have all : before ++ [move] = along 0 (options.walk readings) (before.length + 1) := by
      rw [along_add, Nat.zero_add, ← first, along, along, ← counted, ← met]
    rw [all, current_along, met, next_returned, counted, List.take_add, Decoded.documents,
      Decoded.documents, Decoded.documents, List.filterMap_append, List.length_append]

end Move

/-- What is going to be met by a cursor. -/
def pending (cursor : Cursor) : List Decoded :=
  match cursor.ahead with
  | none => []
  | some rows => cursor.options.onward cursor.skipped cursor.returned (Decoded.ofRows rows)

theorem look_onward {options : FindOptions} {skipped returned : Nat}
    (wanting : ¬(0 < options.limit ∧ options.limit ≤ returned)) (rows : List (Nat × Bytes)) :
    options.onward skipped returned (Decoded.ofRows rows) =
      match look options skipped rows with
      | (.document document ahead, after) => .ok (options.view document) ::
          options.onward after (returned + 1) (Decoded.ofRows ahead)
      | (.unreadable fault ahead, after) => .error fault ::
          options.onward after returned (Decoded.ofRows ahead)
      | (.nothing, _) => [] := by
  fun_induction look options skipped rows with
  | case1 skipped => exact FindOptions.onward_nil
  | case2 skipped number bytes ahead fault decoded =>
    rw [Decoded.ofRows_cons, decoded, FindOptions.onward_error wanting]
  | case3 skipped number bytes ahead document decoded rejected ih =>
    rw [Decoded.ofRows_cons, decoded, FindOptions.onward_rejected (by simpa using rejected)]
    exact ih
  | case4 skipped number bytes ahead document decoded accepted early ih =>
    rw [Decoded.ofRows_cons, decoded, FindOptions.onward_skipped (by simpa using accepted) early]
    exact ih
  | case5 skipped number bytes ahead document decoded accepted behind =>
    rw [Decoded.ofRows_cons, decoded, FindOptions.onward_returned (by simpa using accepted)
      (Nat.le_of_not_lt behind) wanting]

/-- An advance meets the first of what is pending and leaves the rest. -/
theorem advance_next (cursor : Cursor) : ∃ after,
    cursor.advance = ((Move.next cursor.returned cursor.pending).1.answer, after) ∧
      after.current = (Move.next cursor.returned cursor.pending).1.current ∧
      after.returned = (Move.next cursor.returned cursor.pending).1.returned ∧
      after.pending = (Move.next cursor.returned cursor.pending).2 := by
  rw [advance]
  split
  next satisfied =>
    have none : cursor.pending = [] := by
      rw [pending]
      split
      · rfl
      · apply FindOptions.onward_satisfied
        simpa [isSatisfied] using satisfied
    rw [none]
    exact ⟨_, rfl, rfl, rfl, rfl⟩
  next unsatisfied =>
    have wanting : ¬(0 < cursor.options.limit ∧ cursor.options.limit ≤ cursor.returned) := by
      simpa [isSatisfied] using unsatisfied
    cases rest : cursor.ahead with
    | none =>
      have none : cursor.pending = [] := by rw [pending, rest]
      rw [none]
      exact ⟨_, rfl, rfl, rfl, rfl⟩
    | some rows =>
      have met : cursor.pending = cursor.options.onward cursor.skipped cursor.returned
          (Decoded.ofRows rows) := by rw [pending, rest]
      rw [met, look_onward wanting]
      dsimp only
      rcases look cursor.options cursor.skipped rows with ⟨document | fault | _, after⟩
      · exact ⟨_, rfl, rfl, rfl, rfl⟩
      · exact ⟨_, rfl, rfl, rfl, rfl⟩
      · exact ⟨_, rfl, rfl, rfl, rfl⟩

inductive Event
  | advance
  | change (call : DocumentStore.Call) (lasting : call ≠ .reopen)

def advances : List Event → Nat
  | [] => 0
  | .advance :: events => advances events + 1
  | .change .. :: events => advances events

def moves (store : DocumentStore) (cursor : Cursor) : List Event → List Move
  | [] => []
  | .advance :: events =>
    let (answer, after) := cursor.advance
    ⟨answer, after.current, after.returned⟩ :: moves store after events
  | .change call _ :: events =>
    match store.call call with
    | .ok (after, _) => moves after cursor events
    | .error _ => moves store cursor events

/-- Nothing that is done with the store is seen. -/
theorem moves_eq_along (store : DocumentStore) (cursor : Cursor) (events : List Event) :
    cursor.moves store events = Move.along cursor.returned cursor.pending (advances events) := by
  induction events generalizing store cursor with
  | nil => rfl
  | cons event events ih =>
    cases event with
    | advance =>
      obtain ⟨after, moved, current, returned, pending⟩ := cursor.advance_next
      rw [moves, moved, advances, Move.along]
      dsimp only
      rw [ih, current, returned, pending]
    | change call lasting =>
      rw [moves, advances]
      split
      · exact ih _ cursor
      · exact ih store cursor

end Cursor

namespace DocumentStore

/-- A search of a namespace fails if its table cannot be opened. Otherwise its cursor shows
what the options select from the rows that are in the table now. -/
def Searches (store : DocumentStore) (source : String) (options : FindOptions) : Prop :=
  match store.rows? source with
  | .error error => store.find source options = .error error
  | .ok rows => ∃ cursor, store.find source options = .ok cursor ∧ cursor.current = none ∧
      cursor.returned = 0 ∧ ∀ events, (cursor.moves store events).length = Cursor.advances events ∧
        Cursor.Move.Shows options (Decoded.ofRows (rows.getD .empty).entries)
          (cursor.moves store events)

theorem find_pending {store : DocumentStore} {source : String} {rows : Option Rows}
    (opened : store.rows? source = .ok rows) (options : FindOptions) :
    ∃ cursor, store.find source options = .ok cursor ∧ cursor.source = source ∧
      cursor.current = none ∧ cursor.returned = 0 ∧
      cursor.pending = options.walk (Decoded.ofRows (rows.getD .empty).entries) := by
  rw [find, opened]
  refine ⟨_, rfl, rfl, rfl, rfl, ?_⟩
  cases rows with
  | none => exact FindOptions.onward_nil.symm
  | some rows => rfl

theorem searches (store : DocumentStore) (source : String) (options : FindOptions) :
    store.Searches source options := by
  rw [Searches]
  cases opened : store.rows? source with
  | error error =>
    rw [find, opened]
    rfl
  | ok rows =>
    obtain ⟨cursor, found, -, current, returned, pending⟩ := find_pending opened options
    refine ⟨cursor, found, current, returned, ?_⟩
    intro events
    rw [Cursor.moves_eq_along, returned, pending, Cursor.Move.length_along]
    exact ⟨rfl, Cursor.Move.along_shows ..⟩

end DocumentStore
end MetadataClient
