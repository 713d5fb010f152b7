import MetadataClient.Client
import MetadataClient.Proofs.DocumentStore.Search

/-! The course of a listing. A listing meets the documents of its rows one after the other,
well-formed or not, up to the first row that cannot be read at all. From there on it meets
nothing, although its cursor would go on behind that row. -/
namespace MetadataClient

namespace Decoded

def leading : List Decoded → List Document
  | .ok document :: rest => document :: leading rest
  | _ => []

def fault? : List Decoded → Option Json.Fault
  | [] => none
  | .ok _ :: rest => fault? rest
  | .error fault :: _ => some fault

end Decoded

/-- The rows hold these documents, up to the first row that cannot be read or to the end. -/
structure Rows.Lead (rows : List (Nat × Bytes)) (documents : List Document) : Prop where
  hold : Rows.Hold (rows.take documents.length) documents
  stop : ∀ row, rows[documents.length]? = some row →
    ∃ fault, Document.decode row.2 = .error fault ∧ Decoded.fault? (Decoded.ofRows rows) = some fault
  complete : rows.length ≤ documents.length → Decoded.fault? (Decoded.ofRows rows) = none

theorem Rows.lead_leading (rows : List (Nat × Bytes)) :
    Rows.Lead rows (Decoded.leading (Decoded.ofRows rows)) := by
  induction rows with
  | nil => exact ⟨.nil, nofun, fun _ => rfl⟩
  | cons row rows ih =>
    rw [Decoded.ofRows_cons]
    cases decoded : Document.decode row.2 with
    | error fault =>
      refine ⟨.nil, ?_, ?_⟩
      · rintro _ ⟨⟩
        refine ⟨fault, decoded, ?_⟩
        rw [Decoded.ofRows_cons, decoded]
        rfl
      · intro none
        exact absurd none (Nat.not_succ_le_zero _)
    | ok document =>
      refine ⟨.cons decoded ih.hold, ?_, ?_⟩
      · rw [Decoded.ofRows_cons, decoded]
        exact ih.stop
      · rw [Decoded.ofRows_cons, decoded]
        exact fun all => ih.complete (Nat.le_of_succ_le_succ all)

theorem Rows.Lead.eq_leading {rows : List (Nat × Bytes)} {documents : List Document}
    (lead : Rows.Lead rows documents) : documents = Decoded.leading (Decoded.ofRows rows) := by
  induction rows generalizing documents with
  | nil =>
    have held := lead.hold
    rw [List.take_nil] at held
    cases held
    rfl
  | cons row rows ih =>
    rw [Decoded.ofRows_cons]
    cases documents with
    | nil =>
      obtain ⟨fault, decoded, -⟩ := lead.stop row rfl
      rw [decoded]
      rfl
    | cons document documents =>
      obtain ⟨hold, stop, complete⟩ := lead
      rw [List.length_cons, List.take_succ_cons] at hold
      cases hold with
      | cons decoded hold =>
        rw [Decoded.ofRows_cons, decoded] at stop complete
        rw [decoded, Decoded.leading, ← ih ⟨hold, stop, fun all => complete (Nat.succ_le_succ all)⟩]

namespace Cursor

theorem advance_source (cursor : Cursor) : cursor.advance.2.source = cursor.source := by
  rw [advance]
  split
  · rfl
  · split
    · rfl
    · split <;> rfl

end Cursor

namespace Listing

variable {listing : Listing}

def complaint (source : String) (returned : Nat) (fault : Json.Fault) : String :=
  "Cursor on " ++ source ++ " failed after " ++ toString returned ++ " entries: "
    ++ (StoreError.document fault).message

theorem advance_meets (running : listing.failed = false) :
    ∃ after : Cursor, after.source = listing.cursor.source ∧
      match listing.cursor.pending with
      | [] => listing.advance = ⟨false, { listing with cursor := after }, []⟩ ∧
          after.current = none ∧ after.returned = listing.cursor.returned ∧ after.pending = []
      | .error fault :: _ => listing.advance = ⟨false, { listing with cursor := after, failed := true },
            [complaint listing.cursor.source listing.cursor.returned fault]⟩ ∧
          after.current = none
      | .ok document :: later => listing.advance = ⟨true, { listing with cursor := after }, []⟩ ∧
          after.current = some document ∧ after.returned = listing.cursor.returned + 1 ∧
          after.pending = later := by
  obtain ⟨after, moved, shows, counted, pending⟩ := listing.cursor.advance_next
  have source : after.source = listing.cursor.source := by
    rw [← listing.cursor.advance_source, moved]
  refine ⟨after, source, ?_⟩
  rw [advance, running, if_neg Bool.false_ne_true, moved]
  generalize listing.cursor.pending = ahead at shows counted pending
  rcases ahead with _ | ⟨fault | document, later⟩
  · exact ⟨rfl, shows, counted, pending⟩
  · refine ⟨?_, shows⟩
    have counted : after.returned = listing.cursor.returned := counted
    simp only [Cursor.Move.next, complaint, source, counted]
  · exact ⟨rfl, shows, counted, pending⟩

/-! ## Watching a listing -/

/-- A use of a listing. To take is to move on and get what is there, as loops over a listing
do. -/
inductive Event
  | next
  | get
  | take
deriving DecidableEq

def Event.moves (event : Event) : Bool :=
  event ≠ .get

inductive Sight
  | found (more : Bool)
  | collection (answer : Except Error Collection)
  | taken (item : Option (Except Error Collection))

def meet (listing : Listing) : Event → Sight × Listing × List String
  | .next => (.found listing.advance.found, listing.advance.listing, listing.advance.warnings)
  | .get => (.collection listing.current, listing, [])
  | .take =>
    let step := listing.advance
    (.taken (if step.found then some step.listing.current else none), step.listing, step.warnings)

def watch (listing : Listing) : List Event → List Sight × List String
  | [] => ([], [])
  | event :: rest =>
    let (sight, after, warnings) := listing.meet event
    let (sights, more) := after.watch rest
    (sight :: sights, warnings ++ more)

/-! ## What there is to be seen -/

def shown (documents : List Document) : Nat → Option Document
  | 0 => none
  | moves + 1 => documents[moves]?

def Sight.expected (store : Store) (documents : List Document) (moves : Nat) : Event → Sight
  | .next => .found (decide (moves < documents.length))
  | .get => .collection ((shown documents moves).elim (.error .noCurrentEntry)
      (Collection.ofDocument store))
  | .take => .taken (documents[moves]?.map (Collection.ofDocument store))

/-- The listing was moved so many times over these documents. -/
structure Stands (listing : Listing) (store : Store) (documents : List Document) (moves : Nat) :
    Prop where
  store : listing.store = store
  ahead : listing.failed = false → Decoded.leading listing.cursor.pending = documents.drop moves
  failed : listing.failed = true → documents.length < moves
  current : listing.cursor.current = shown documents moves

variable {store : Store} {documents : List Document} {moves : Nat}

theorem Stands.current_eq (stands : listing.Stands store documents moves) :
    listing.current =
      (shown documents moves).elim (.error .noCurrentEntry) (Collection.ofDocument store) := by
  rw [Listing.current, stands.current, stands.store]
  cases shown documents moves <;> rfl

theorem shown_behind (behind : documents.length < moves) : shown documents moves = none := by
  cases moves with
  | zero => rfl
  | succ moves => exact List.getElem?_eq_none (Nat.le_of_lt_succ behind)

theorem advance_inside (stands : listing.Stands store documents moves)
    (inside : moves < documents.length) :
    listing.advance.found = true ∧
      listing.advance.listing.Stands store documents (moves + 1) := by
  obtain ⟨sameStore, ahead, failed, -⟩ := stands
  have running : listing.failed = false := by
    apply Bool.eq_false_iff.mpr
    intro stopped
    exact absurd (failed stopped) (Nat.not_lt_of_lt inside)
  have lead := ahead running
  rw [List.drop_eq_getElem_cons inside] at lead
  obtain ⟨after, -, meets⟩ := advance_meets running
  rcases met : listing.cursor.pending with _ | ⟨fault | document, later⟩
  · rw [met] at lead
    cases lead
  · rw [met] at lead
    cases lead
  · rw [met] at lead meets
    obtain ⟨moved, some, -, pending⟩ := meets
    obtain ⟨here, behind⟩ := List.cons.inj lead
    rw [moved]
    refine ⟨rfl, sameStore, ?_, ?_, ?_⟩
    · intro _
      exact (congrArg Decoded.leading pending).trans behind
    · intro stopped
      cases running.symm.trans stopped
    · rw [some, shown, List.getElem?_eq_getElem inside, here]

/-- Behind the documents a move meets nothing, and no later one will. -/
theorem advance_behind (stands : listing.Stands store documents moves)
    (behind : documents.length ≤ moves) :
    listing.advance.found = false ∧
      listing.advance.listing.Stands store documents (moves + 1) := by
  obtain ⟨sameStore, ahead, failed, current⟩ := stands
  have ended : documents.length < moves + 1 := Nat.lt_succ_of_le behind
  cases stopped : listing.failed with
  | true =>
    rw [advance, stopped, if_pos rfl]
    refine ⟨rfl, sameStore, ?_, fun _ => ended, ?_⟩
    · intro running
      cases stopped.symm.trans running
    · rw [current, shown_behind (failed stopped), shown_behind ended]
  | false =>
    have lead := ahead stopped
    rw [List.drop_eq_nil_of_le behind] at lead
    obtain ⟨after, -, meets⟩ := advance_meets stopped
    rcases met : listing.cursor.pending with _ | ⟨fault | document, later⟩
    · rw [met] at meets
      obtain ⟨moved, none, -, pending⟩ := meets
      rw [moved]
      refine ⟨rfl, sameStore, ?_, fun _ => ended, none.trans (shown_behind ended).symm⟩
      intro _
      rw [pending, List.drop_eq_nil_of_le (Nat.le_of_lt ended)]
      rfl
    · rw [met] at meets
      obtain ⟨moved, none⟩ := meets
      rw [moved]
      exact ⟨rfl, sameStore, nofun, fun _ => ended, none.trans (shown_behind ended).symm⟩
    · rw [met] at lead
      cases lead

theorem advance_stands (stands : listing.Stands store documents moves) :
    listing.advance.found = decide (moves < documents.length) ∧
      listing.advance.listing.Stands store documents (moves + 1) := by
  by_cases inside : moves < documents.length
  · rw [decide_eq_true inside]
    exact advance_inside stands inside
  · rw [decide_eq_false inside]
    exact advance_behind stands (Nat.le_of_not_lt inside)

theorem meet_stands (stands : listing.Stands store documents moves) (event : Event) :
    (listing.meet event).1 = .expected store documents moves event ∧
      (listing.meet event).2.1.Stands store documents (moves + event.moves.toNat) := by
  obtain ⟨found, next⟩ := advance_stands stands
  cases event with
  | next => exact ⟨congrArg Sight.found found, next⟩
  | get => exact ⟨congrArg Sight.collection stands.current_eq, stands⟩
  | take =>
    refine ⟨?_, next⟩
    simp only [meet, Sight.expected, found, next.current_eq, shown]
    by_cases inside : moves < documents.length
    · simp [inside]
    · simp [inside]

def moved (events : List Event) : Nat :=
  events.countP Event.moves

theorem moved_cons (event : Event) (events : List Event) :
    moved (event :: events) = event.moves.toNat + moved events := by
  rw [moved, List.countP_cons, moved, Nat.add_comm]
  cases event.moves <;> rfl

theorem watch_stands (stands : listing.Stands store documents moves) (events : List Event)
    (position : Nat) :
    (listing.watch events).1[position]? = events[position]?.map
      (.expected store documents (moves + moved (events.take position))) := by
  induction events generalizing listing moves position with
  | nil => rfl
  | cons event events ih =>
    obtain ⟨seen, next⟩ := meet_stands stands event
    rw [watch]
    cases position with
    | zero => exact congrArg some seen
    | succ position =>
      rw [List.getElem?_cons_succ, List.take_succ_cons, moved_cons, ← Nat.add_assoc,
        List.getElem?_cons_succ]
      exact ih next position

/-! ## Warnings -/

def alarms (listing : Listing) (moves : Nat) : List String :=
  if listing.failed then []
  else if (Decoded.leading listing.cursor.pending).length < moves then
    (Decoded.fault? listing.cursor.pending).toList.map
      (complaint listing.cursor.source
        (listing.cursor.returned + (Decoded.leading listing.cursor.pending).length))
  else []

theorem alarms_zero (listing : Listing) : listing.alarms 0 = [] := by
  rw [alarms, if_neg (Nat.not_lt_zero _), ite_self]

theorem advance_alarms (listing : Listing) (moves : Nat) :
    listing.alarms (moves + 1) =
      listing.advance.warnings ++ listing.advance.listing.alarms moves := by
  cases stopped : listing.failed with
  | true =>
    rw [advance, stopped, if_pos rfl, alarms, alarms, stopped]
    rfl
  | false =>
    obtain ⟨after, source, meets⟩ := advance_meets stopped
    rw [alarms, stopped, if_neg Bool.false_ne_true]
    rcases met : listing.cursor.pending with _ | ⟨fault | document, later⟩
    · rw [met] at meets
      obtain ⟨moved, -, -, pending⟩ := meets
      rw [moved, alarms, pending]
      simp [Decoded.fault?]
    · rw [met] at meets
      obtain ⟨moved, -⟩ := meets
      have first : (Decoded.leading (.error fault :: later)).length < moves + 1 :=
        Nat.succ_pos moves
      rw [moved, alarms, if_pos first]
      rfl
    · rw [met] at meets
      obtain ⟨moved, -, returned, pending⟩ := meets
      rw [moved, alarms, stopped, pending, returned, source]
      simp only [Decoded.leading, Decoded.fault?, List.length_cons, Nat.add_lt_add_iff_right,
        Bool.false_eq_true, if_false, List.nil_append, Nat.add_assoc, Nat.add_comm 1]

theorem meet_alarms (listing : Listing) (event : Event) (moves : Nat) :
    listing.alarms (event.moves.toNat + moves) =
      (listing.meet event).2.2 ++ (listing.meet event).2.1.alarms moves := by
  have moving := advance_alarms listing moves
  rw [Nat.add_comm] at moving
  cases event with
  | get => exact congrArg listing.alarms (Nat.zero_add moves)
  | next => exact moving
  | take => exact moving

theorem watch_alarms (listing : Listing) (events : List Event) :
    (listing.watch events).2 = listing.alarms (moved events) := by
  induction events generalizing listing with
  | nil => exact (alarms_zero listing).symm
  | cons event events ih =>
    rw [watch, moved_cons, meet_alarms, ← ih]

theorem collect_eq (listing : Listing) :
    listing.collect = if listing.advance.found then
        (listing.advance.listing.current :: listing.advance.listing.collect.1,
          listing.advance.listing.collect.2)
      else ([], listing.advance.warnings) := by
  rw [collect]
  split
  next moved =>
    rw [moved]
    rfl
  next moved =>
    rw [moved]
    rfl

theorem warnings_of_found (found : listing.advance.found = true) :
    listing.advance.warnings = [] := by
  revert found
  rw [advance]
  split
  · intro found
    rfl
  · split
    · intro found
      rfl
    · intro found
      cases found

/-- A loop to the end meets all the documents. -/
theorem collect_stands (stands : listing.Stands store documents moves) :
    listing.collect = ((documents.drop moves).map (Collection.ofDocument store),
      listing.alarms (documents.length - moves + 1)) := by
  generalize left : documents.drop moves = rest
  induction rest generalizing listing moves with
  | nil =>
    have behind := List.drop_eq_nil_iff.mp left
    obtain ⟨found, -⟩ := advance_behind stands behind
    rw [collect_eq, found, Nat.sub_eq_zero_of_le behind, advance_alarms, alarms_zero,
      List.append_nil]
    rfl
  | cons document rest ih =>
    have inside : moves < documents.length := by
      apply Nat.lt_of_not_le
      intro none
      rw [List.drop_eq_nil_of_le none] at left
      cases left
    rw [List.drop_eq_getElem_cons inside, List.cons.injEq] at left
    obtain ⟨here, left⟩ := left
    obtain ⟨found, next⟩ := advance_inside stands inside
    have warned : listing.alarms (documents.length - moves + 1) =
        listing.advance.listing.alarms (documents.length - (moves + 1) + 1) := by
      have more : documents.length - moves = documents.length - (moves + 1) + 1 := by omega
      rw [more, advance_alarms, warnings_of_found found, List.nil_append]
    rw [collect_eq, if_pos found, ih next left, next.current_eq, shown,
      List.getElem?_eq_getElem inside, here, warned]
    rfl

/-! ## The whole course -/

/-- What is seen of a listing over rows that begin with these documents. -/
structure Passes (listing : Listing) (store : Store) (rows : List (Nat × Bytes))
    (documents : List Document) : Prop where
  seen (events : List Event) (position : Nat) : (listing.watch events).1[position]? =
    events[position]?.map (.expected store documents (moved (events.take position)))
  warned (events : List Event) : (listing.watch events).2 =
    if documents.length < moved events then
      (Decoded.fault? (Decoded.ofRows rows)).toList.map
        (complaint (Store.listing store.name) documents.length)
    else []
  once (events : List Event) : (listing.watch events).2.length ≤ 1
  collected : listing.collect = (documents.map (Collection.ofDocument store),
    (Decoded.fault? (Decoded.ofRows rows)).toList.map
      (complaint (Store.listing store.name) documents.length))

theorem find_pending {kept : DocumentStore} {source : String} {rows : Option Rows}
    (held : kept.rows? source = .ok rows) :
    ∃ cursor, kept.find source .scan = .ok cursor ∧ cursor.source = source ∧
      cursor.current = none ∧ cursor.returned = 0 ∧
      cursor.pending = Decoded.ofRows (rows.getD .empty).entries := by
  have begins := DocumentStore.find_pending held .scan
  rwa [FindOptions.walk_scan] at begins

theorem passes_of_pending {cursor : Cursor} {rows : List (Nat × Bytes)}
    (source : cursor.source = Store.listing store.name) (current : cursor.current = none)
    (returned : cursor.returned = 0) (pending : cursor.pending = Decoded.ofRows rows)
    (loan : Loan Connection) :
    Passes ⟨store, cursor, loan, false⟩ store rows (Decoded.leading (Decoded.ofRows rows)) := by
  rw [← pending]
  have stands : Stands ⟨store, cursor, loan, false⟩ store (Decoded.leading cursor.pending) 0 :=
    ⟨rfl, fun _ => rfl, nofun, current⟩
  have alarms (moves : Nat) : alarms ⟨store, cursor, loan, false⟩ moves =
      if (Decoded.leading cursor.pending).length < moves then
        (Decoded.fault? (Decoded.ofRows rows)).toList.map
          (complaint (Store.listing store.name) (Decoded.leading cursor.pending).length)
      else [] := by
    rw [Listing.alarms, if_neg Bool.false_ne_true, ← pending, source, returned, Nat.zero_add]
  have warned (events : List Event) := (watch_alarms ⟨store, cursor, loan, false⟩ events).trans
    (alarms (moved events))
  refine ⟨?_, warned, ?_, ?_⟩
  · intro events position
    have seen := watch_stands stands events position
    rwa [Nat.zero_add] at seen
  · intro events
    rw [warned]
    split
    · rw [List.length_map]
      exact Option.length_toList_le
    · exact Nat.zero_le _
  · rw [collect_stands stands, alarms, Nat.sub_zero, if_pos (Nat.lt_succ_self _)]
    rfl

end Listing

theorem Client.openListing_of_find {client : Client} {store : Store} {cursor : Cursor}
    (found : client.service.store.find (Store.listing store.name) .scan = .ok cursor) :
    (∀ loan pool, client.service.pool.acquire metadataIndex = (.granted loan, pool) →
      ∃ outcome, client.openListing store = some outcome ∧
        outcome.answer = .ok ⟨store, cursor, loan, false⟩) ∧
      ∀ outcome listing, client.openListing store = some outcome →
        outcome.answer = .ok listing → ∃ loan, listing = ⟨store, cursor, loan, false⟩ := by
  rw [openListing, withConnection]
  generalize client.service.pool.acquire metadataIndex = request
  obtain ⟨reply, pool⟩ := request
  refine ⟨?_, ?_⟩
  · rintro loan _ ⟨⟩
    simp only [found]
    exact ⟨_, rfl, rfl⟩
  · intro outcome listing opened answer
    cases reply with
    | waiting => cases opened
    | refused index | unreachable index error =>
      cases opened
      cases answer
    | granted loan =>
      simp only [found] at opened
      cases opened
      cases answer
      exact ⟨loan, rfl⟩

namespace Listing

/-- A listing can be started on every table and every connection. It meets what could be read
when it was started, up to the first row that cannot. -/
theorem opened_passes {client : Client} {store : Store} {rows : Option Rows}
    (held : client.service.store.rows? (Store.listing store.name) = .ok rows) :
    ∃ documents, Rows.Lead (rows.getD .empty).entries documents ∧
      (∀ loan pool, client.service.pool.acquire metadataIndex = (.granted loan, pool) →
        ∃ outcome listing, client.openListing store = some outcome ∧
          outcome.answer = .ok listing) ∧
      ∀ outcome listing, client.openListing store = some outcome → outcome.answer = .ok listing →
        listing.Passes store (rows.getD .empty).entries documents := by
  obtain ⟨cursor, found, source, current, returned, pending⟩ := find_pending held
  obtain ⟨opens, only⟩ := Client.openListing_of_find found
  refine ⟨_, Rows.lead_leading _, ?_, ?_⟩
  · intro loan pool granted
    obtain ⟨outcome, opened, answer⟩ := opens loan pool granted
    exact ⟨outcome, _, opened, answer⟩
  · intro outcome listing opened answer
    obtain ⟨loan, rfl⟩ := only outcome listing opened answer
    exact passes_of_pending source current returned pending loan

def torn : Rows :=
  ((SortedMap.empty.insert 3 Document.empty.encode).insert 5 []).insert 9 Document.empty.encode

def tornClient : Client :=
  .new ["m"] ⟨.empty, .insert .empty "s.collections" (.documents torn)⟩ 4 2

theorem opened_passes_torn :
    ∃ outcome listing documents, tornClient.openListing (.standard "s") = some outcome ∧
      outcome.answer = .ok listing ∧ documents.length = 1 ∧
      listing.Passes (.standard "s") torn.entries documents := by
  have held : tornClient.service.store.rows? (Store.listing (Store.standard "s").name) =
      .ok (some torn) := by rfl
  obtain ⟨documents, lead, opens, passes⟩ := opened_passes held
  obtain ⟨outcome, listing, opened, answer⟩ := opens _ _ rfl
  have single : (Decoded.leading (Decoded.ofRows torn.entries)).length = 1 := by decide +kernel
  exact ⟨outcome, listing, documents, opened, answer,
    (congrArg List.length lead.eq_leading).trans single, passes outcome listing opened answer⟩

end Listing
end MetadataClient
