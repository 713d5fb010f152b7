import MetadataClient.Proofs.DocumentStore.Naming

/-! Dropped namespaces. Namespaces do not influence each other, so a run of a store can be
restricted to some of them: what is used of the others can be left out. A namespace that is
dropped leaves no trace, neither in the store nor in the database that keeps it. -/
namespace MetadataClient
namespace DocumentStore

variable {source : String} {within : String → Prop} {store first second : DocumentStore}

/-- What is left of a use when only some namespaces are used. -/
def Call.restrict (within : String → Prop) [DecidablePred within] : Call → Option Call
  | .apply writes => some (.apply (writes.filter fun write => within write.target))
  | call => if ∀ target ∈ call.targets, within target then some call else none

/-- The same of what was attempted. It ended as it did. -/
def Event.restrict (within : String → Prop) [DecidablePred within] (event : Event) : Option Event :=
  (event.call.restrict within).map (⟨·, event.outcome⟩)

def Event.Succeeds (event : Event) : Prop :=
  ∃ reply, event.outcome = .ok reply

instance (event : Event) : Decidable event.Succeeds :=
  match ended : event.outcome with
  | .ok reply => .isTrue ⟨reply, ended⟩
  | .error _ => .isFalse fun ⟨_, succeeded⟩ => nomatch ended.symm.trans succeeded

/-! ## Uses of some namespaces -/

/-- A use of a single namespace. -/
def Call.On (source : String) (call : Call) : Prop :=
  Local source (respond · call) ∧ call.targets = [source] ∧
    ∀ (within : String → Prop) [DecidablePred within],
      call.restrict within = if within source then some call else none

/-- A use that is not of a single namespace is a transaction of several writes, or it closes the
store. -/
theorem call_cases (call : Call) :
    (∃ source, call.On source) ∨ (∃ writes, call = .apply writes) ∨ call = .reopen := by
  cases call with
  | insert source document =>
    have here := (insert_local source document).map Reply.number
    exact .inl ⟨source, here, rfl, by simp [Call.restrict, Call.targets]⟩
  | insertMany source documents =>
    have here := (insertMany_local source documents).map Reply.numbers
    exact .inl ⟨source, here, rfl, by simp [Call.restrict, Call.targets]⟩
  | delete source filter =>
    have here := (delete_local source filter).map Reply.removed
    exact .inl ⟨source, here, rfl, by simp [Call.restrict, Call.targets]⟩
  | apply writes => exact .inr (.inl ⟨writes, rfl⟩)
  | drop source =>
    have here := (drop_local source).map Reply.existed
    exact .inl ⟨source, here, rfl, by simp [Call.restrict, Call.targets]⟩
  | reopen => exact .inr (.inr rfl)

theorem respond_agree (agree : Agree within first second) {call : Call}
    (inside : ∀ target ∈ call.targets, within target) :
    Alike (fun result expected => Agree within result.1 expected.1 ∧ result.2 = expected.2)
      (first.respond call) (second.respond call) := by
  rcases call_cases call with ⟨source, here, single, -⟩ | ⟨writes, rfl⟩ | rfl
  · exact here.agree agree (inside source (single ▸ List.mem_singleton_self source))
  · apply (apply_agree agree (List.forall_mem_map.mp inside)).map
    intro after expected agree
    exact ⟨agree, rfl⟩
  · exact .ok ⟨agree, rfl⟩

/-- What is left of a use that succeeds has the same effect on the namespaces that are left, and
the same answer. -/
theorem respond_restrict [DecidablePred within] (agree : Agree within first second) {call : Call}
    {after : DocumentStore} {reply : Reply} (done : first.respond call = .ok (after, reply)) :
    match call.restrict within with
    | none => Agree within after second
    | some kept => ∃ expected, second.respond kept = .ok (expected, reply) ∧
        Agree within after expected := by
  rcases call_cases call with ⟨source, here, single, restricted⟩ | ⟨writes, rfl⟩ | rfl
  · rw [restricted]
    by_cases inside : within source
    · rw [if_pos inside]
      have alike := here.agree agree inside
      rw [done] at alike
      obtain ⟨⟨expected, _⟩, done', agree, rfl⟩ := alike.exists_of_ok
      exact ⟨expected, done', agree⟩
    · rw [if_neg inside]
      exact (here.outside done inside).symm.trans agree
  · obtain ⟨_, applied, same⟩ := exists_of_map done
    cases same
    obtain ⟨expected, applied', agree⟩ := apply_filter agree applied
    refine ⟨expected, ?_, agree⟩
    rw [respond, applied']
    rfl
  · cases done
    exact ⟨second, rfl, agree⟩

/-! ## Histories of some namespaces -/

theorem history_agree (agree : Agree within first second) {calls : List Call}
    (inside : ∀ call ∈ calls, ∀ target ∈ call.targets, within target) :
    Agree within (history respond first calls).1 (history respond second calls).1 ∧
      (history respond first calls).2 = (history respond second calls).2 := by
  apply history_alike (Agree within) _ agree
  intro first second agree call member
  exact respond_agree agree (inside call member)

/-- If nothing fails, all that is used of other namespaces can be left out of a run. What remains
has the same effect and the same answers. -/
theorem history_restrict [DecidablePred within] (agree : Agree within first second)
    {calls : List Call} (fine : ∀ event ∈ (history respond first calls).2, event.Succeeds) :
    Agree within (history respond first calls).1
        (history respond second (calls.filterMap (Call.restrict within))).1 ∧
      (history respond first calls).2.filterMap (Event.restrict within) =
        (history respond second (calls.filterMap (Call.restrict within))).2 := by
  induction calls generalizing first second with
  | nil => exact ⟨agree, rfl⟩
  | cons call calls ih =>
    rw [history] at fine ⊢
    cases done : first.respond call with
    | error error =>
      rw [done] at fine
      obtain ⟨reply, same⟩ := fine _ List.mem_cons_self
      cases same
    | ok result =>
      obtain ⟨after, reply⟩ := result
      rw [done] at fine
      dsimp only at fine ⊢
      have left := respond_restrict agree done
      rw [List.filterMap_cons, List.filterMap_cons, Event.restrict]
      cases kept : call.restrict within with
      | none =>
        rw [kept] at left
        exact ih left (List.forall_mem_cons.mp fine).2
      | some kept' =>
        rw [kept] at left
        obtain ⟨expected, done', agree⟩ := left
        obtain ⟨states, events⟩ := ih agree (List.forall_mem_cons.mp fine).2
        simp only [Option.map_some, history, done']
        exact ⟨states, congrArg (_ :: ·) events⟩

/-! ## Dropped namespaces -/

theorem drop_eq_of_agree (agree : Agree (· ≠ source) first second) :
    (first.drop source).1 = (second.drop source).1 := by
  apply eq_of_agree
  intro other _
  by_cases same : source = other
  · subst same
    exact (drop_sameAt_empty first source).trans (drop_sameAt_empty second source).symm
  · have before : SameAt other first (first.drop source).1 := (drop_local source).apart rfl same
    have after : SameAt other second (second.drop source).1 := (drop_local source).apart rfl same
    exact before.symm.trans ((agree other (Ne.symm same)).trans after)

/-- A namespace is as if it had never been written to, now and for whatever is going to happen. -/
structure Fresh (source : String) (store : DocumentStore) : Prop where
  find (options : FindOptions) : store.find source options = empty.find source options
  count : store.count source = .ok 0
  unlisted : source ∉ store.namespaces
  delete (filter : Filter) : store.delete source filter = .ok (store, 0)
  insert (document : Document) : ∃ after, store.insert source document = .ok (after, 0)
  alone (calls : List Call) : (∀ call ∈ calls, ∀ target ∈ call.targets, target = source) →
    SameAt source (history respond store calls).1 (history respond empty calls).1 ∧
      (history respond store calls).2 = (history respond empty calls).2
  among (calls : List Call) : (∀ event ∈ (history respond store calls).2, event.Succeeds) →
    SameAt source (history respond store calls).1
        (history respond empty (calls.filterMap (Call.restrict (· = source)))).1 ∧
      (history respond store calls).2.filterMap (Event.restrict (· = source)) =
        (history respond empty (calls.filterMap (Call.restrict (· = source)))).2

theorem fresh_of_sameAt (same : SameAt source store empty) : Fresh source store := by
  have agree : Agree (· = source) store empty := by
    rintro other rfl
    exact same
  constructor
  · exact same.find
  · exact same.count
  · rw [same.mem_namespaces]
    exact List.not_mem_nil
  · exact delete_unregistered same.contains
  · intro document
    rw [insert_eq_insertEffect, insertEffect, same.rows?, same.nextNumber]
    exact ⟨_, rfl⟩
  · intro calls inside
    obtain ⟨states, events⟩ := history_agree agree inside
    exact ⟨states source rfl, events⟩
  · intro calls fine
    obtain ⟨states, events⟩ := history_restrict agree fine
    exact ⟨states source rfl, events⟩

/-- A namespace that is dropped takes its history with it. If nothing fails, the store is in the end
what it would be if the namespace had never been used, and all that was answered to the other
uses is the same. It is as if nothing had ever been written to the namespace. The same
holds of the names in a database: nothing is left of the table. -/
theorem drop_erases_history (store : DocumentStore) (source : String) (calls : List Call)
    (fine : ∀ event ∈ (history respond store calls).2, event.Succeeds) :
    let kept := calls.filterMap (Call.restrict (· ≠ source))
    (history respond store (calls ++ [.drop source])).1 =
        (history respond store (kept ++ [.drop source])).1 ∧
      (history respond store calls).2.filterMap (Event.restrict (· ≠ source)) =
        (history respond store kept).2 ∧
      (∀ other, other ≠ source →
        SameAt other (history respond store calls).1 (history respond store kept).1) ∧
      Fresh source (history respond store (calls ++ [.drop source])).1 ∧
      (∀ beside, ∃ database, Database.Keeps beside database store) ∧
      ∀ beside database, Database.Keeps beside database store →
        Database.Keeps beside (history Database.respond database calls).1
          (history respond store calls).1 ∧
        (history Database.respond database calls).2 = (history respond store calls).2 ∧
        (history Database.respond database (calls ++ [.drop source])).1 =
          (history Database.respond database (kept ++ [.drop source])).1 := by
  intro kept
  have self : Agree (· ≠ source) store store := fun other _ => SameAt.refl other store
  obtain ⟨agree, events⟩ := history_restrict self fine
  have erased : (history respond store (calls ++ [.drop source])).1 =
      (history respond store (kept ++ [.drop source])).1 := by
    rw [history_append, history_append]
    exact drop_eq_of_agree agree
  refine ⟨erased, events, agree, ?_, fun beside => Database.exists_keeps beside store, ?_⟩
  · rw [history_append]
    exact fresh_of_sameAt (drop_sameAt_empty _ source)
  · intro beside database keeps
    obtain ⟨after, same⟩ := Database.history_keeps keeps calls
    refine ⟨after, same, ?_⟩
    have first := (Database.history_keeps keeps (calls ++ [.drop source])).1
    have second := (Database.history_keeps keeps (kept ++ [.drop source])).1
    rw [erased] at first
    exact first.unique second

/-- There was an unreadable row before anything was inserted. Two namespaces are written to in one
transaction, and one of them is dropped. -/
theorem drop_erases_history_shared :
    let store := withRow empty "n" 3 []
    let calls : List Call := [.insert "n" .empty, .apply [.insert "n" .empty, .insert "m" .empty],
      .delete "m" .all, .insert "m" .empty]
    let kept : List Call := [.apply [.insert "m" .empty], .delete "m" .all, .insert "m" .empty]
    (history respond store (calls ++ [.drop "n"])).1 =
        (history respond store (kept ++ [.drop "n"])).1 ∧
      Fresh "n" (history respond store (calls ++ [.drop "n"])).1 ∧
      (history respond store kept).2.map Event.outcome =
        [.ok .done, .ok (.removed 1), .ok (.number 1)] := by
  intro store calls kept
  have fine : ∀ event ∈ (history respond store calls).2, event.Succeeds := by decide +kernel
  have left : calls.filterMap (Call.restrict (· ≠ "n")) = kept := by
    simp [calls, kept, Call.restrict, Call.targets, Write.target]
  obtain ⟨erased, -, -, fresh, -⟩ := drop_erases_history store "n" calls fine
  rw [left] at erased
  exact ⟨erased, fresh, by decide +kernel⟩

end DocumentStore
end MetadataClient
