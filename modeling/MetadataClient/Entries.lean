/-! Entries under keys, kept in ascending order of the keys. A list of entries in
this order is determined by what is found under each key. Names are ordered by code
point, which is also the order of their UTF-8 bytes. -/
namespace MetadataClient

class OrderedKey (κ : Type) [LT κ] : Prop where
  irrefl (key : κ) : ¬ key < key
  trans {first second third : κ} : first < second → second < third → first < third
  trichotomy (first second : κ) : first < second ∨ first = second ∨ second < first

namespace OrderedKey

theorem ofStd {κ : Type} [LT κ] [Std.Irrefl fun first second : κ => first < second]
    [Trans (fun first second : κ => first < second) (fun first second : κ => first < second)
      fun first second : κ => first < second]
    [Std.Trichotomous fun first second : κ => first < second] : OrderedKey κ :=
  ⟨fun _ => Std.lt_irrefl, Std.lt_trans, Std.lt_trichotomy⟩

instance : OrderedKey Nat :=
  ofStd

instance : OrderedKey String :=
  ofStd

instance {κ : Type} [LT κ] [OrderedKey κ] : OrderedKey (List κ) :=
  haveI : Std.Irrefl fun first second : κ => first < second := ⟨irrefl⟩
  haveI : Trans (fun first second : κ => first < second)
      (fun first second : κ => first < second) fun first second : κ => first < second := ⟨trans⟩
  haveI : Std.Trichotomous fun first second : κ => first < second :=
    ⟨fun first second before after =>
      (trichotomy first second).elim (absurd · before) (·.elim id (absurd · after))⟩
  haveI : Std.Asymm fun first second : κ => first < second :=
    ⟨fun _ _ before after => irrefl _ (trans before after)⟩
  ofStd

end OrderedKey

namespace Entries

variable {κ α : Type} [LT κ] [DecidableLT κ] [DecidableEq κ]

def Ascending (entries : List (κ × α)) : Prop :=
  entries.Pairwise (·.1 < ·.1)

def find? (key : κ) (entries : List (κ × α)) : Option α :=
  (entries.find? (·.1 == key)).map (·.2)

def insert (key : κ) (value : α) : List (κ × α) → List (κ × α)
  | [] => [(key, value)]
  | entry :: rest =>
    if key < entry.1 then (key, value) :: entry :: rest
    else if key = entry.1 then (key, value) :: rest
    else entry :: insert key value rest

def erase (key : κ) (entries : List (κ × α)) : List (κ × α) :=
  entries.filter (·.1 != key)

omit [LT κ] [DecidableLT κ] in
@[simp] theorem find?_nil (key : κ) : find? key ([] : List (κ × α)) = none := rfl

omit [LT κ] [DecidableLT κ] in
theorem find?_cons (key : κ) (entry : κ × α) (rest : List (κ × α)) :
    find? key (entry :: rest) = if entry.1 = key then some entry.2 else find? key rest := by
  by_cases same : entry.1 = key <;> simp [find?, same]

omit [DecidableLT κ] [DecidableEq κ] in
theorem ascending_nil : Ascending ([] : List (κ × α)) := .nil

omit [DecidableLT κ] [DecidableEq κ] in
theorem map_ascending {β : Type} (change : α → β) {entries : List (κ × α)}
    (ordered : Ascending entries) :
    Ascending (entries.map fun entry => (entry.1, change entry.2)) :=
  List.pairwise_map.mpr ordered

theorem mem_insert {key : κ} {value : α} {entries : List (κ × α)}
    {entry : κ × α} (member : entry ∈ insert key value entries) :
    entry = (key, value) ∨ entry ∈ entries := by
  induction entries with
  | nil => simpa [insert] using member
  | cons head rest ih =>
      simp only [insert] at member
      split at member
      · simpa using member
      · split at member
        · rcases List.mem_cons.mp member with rfl | rest
          · exact .inl rfl
          · exact .inr (List.mem_cons_of_mem _ rest)
        · rcases List.mem_cons.mp member with rfl | later
          · exact .inr List.mem_cons_self
          · exact (ih later).imp id (List.mem_cons_of_mem _)

omit [DecidableLT κ] in
theorem erase_ascending (key : κ) {entries : List (κ × α)}
    (ordered : Ascending entries) : Ascending (erase key entries) :=
  List.Pairwise.filter _ ordered

theorem find?_insert (asked key : κ) (value : α) (entries : List (κ × α)) :
    find? asked (insert key value entries) =
      if key = asked then some value else find? asked entries := by
  induction entries with
  | nil => simp [insert, find?_cons]
  | cons head rest ih =>
      simp only [insert]
      split
      · rw [find?_cons]
      · split
        · rename_i same
          subst same
          rw [find?_cons, find?_cons]
          split <;> simp_all
        · rw [find?_cons, ih, find?_cons]
          split <;> split <;> simp_all

omit [LT κ] [DecidableLT κ] in
theorem find?_erase (asked key : κ) (entries : List (κ × α)) :
    find? asked (erase key entries) = if key = asked then none else find? asked entries := by
  induction entries with
  | nil => simp [erase]
  | cons head rest ih =>
      by_cases same : head.1 = key
      · have gone : erase key (head :: rest) = erase key rest := by simp [erase, same]
        rw [gone, ih, find?_cons]
        by_cases wanted : key = asked <;> simp_all
      · have kept : erase key (head :: rest) = head :: erase key rest := by
          simp [erase, same]
        rw [kept, find?_cons, ih, find?_cons]
        by_cases wanted : head.1 = asked
        · simp [wanted, show ¬ key = asked from fun h => same (by rw [wanted, h])]
        · simp [wanted]

omit [LT κ] [DecidableLT κ] in
theorem mem_of_find? {key : κ} {value : α} {entries : List (κ × α)}
    (found : find? key entries = some value) : (key, value) ∈ entries := by
  induction entries with
  | nil => contradiction
  | cons head rest ih =>
      rw [find?_cons] at found
      split at found
      · rename_i same
        obtain rfl := Option.some.inj found
        exact same ▸ List.mem_cons_self
      · exact List.mem_cons_of_mem _ (ih found)

variable [OrderedKey κ]

omit [DecidableLT κ] in
theorem find?_eq_none_of_lt {key : κ} {entries : List (κ × α)}
    (below : ∀ entry ∈ entries, key < entry.1) : find? key entries = none := by
  induction entries with
  | nil => rfl
  | cons head rest ih =>
      have first := below head List.mem_cons_self
      have other : head.1 ≠ key := by
        intro same
        rw [same] at first
        exact OrderedKey.irrefl key first
      rw [find?_cons, if_neg other,
        ih fun entry member => below entry (List.mem_cons_of_mem _ member)]

omit [DecidableLT κ] in
theorem find?_eq_some_of_mem {entries : List (κ × α)} (ordered : Ascending entries)
    {entry : κ × α} (member : entry ∈ entries) :
    find? entry.1 entries = some entry.2 := by
  induction entries with
  | nil => contradiction
  | cons head rest ih =>
      obtain ⟨least, tail⟩ := List.pairwise_cons.mp ordered
      rw [find?_cons]
      rcases List.mem_cons.mp member with rfl | later
      · simp
      · have other : head.1 ≠ entry.1 := by
          intro same
          exact OrderedKey.irrefl entry.1 (same ▸ least entry later)
        rw [if_neg other, ih tail later]

omit [DecidableLT κ] in
theorem ext {first second : List (κ × α)} (firstOrdered : Ascending first)
    (secondOrdered : Ascending second) (same : ∀ key, find? key first = find? key second) :
    first = second := by
  induction first generalizing second with
  | nil =>
      match second with
      | [] => rfl
      | head :: rest =>
          have found := same head.1
          rw [find?_cons, if_pos rfl] at found
          contradiction
  | cons head rest ih =>
      match second with
      | [] =>
          have found := same head.1
          rw [find?_cons, if_pos rfl] at found
          contradiction
      | head' :: rest' =>
          obtain ⟨least, tail⟩ := List.pairwise_cons.mp firstOrdered
          obtain ⟨least', tail'⟩ := List.pairwise_cons.mp secondOrdered
          have here := find?_eq_some_of_mem firstOrdered (List.mem_cons_self (a := head))
          have there := find?_eq_some_of_mem secondOrdered (List.mem_cons_self (a := head'))
          rw [same] at here
          rw [← same] at there
          have equal : head = head' := by
            rcases List.mem_cons.mp (mem_of_find? here) with h | h
            · exact h
            · rcases List.mem_cons.mp (mem_of_find? there) with h' | h'
              · exact h'.symm
              · exact absurd (OrderedKey.trans (least' _ h) (least _ h')) (OrderedKey.irrefl _)
          subst equal
          apply congrArg (head :: ·)
          apply ih tail tail'
          intro key
          by_cases wanted : head.1 = key
          · subst wanted
            rw [find?_eq_none_of_lt least, find?_eq_none_of_lt least']
          · simpa [find?_cons, wanted] using same key

theorem insert_ascending (key : κ) (value : α) {entries : List (κ × α)}
    (ordered : Ascending entries) : Ascending (insert key value entries) := by
  induction entries with
  | nil => exact List.pairwise_singleton ..
  | cons head rest ih =>
      obtain ⟨least, tail⟩ := List.pairwise_cons.mp ordered
      simp only [insert]
      split
      next before =>
        refine List.pairwise_cons.mpr ⟨?_, ordered⟩
        intro entry member
        rcases List.mem_cons.mp member with rfl | later
        · exact before
        · exact OrderedKey.trans before (least entry later)
      next notBefore =>
        split
        next same => subst same; exact List.pairwise_cons.mpr ⟨least, tail⟩
        next other =>
          refine List.pairwise_cons.mpr ⟨?_, ih tail⟩
          intro entry member
          rcases mem_insert member with rfl | later
          · rcases OrderedKey.trichotomy key head.1 with h | h | h
            · exact absurd h notBefore
            · exact absurd h other
            · exact h
          · exact least entry later

theorem insert_of_last {key : κ} (value : α) {entries : List (κ × α)}
    (last : ∀ entry ∈ entries, entry.1 < key) :
    insert key value entries = entries ++ [(key, value)] := by
  induction entries with
  | nil => rfl
  | cons head rest ih =>
      have before := last head List.mem_cons_self
      have other : key ≠ head.1 := by
        intro same
        rw [← same] at before
        exact OrderedKey.irrefl key before
      have notBefore : ¬ key < head.1 := by
        intro after
        exact OrderedKey.irrefl key (OrderedKey.trans after before)
      rw [insert, if_neg notBefore, if_neg other,
        ih fun entry member => last entry (List.mem_cons_of_mem _ member)]
      rfl

end Entries

structure SortedMap (κ α : Type) [LT κ] where
  entries : List (κ × α)
  ascending : Entries.Ascending entries

abbrev NameMap (α : Type) := SortedMap String α

namespace SortedMap

variable {κ α : Type} [LT κ]

def empty : SortedMap κ α :=
  ⟨[], Entries.ascending_nil⟩

def keys (map : SortedMap κ α) : List κ :=
  map.entries.map (·.1)

def size (map : SortedMap κ α) : Nat :=
  map.entries.length

def filter (map : SortedMap κ α) (wanted : κ × α → Bool) : SortedMap κ α :=
  ⟨map.entries.filter wanted, List.Pairwise.filter _ map.ascending⟩

variable [DecidableEq κ]

def find? (map : SortedMap κ α) (key : κ) : Option α :=
  Entries.find? key map.entries

def contains (map : SortedMap κ α) (key : κ) : Bool :=
  (map.find? key).isSome

def erase (map : SortedMap κ α) (key : κ) : SortedMap κ α :=
  ⟨Entries.erase key map.entries, Entries.erase_ascending key map.ascending⟩

@[simp] theorem find?_empty (key : κ) : (empty : SortedMap κ α).find? key = none := rfl

theorem find?_erase (map : SortedMap κ α) (key asked : κ) :
    (map.erase key).find? asked = if key = asked then none else map.find? asked :=
  Entries.find?_erase ..

theorem mem_keys [OrderedKey κ] (map : SortedMap κ α) (key : κ) :
    key ∈ map.keys ↔ map.contains key = true := by
  rw [keys, contains, find?, List.mem_map]
  constructor
  · rintro ⟨entry, member, rfl⟩
    rw [Entries.find?_eq_some_of_mem map.ascending member]
    rfl
  · intro found
    obtain ⟨value, here⟩ := Option.isSome_iff_exists.mp found
    exact ⟨_, Entries.mem_of_find? here, rfl⟩

variable [DecidableLT κ] [OrderedKey κ]

def insert (map : SortedMap κ α) (key : κ) (value : α) : SortedMap κ α :=
  ⟨Entries.insert key value map.entries, Entries.insert_ascending key value map.ascending⟩

/-- Inserts one after the other, so of equal keys the last one counts. -/
def ofList (entries : List (κ × α)) : SortedMap κ α :=
  entries.foldl (fun map entry => map.insert entry.1 entry.2) empty

theorem find?_insert (map : SortedMap κ α) (key asked : κ) (value : α) :
    (map.insert key value).find? asked = if key = asked then some value else map.find? asked :=
  Entries.find?_insert ..

omit [DecidableLT κ] in
theorem ext {first second : SortedMap κ α}
    (same : ∀ key, first.find? key = second.find? key) : first = second := by
  obtain ⟨entries, ascending⟩ := first
  obtain ⟨entries', ascending'⟩ := second
  obtain rfl : entries = entries' := Entries.ext ascending ascending' same
  rfl

theorem insert_insert (map : SortedMap κ α) (key : κ) (first second : α) :
    (map.insert key first).insert key second = map.insert key second := by
  apply ext
  intro asked
  simp only [find?_insert]
  split <;> rfl

theorem entries_foldl_insert (entries : List (κ × α)) (earlier : SortedMap κ α)
    (ascending : Entries.Ascending (earlier.entries ++ entries)) :
    (entries.foldl (fun map entry => map.insert entry.1 entry.2) earlier).entries =
      earlier.entries ++ entries := by
  induction entries generalizing earlier with
  | nil => exact (List.append_nil _).symm
  | cons entry rest ih =>
      have last : ∀ other ∈ earlier.entries, other.1 < entry.1 := by
        intro other member
        exact (List.pairwise_append.mp ascending).2.2 other member entry List.mem_cons_self
      have inserted : (earlier.insert entry.1 entry.2).entries = earlier.entries ++ [entry] :=
        Entries.insert_of_last entry.2 last
      have whole : (earlier.insert entry.1 entry.2).entries ++ rest =
          earlier.entries ++ entry :: rest := by
        rw [inserted, List.append_assoc, List.singleton_append]
      rw [List.foldl_cons, ih (earlier.insert entry.1 entry.2) (whole ▸ ascending), whole]

theorem ofList_entries (map : SortedMap κ α) : ofList map.entries = map := by
  have whole := entries_foldl_insert map.entries empty map.ascending
  obtain ⟨entries, ascending⟩ := map
  revert whole
  rw [ofList]
  generalize entries.foldl _ _ = built
  rintro rfl
  rfl

end SortedMap
end MetadataClient
