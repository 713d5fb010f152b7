import MetadataClient.Config.Basic
import MetadataClient.Proofs.Text.Trimming

/-! Lists of hosts as one text. The text names hosts if anything stands between its commas,
white space apart. Neither white space around the hosts nor blank entries between them change
what the text names. -/
namespace MetadataClient

namespace Config

/-- An entry that is not blank stands between the commas. -/
def HasEntry (list : String) : Prop :=
  ∃ entry ∈ Text.split ',' list.toList, ∃ char ∈ entry, Text.isBlank char = false

theorem splitList_ne_nil_iff {list : String} : splitList list ≠ [] ↔ HasEntry list := by
  have kept (entry : List Char) :
      (!(Text.trim entry).isEmpty) = true ↔ ∃ char ∈ entry, Text.isBlank char = false := by
    rw [Bool.not_eq_true', ← Bool.not_eq_true, List.isEmpty_iff, Text.trim_eq_nil_iff]
    simp only [not_forall, Bool.not_eq_true, exists_prop]
  constructor
  · intro named
    obtain ⟨host, listed⟩ := List.exists_mem_of_ne_nil _ named
    simp only [splitList, List.mem_map, List.mem_filter] at listed
    obtain ⟨_, ⟨⟨entry, stands, rfl⟩, filled⟩, -⟩ := listed
    exact ⟨entry, stands, (kept entry).mp filled⟩
  · rintro ⟨entry, stands, filled⟩
    have listed : String.ofList (Text.trim entry) ∈ splitList list := by
      simp only [splitList, List.mem_map, List.mem_filter]
      exact ⟨_, ⟨⟨entry, stands, rfl⟩, (kept entry).mpr filled⟩, rfl⟩
    exact List.ne_nil_of_mem listed

theorem validate_eq_ok_iff {config : Config} :
    config.validate = .ok () ↔ config.data ≠ [] ∧ config.metadata ≠ [] := by
  rw [validate]
  cases config.data <;> cases config.metadata <;> simp

theorem validate_ofLists_iff {data metadata path : String} {backend : StorageBackend} :
    (ofLists data metadata backend path).validate = .ok () ↔
      HasEntry data ∧ HasEntry metadata := by
  rw [validate_eq_ok_iff]
  exact and_congr splitList_ne_nil_iff splitList_ne_nil_iff

/-! ## Reading a list -/

theorem splitList_append (first second : String) :
    splitList (first ++ "," ++ second) = splitList first ++ splitList second := by
  have chars : (first ++ "," ++ second).toList = first.toList ++ ',' :: second.toList := by
    simp
  rw [splitList, chars, Text.split_append, List.map_append, List.filter_append, List.map_append]
  rfl

/-- Texts that are joined by commas name the hosts that each of them names. -/
theorem splitList_intercalate (parts : List String) :
    splitList (",".intercalate parts) = parts.flatMap splitList := by
  induction parts with
  | nil => rfl
  | cons part rest ih =>
    cases rest with
    | nil => rw [String.intercalate_singleton, List.flatMap_singleton]
    | cons next others =>
      rw [String.intercalate_cons_cons, splitList_append, ih]
      rfl

theorem hasEntry_iff {list : String} :
    HasEntry list ↔ ∃ char ∈ list.toList, char ≠ ',' ∧ Text.isBlank char = false := by
  have same (char : Char) : (∃ entry ∈ Text.split ',' list.toList, char ∈ entry) ↔
      char ∈ list.toList ∧ char ≠ ',' := by
    rw [← List.mem_flatten, Text.flatten_split, List.mem_filter, decide_eq_true_iff]
  constructor
  · rintro ⟨entry, stands, char, member, filled⟩
    obtain ⟨named, other⟩ := (same char).mp ⟨entry, stands, member⟩
    exact ⟨char, named, other, filled⟩
  · rintro ⟨char, named, other, filled⟩
    obtain ⟨entry, stands, member⟩ := (same char).mpr ⟨named, other⟩
    exact ⟨entry, stands, char, member, filled⟩

theorem splitList_eq_nil_iff {list : String} :
    splitList list = [] ↔ ∀ char ∈ list.toList, char = ',' ∨ Text.isBlank char = true := by
  rw [← not_iff_not, ← ne_eq, splitList_ne_nil_iff, hasEntry_iff]
  simp only [not_forall, not_or, exists_prop, Bool.not_eq_true, ne_eq]

/-- What can be named by a list: a text without commas that neither begins nor ends with white
space. -/
structure Host (host : String) : Prop where
  filled : host ≠ ""
  free : ',' ∉ host.toList
  trimmed : Text.Trimmed host.toList

theorem host_of_mem_splitList {list host : String} (named : host ∈ splitList list) :
    Host host := by
  simp only [splitList, List.mem_map, List.mem_filter] at named
  obtain ⟨_, ⟨⟨entry, stands, rfl⟩, filled⟩, rfl⟩ := named
  refine ⟨?_, ?_, ?_⟩
  · intro empty
    rw [← String.toList_eq_nil_iff, String.toList_ofList] at empty
    rw [empty] at filled
    cases filled
  · rw [String.toList_ofList]
    intro comma
    exact Text.not_mem_of_mem_split stands (Text.mem_of_mem_trim comma)
  · rw [String.toList_ofList]
    exact Text.trimmed_trim entry

def Blank (text : String) : Prop :=
  ∀ char ∈ text.toList, Text.isBlank char = true

instance (text : String) : Decidable (Blank text) :=
  decidable_of_iff (text.toList.all Text.isBlank = true) List.all_eq_true

theorem Blank.splitList_eq {text : String} (blank : Blank text) : splitList text = [] :=
  splitList_eq_nil_iff.mpr fun char member => .inr (blank char member)

theorem Blank.free {text : String} (blank : Blank text) : ',' ∉ text.toList := by
  intro comma
  have known := blank ',' comma
  revert known
  decide

/-- A host is named by itself, whatever white space is around it. -/
theorem Host.splitList_padded {host before behind : String} (stands : Host host)
    (front : Blank before) (back : Blank behind) :
    splitList (before ++ host ++ behind) = [host] := by
  obtain ⟨filled, free, trimmed⟩ := stands
  have some : host.toList ≠ [] := by
    rwa [ne_eq, String.toList_eq_nil_iff]
  have whole : ',' ∉ (before ++ host ++ behind).toList := by
    simp only [String.toList_append, List.mem_append, not_or]
    exact ⟨⟨front.free, free⟩, back.free⟩
  have trim := Text.trim_padded some trimmed front back
  rw [← String.toList_append, ← String.toList_append] at trim
  rw [splitList, Text.split_of_not_mem whole, List.map_singleton, trim, List.filter_cons_of_pos,
    List.filter_nil, List.map_singleton, String.ofList_toList]
  rwa [Bool.not_eq_true', ← Bool.not_eq_true, List.isEmpty_iff]

/-- The parts are these hosts in their order, any white space around each of them, and any number
of blank parts in front of them, between them and behind them. -/
inductive Spread : List String → List String → Prop
  | nil : Spread [] []
  | blank {hosts parts : List String} {part : String} (blank : Blank part)
      (rest : Spread hosts parts) : Spread hosts (part :: parts)
  | host {hosts parts : List String} {host before behind : String} (front : Blank before)
      (back : Blank behind) (rest : Spread hosts parts) :
      Spread (host :: hosts) ((before ++ host ++ behind) :: parts)

theorem Spread.splitList_eq {hosts parts : List String} (spread : Spread hosts parts)
    (stand : ∀ host ∈ hosts, Host host) : splitList (",".intercalate parts) = hosts := by
  rw [splitList_intercalate]
  induction spread with
  | nil => rfl
  | blank blank rest ih =>
    rw [List.flatMap_cons, blank.splitList_eq, List.nil_append]
    exact ih stand
  | host front back rest ih =>
    obtain ⟨stands, others⟩ := List.forall_mem_cons.mp stand
    rw [List.flatMap_cons, stands.splitList_padded front back, List.singleton_append, ih others]

/-! ## Refused configurations -/

theorem validate_eq_data_iff {config : Config} :
    config.validate = .error (.configuration .noDataServers) ↔ config.data = [] := by
  rw [validate]
  cases config.data <;> cases config.metadata <;> simp

theorem validate_eq_metadata_iff {config : Config} :
    config.validate = .error (.configuration .noMetadataServers) ↔
      config.data ≠ [] ∧ config.metadata = [] := by
  rw [validate]
  cases config.data <;> cases config.metadata <;> simp

/-- Lists name hosts, and nothing else in them counts. Lists that are joined by a comma name what
each of them names. What is named has neither commas in it nor white space around it, and it is
named again in whatever way it is written between commas. Only a list without any other character
than commas and white space names nothing, and this is what a configuration is refused for. -/
theorem lists_name_hosts (list : String) :
    (∀ other, splitList (list ++ "," ++ other) = splitList list ++ splitList other) ∧
    (∀ host ∈ splitList list, Host host) ∧
    (∀ parts, Spread (splitList list) parts →
      splitList (",".intercalate parts) = splitList list) ∧
    (splitList list = [] ↔ ∀ char ∈ list.toList, char = ',' ∨ Text.isBlank char = true) ∧
    ∀ (other path : String) (backend : StorageBackend),
      ((ofLists list other backend path).validate = .error (.configuration .noDataServers) ↔
        splitList list = []) ∧
      ((ofLists other list backend path).validate = .error (.configuration .noMetadataServers) ↔
        splitList other ≠ [] ∧ splitList list = []) ∧
      ((ofLists other list backend path).validate = .ok () ↔
        splitList other ≠ [] ∧ splitList list ≠ []) := by
  have hosts : ∀ host ∈ splitList list, Host host := fun _ => host_of_mem_splitList
  refine ⟨splitList_append list, hosts, ?_, splitList_eq_nil_iff, ?_⟩
  · intro parts spread
    exact spread.splitList_eq hosts
  · intro other path backend
    exact ⟨validate_eq_data_iff, validate_eq_metadata_iff, validate_eq_ok_iff⟩

/-- Two hosts are written with other white space, and with blank entries around them. -/
theorem lists_name_hosts_respaced :
    splitList "a b ,, c" = ["a b", "c"] ∧
      Spread (splitList "a b ,, c") ["", "\ta b\u3000", " ", "c\n"] ∧
      splitList ",\ta b\u3000, ,c\n" = ["a b", "c"] := by
  have named : splitList "a b ,, c" = ["a b", "c"] := by decide
  have empty : Blank "" := by decide
  have later : Spread ["c"] ["" ++ "c" ++ "\n"] := .host empty (by decide) .nil
  have spread : Spread ["a b", "c"] ["", "\t" ++ "a b" ++ "\u3000", " ", "" ++ "c" ++ "\n"] :=
    .blank empty (.host (by decide) (by decide) (.blank (by decide) later))
  rw [← named] at spread
  have again := (lists_name_hosts "a b ,, c").2.2.1 _ spread
  rw [named] at again
  exact ⟨named, spread, again⟩

end Config
end MetadataClient
