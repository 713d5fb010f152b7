import MetadataClient.Config.File
import MetadataClient.Proofs.FileTree.Saving
import MetadataClient.Proofs.Toml.Lines

/-! Configurations that are read as they were written. Whatever the names of its hosts and
its path hold, the text of a configuration sets this configuration and nothing else; it is
refused only if the configuration is not valid. -/
namespace MetadataClient.Config

open Toml (Value Quoted.print printMore)

theorem printList_cons (first : String) (more : List String) :
    printList (first :: more) =
      '[' :: (Quoted.print first.toList ++ (printMore more ++ [']'])) := by
  have joined : (((first :: more).map fun text => Quoted.print text.toList).intersperse
      [',', ' ']).flatten = Quoted.print first.toList ++ printMore more := by
    induction more generalizing first with
    | nil => simp [printMore]
    | cons second more ih =>
      have later := ih second
      rw [List.map_cons] at later
      rw [List.map_cons, List.map_cons, List.intersperse_cons_cons, List.flatten_cons,
        List.flatten_cons, later]
      rfl
  rw [printList, joined, List.cons_append, List.append_assoc]

theorem readValue_printList (levels : Nat) (texts : List String) (rest : List Char) :
    Toml.readValue (levels + 1) (printList texts ++ rest) =
      some (.array (texts.map Value.string), rest) := by
  cases texts with
  | nil => exact Toml.readValue_nil levels rest
  | cons first more =>
    have read := Toml.readValue_cons levels first more rest
    rw [printList_cons, List.cons_append, List.append_assoc, List.append_assoc]
    exact read

open Toml (Line Written Bare)

def lines (config : Config) : List (List Char × Line) :=
  [('[' :: ("servers".toList ++ [']', '\n']), .table ⟨[], "servers"⟩),
    ("data".toList ++ [' ', '=', ' '] ++ printList config.data ++ ['\n'],
      .pair ⟨[], "data"⟩ (.array (config.data.map Value.string))),
    ("metadata".toList ++ [' ', '=', ' '] ++ printList config.metadata ++ ['\n'],
      .pair ⟨[], "metadata"⟩ (.array (config.metadata.map Value.string))),
    (['\n'], .blank),
    ('[' :: ("storage".toList ++ [']', '\n']), .table ⟨[], "storage"⟩),
    ("backend".toList ++ [' ', '=', ' '] ++ Quoted.print config.backend.name.toList ++ ['\n'],
      .pair ⟨[], "backend"⟩ (.string config.backend.name)),
    ("path".toList ++ [' ', '=', ' '] ++ Quoted.print config.path.toList ++ ['\n'],
      .pair ⟨[], "path"⟩ (.string config.path))]

theorem textChars_eq (config : Config) : config.textChars = config.lines.flatMap Prod.fst := by
  have servers : "[servers]\ndata = ".toList =
      '[' :: ("servers".toList ++ [']', '\n']) ++ ("data".toList ++ [' ', '=', ' ']) := by
    decide +kernel
  have metadata : "\nmetadata = ".toList = ['\n'] ++ ("metadata".toList ++ [' ', '=', ' ']) := by
    decide +kernel
  have storage : "\n\n[storage]\nbackend = ".toList = ['\n'] ++ (['\n'] ++
      ('[' :: ("storage".toList ++ [']', '\n']) ++ ("backend".toList ++ [' ', '=', ' ']))) := by
    decide +kernel
  have path : "\npath = ".toList = ['\n'] ++ ("path".toList ++ [' ', '=', ' ']) := by
    decide +kernel
  unfold textChars lines
  rw [servers, metadata, storage, path]
  simp only [List.flatMap_cons, List.flatMap_nil, List.append_assoc, List.append_nil,
    List.cons_append, List.nil_append]

theorem written_list {name : String} (bare : Bare name.toList) (texts : List String) :
    Written (name.toList ++ [' ', '=', ' '] ++ printList texts ++ ['\n'])
      (.pair ⟨[], name⟩ (.array (texts.map Value.string))) := by
  have flush : ∀ rest, Toml.Flush (printList texts ++ rest) := by
    rintro rest _ ⟨⟩
    rfl
  have written := Toml.written_pair bare flush fun rest => readValue_printList _ texts _
  rwa [String.ofList_toList] at written

theorem written_text {name : String} (bare : Bare name.toList) (text : String) :
    Written (name.toList ++ [' ', '=', ' '] ++ Quoted.print text.toList ++ ['\n'])
      (.pair ⟨[], name⟩ (.string text)) := by
  have written := Toml.written_pair bare (Toml.flush_print text.toList)
    fun rest => Toml.readValue_print _ text (Toml.unquoted_line rest)
  rwa [String.ofList_toList] at written

theorem lines_written (config : Config) :
    ∀ piece ∈ config.lines, Written piece.1 piece.2 := by
  simp only [lines, List.forall_mem_cons]
  refine ⟨?_, ?_, ?_, ?_, ?_, ?_, ?_, List.forall_mem_nil _⟩
  · exact Toml.written_header (by decide)
  · exact written_list (by decide) config.data
  · exact written_list (by decide) config.metadata
  · exact Toml.written_blank
  · exact Toml.written_header (by decide)
  · exact written_text (by decide) config.backend.name
  · exact written_text (by decide) config.path

def entries (config : Config) : List (String × Value) :=
  [("servers", .table [("data", .array (config.data.map Value.string)),
      ("metadata", .array (config.metadata.map Value.string))]),
    ("storage", .table [("backend", .string config.backend.name), ("path", .string config.path)])]

def draft (config : Config) : Toml.Draft where
  members :=
    [("servers", .table .header [("data", .value (.array (config.data.map Value.string))),
        ("metadata", .value (.array (config.metadata.map Value.string)))]),
      ("storage", .table .header [("backend", .value (.string config.backend.name)),
        ("path", .value (.string config.path))])]
  current := ["storage"]

theorem add_lines (config : Config) :
    (config.lines.map Prod.snd).foldlM Toml.Draft.add .empty = some config.draft := by
  have tables : ¬"storage" < "servers" := by decide
  have lists : ¬"metadata" < "data" := by decide
  have texts : ¬"path" < "backend" := by decide
  simp [lines, draft, Toml.Draft.add, Toml.Draft.empty, Toml.Members.changeAt,
    Toml.Members.openTable, Toml.Members.assign, Entries.insert, Entries.find?, tables, lists,
    texts]

theorem values_draft (config : Config) :
    Toml.Members.values config.draft.members = config.entries := by
  simp [draft, entries, Toml.Members.values, Toml.Members.nodeValue]

theorem toml_text (config : Config) : Toml.parse config.text = some config.entries := by
  obtain ⟨flush, read⟩ := Toml.readLines_written config.lines_written
  rw [← textChars_eq] at flush read
  have noMark : ∀ rest, config.textChars = '\uFEFF' :: rest → False := by
    intro rest same
    rw [textChars_eq] at same
    cases same
  rw [Toml.parse, text, String.toList_ofList]
  simp only [flush.skipBlanks, read, List.isEmpty_nil, if_true, add_lines, values_draft,
    Option.bind_eq_bind, Option.bind_some, Option.pure_def]

theorem texts?_map (texts : List String) :
    texts? (.array (texts.map Value.string)) = some texts := by
  rw [texts?]
  induction texts with
  | nil => rfl
  | cons text texts ih =>
    rw [List.map_cons, List.mapM_cons, ih]
    rfl

theorem ofEntries?_entries (config : Config) : ofEntries? config.entries = some config := by
  let servers : Value := .table [("data", .array (config.data.map Value.string)),
    ("metadata", .array (config.metadata.map Value.string))]
  let storage : Value := .table
    [("backend", .string config.backend.name), ("path", .string config.path)]
  have foundServers : Entries.find? "servers" config.entries = some servers := rfl
  have foundStorage : Entries.find? "storage" config.entries = some storage := rfl
  have data : setting? "data" 0 servers = some (.array (config.data.map Value.string)) := rfl
  have metadata : setting? "metadata" 1 servers =
      some (.array (config.metadata.map Value.string)) := rfl
  have backend : setting? "backend" 0 storage = some (.string config.backend.name) := rfl
  have path : setting? "path" 1 storage = some (.string config.path) := rfl
  simp only [ofEntries?, foundServers, foundStorage, data, metadata, backend, path, texts?_map,
    text?, backend?, StorageBackend.ofName?_name, Option.bind_eq_bind, Option.bind_some,
    Option.pure_def]

theorem parse_text (config : Config) :
    parse config.text = config.validate.map fun () => config := by
  rw [parse, toml_text, Option.bind_some, ofEntries?_entries]

theorem load_save {config : Config} {tree after : FileTree} {path : Path}
    (saved : config.save tree path = (.ok (), after)) : load after path = parse config.text := by
  rw [save] at saved
  rcases kept : tree.save path config.text with ⟨cause | _, after'⟩
  · simp [kept, Except.mapError] at saved
  · simp only [kept, Except.mapError, Prod.mk.injEq, true_and] at saved
    subst saved
    rw [load, FileTree.read_save kept]
    rfl

/-- What is read back of a configuration: the same one if it is valid, else what is missing. -/
structure Returns (config : Config) (answer : Except Error Config) : Prop where
  valid : config.data ≠ [] → config.metadata ≠ [] → answer = .ok config
  noData : config.data = [] → answer = .error (.configuration .noDataServers)
  noMetadata : config.data ≠ [] → config.metadata = [] →
    answer = .error (.configuration .noMetadataServers)

theorem returns_parse (config : Config) : config.Returns (parse config.text) := by
  rw [parse_text]
  constructor
  · intro data metadata
    simp [validate, data, metadata, Except.map]
  · intro data
    simp [validate, data, Except.map]
  · intro data metadata
    simp [validate, data, metadata, Except.map]

/-- A valid configuration is read back from its text as it is, and from every file that it
was saved to. It can be saved wherever nothing is in the way. The text of one without data
or metadata servers is refused for that reason. -/
theorem saved_is_loaded (config : Config) :
    config.Returns (parse config.text) ∧
      ∀ (tree : FileTree) (path : Path),
        (tree.Admits path → ∃ after, config.save tree path = (.ok (), after)) ∧
        ∀ after, config.save tree path = (.ok (), after) → config.Returns (load after path) := by
  refine ⟨returns_parse config, fun tree path => ⟨?_, ?_⟩⟩
  · intro admits
    obtain ⟨after, saved⟩ := FileTree.save_admits admits config.text
    refine ⟨after, ?_⟩
    rw [save, saved]
    rfl
  · intro after saved
    rw [load_save saved]
    exact returns_parse config

end MetadataClient.Config
