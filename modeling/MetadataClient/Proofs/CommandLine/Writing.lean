import MetadataClient.CommandLine.Task
import MetadataClient.Proofs.CommandLine.Options
import MetadataClient.Proofs.Config.Lists
import MetadataClient.Proofs.Config.RoundTrip

/-! What the command leaves behind. A configuration is written if all of its values are
given and make sense, and what was written is what is printed later. In all other cases no
file changes, and nothing is put out that could be taken for a configuration. -/
namespace MetadataClient

theorem StorageBackend.ofName?_eq_some_iff {text : String} {backend : StorageBackend} :
    ofName? text = some backend ↔ text = backend.name := by
  constructor
  · intro found
    have named := List.find?_some found
    rw [beq_iff_eq] at named
    exact named.symm
  · rintro rfl
    exact ofName?_name backend

namespace CommandLine

/-! ## What is asked for -/

def Owner.flag : Owner → Flag
  | user => .user
  | system => .system

namespace Options

variable {options : Options} {config : Config}

def owners (options : Options) : List Owner :=
  [Owner.user, .system].filter (options.has ·.flag)

def Bare (options : Options) : Prop :=
  ∀ field, field ≠ .logLevel → options.value? field = none

theorem hasSettings_eq_false_iff : options.hasSettings = false ↔ options.Bare := by
  constructor
  · intro none field other
    cases field <;> simp_all [hasSettings]
  · intro bare
    simp [hasSettings, bare _]

/-- The number of owners decides before anything else. -/
theorem request?_eq (options : Options) :
    options.request? =
      match options.owners with
      | [] => if options.has .print then none else options.config?.map (.write · none)
      | [owner] =>
        if options.has .print then (if options.hasSettings then none else some (.print owner))
        else options.config?.map (.write · (some owner))
      | _ => none := by
  cases user : options.has .user <;> cases system : options.has .system <;>
    simp [request?, owner?, owners, Owner.flag, user, system]

/-- All values of a configuration are given. The backend is a known one, and both lists
name hosts. -/
structure Gives (options : Options) (data metadata : String) (backend : StorageBackend)
    (path : String) : Prop where
  dataGiven : options.value? .data = some data
  metadataGiven : options.value? .metadata = some metadata
  backendGiven : options.value? .backend = some backend.name
  pathGiven : options.value? .path = some path
  dataHosts : Config.HasEntry data
  metadataHosts : Config.HasEntry metadata

/-- The values that are given make up this configuration. -/
def Describes (options : Options) (config : Config) : Prop :=
  ∃ data metadata backend path,
    options.Gives data metadata backend path ∧ config = .ofLists data metadata backend path

theorem describes_iff :
    options.Describes config ↔ options.config? = some config ∧ config.validate = .ok () := by
  constructor
  · rintro ⟨data, metadata, backend, path, gives, rfl⟩
    constructor
    · simp [config?, gives.dataGiven, gives.metadataGiven, gives.backendGiven, gives.pathGiven,
        StorageBackend.ofName?_name]
    · exact Config.validate_ofLists_iff.mpr ⟨gives.dataHosts, gives.metadataHosts⟩
  · rintro ⟨made, valid⟩
    simp only [config?, Option.bind_eq_bind, Option.bind_eq_some_iff, Option.pure_def,
      Option.some.injEq, StorageBackend.ofName?_eq_some_iff] at made
    obtain ⟨data, hasData, metadata, hasMetadata, backend, ⟨_, hasBackend, rfl⟩, path, hasPath,
      rfl⟩ := made
    obtain ⟨dataHosts, metadataHosts⟩ := Config.validate_ofLists_iff.mp valid
    exact ⟨data, metadata, backend, path,
      ⟨hasData, hasMetadata, hasBackend, hasPath, dataHosts, metadataHosts⟩, rfl⟩

theorem Describes.of_same {other : Options} (describes : options.Describes config)
    (same : ∀ field, field ≠ .logLevel → other.value? field = options.value? field) :
    other.Describes config := by
  obtain ⟨data, metadata, backend, path, gives, rfl⟩ := describes
  refine ⟨data, metadata, backend, path, ⟨?_, ?_, ?_, ?_, gives.dataHosts, gives.metadataHosts⟩,
    rfl⟩
  · exact (same .data (by decide)).trans gives.dataGiven
  · exact (same .metadata (by decide)).trans gives.metadataGiven
  · exact (same .backend (by decide)).trans gives.backendGiven
  · exact (same .path (by decide)).trans gives.pathGiven

end Options

/-! ## What is put out -/

theorem text_begins (config : Config) : config.text.toList.head? = some '[' := by
  rw [Config.text, String.toList_ofList]
  rfl

-- A long literal is taken for the list of its characters, not evaluated.
set_option maxRecDepth 8000 in
theorem helpText_begins : helpText.toList.head? = some 'W' := by
  obtain ⟨rest, same⟩ : ∃ rest, helpText = String.ofList ('W' :: rest) := by
    unfold helpText
    exact ⟨_, rfl⟩
  rw [same, String.toList_ofList]
  rfl

theorem ne_text {printed : String} (other : printed = "" ∨ printed = helpText)
    (config : Config) : printed ≠ config.text := by
  rintro rfl
  have begins := text_begins config
  rcases other with same | same
  · rw [same] at begins
    exact absurd begins (by decide)
  · rw [same, helpText_begins] at begins
    exact absurd begins (by decide)

/-- The run fails, puts out no configuration and changes no file. -/
structure Fruitless (tree : FileTree) (ended : Outcome × FileTree) : Prop where
  status : ended.1.status = 1
  printed : ∀ config : Config, ended.1.printed ≠ config.text
  kept : ended.2 = tree

theorem fruitless_refused (tree : FileTree) :
    Fruitless tree ((Task.finished (.refused helpText)).run tree) :=
  ⟨rfl, ne_text (.inr rfl), rfl⟩

theorem fruitless_failed (tree : FileTree) (reason : String) :
    Fruitless tree ((Task.finished (.failed reason)).run tree) :=
  ⟨rfl, ne_text (.inl rfl), rfl⟩

/-! ## Tasks -/

def Owner.file (directory : String) : Owner → Path
  | user => .ofText (directory ++ "/tessera/tessera.toml")
  | system => .ofText "/etc/tessera/tessera.toml"

theorem Owner.path_known (directory : String) (owner : Owner) :
    ∃ path, owner.path (some directory) = .ok path ∧ .ofText path = owner.file directory := by
  cases owner
  · exact ⟨_, rfl, rfl⟩
  · exact ⟨_, rfl, rfl⟩

namespace Task

variable {directory : String} {tree after : FileTree} {config : Config} {owner : Owner}

theorem ofRequest_write_invalid {error : Error} (invalid : config.validate = .error error)
    (owner? : Option Owner) :
    ofRequest (some directory) (.write config owner?) = .finished (.failed error.message) := by
  cases owner? with
  | none => rw [ofRequest, invalid]
  | some owner =>
    obtain ⟨path, known, -⟩ := owner.path_known directory
    rw [ofRequest, known, invalid]

theorem ofRequest_write_out (valid : config.validate = .ok ()) :
    ofRequest (some directory) (.write config none) = .finished (.success config.text) := by
  rw [ofRequest, valid]

theorem run_write_file (valid : config.validate = .ok ())
    (saved : tree.save (owner.file directory) config.text = (.ok (), after)) :
    (ofRequest (some directory) (.write config (some owner))).run tree = (.success "", after) := by
  obtain ⟨path, known, leads⟩ := owner.path_known directory
  rw [ofRequest, known, valid]
  simp only [writeFile, run, leads, saved]

theorem run_print {text : String} (read : tree.read (owner.file directory) = .ok text) :
    (ofRequest (some directory) (.print owner)).run tree = (.success text, tree) := by
  obtain ⟨path, known, leads⟩ := owner.path_known directory
  rw [ofRequest, known]
  simp only [printFile, run, leads, read]

theorem run_print_error {cause : FileError}
    (unread : tree.read (owner.file directory) = .error cause) :
    ∃ reason, (ofRequest (some directory) (.print owner)).run tree = (.failed reason, tree) := by
  obtain ⟨path, known, leads⟩ := owner.path_known directory
  rw [ofRequest, known]
  simp only [printFile, run, leads, unread]
  exact ⟨_, rfl⟩

end Task

def run (directory : String) (arguments : List String) (tree : FileTree) : Outcome × FileTree :=
  (Task.ofArguments (some directory) arguments).run tree

variable {directory : String} {arguments : List String} {options : Options} {tree : FileTree}

def AsksFor (arguments : List String) (owner : Owner) : Prop :=
  ∃ options, Options.ofArguments arguments = .ok options ∧
    options.has .print = true ∧ options.owners = [owner] ∧ options.Bare

/-- The arguments ask for a configuration to be put out, of the same values. -/
def Repeats (arguments : List String) (options : Options) : Prop :=
  ∃ plain, Options.ofArguments arguments = .ok plain ∧
    plain.has .print = false ∧ plain.owners = [] ∧
    ∀ field, field ≠ .logLevel → plain.value? field = options.value? field

theorem run_spoken (spoken : Options.ofArguments arguments = .ok options) :
    run directory arguments tree =
      match options.request? with
      | none => (.refused helpText, tree)
      | some request => (Task.ofRequest (some directory) request).run tree := by
  rw [run, Task.ofArguments, spoken]
  simp only [Task.ofOptions]
  cases options.request? <;> rfl

/-! ## Writing -/

theorem fruitless_of_not_described (spoken : Options.ofArguments arguments = .ok options)
    (writing : options.has .print = false)
    (undescribed : options.owners.length ≤ 1 → ¬∃ config, options.Describes config) :
    Fruitless tree (run directory arguments tree) := by
  rw [run_spoken spoken, options.request?_eq]
  have unmade (few : options.owners.length ≤ 1) (owner? : Option Owner) :
      Fruitless tree (match options.config?.map (.write · owner?) with
        | none => (.refused helpText, tree)
        | some request => (Task.ofRequest (some directory) request).run tree) := by
    cases made : options.config? with
    | none => exact fruitless_refused tree
    | some config =>
      cases valid : config.validate with
      | error error =>
        simp only [Option.map_some, Task.ofRequest_write_invalid valid]
        exact fruitless_failed tree _
      | ok =>
        have describes := Options.describes_iff.mpr ⟨made, valid⟩
        exact absurd ⟨config, describes⟩ (undescribed few)
  match owners : options.owners with
  | [] =>
    simp only [writing, Bool.false_eq_true, if_false]
    exact unmade (by simp [owners]) none
  | [owner] =>
    simp only [writing, Bool.false_eq_true, if_false]
    exact unmade (by simp [owners]) (some owner)
  | _ :: _ :: _ => exact fruitless_refused tree

theorem run_out {config : Config} (spoken : Options.ofArguments arguments = .ok options)
    (writing : options.has .print = false) (nobody : options.owners = [])
    (describes : options.Describes config) :
    run directory arguments tree = (.success config.text, tree) := by
  obtain ⟨made, valid⟩ := Options.describes_iff.mp describes
  rw [run_spoken spoken, options.request?_eq]
  simp only [nobody, writing, Bool.false_eq_true, if_false, made, Option.map_some,
    Task.ofRequest_write_out valid]
  rfl

theorem run_save {config : Config} {owner : Owner} {after : FileTree}
    (spoken : Options.ofArguments arguments = .ok options)
    (writing : options.has .print = false) (one : options.owners = [owner])
    (describes : options.Describes config)
    (saved : tree.save (owner.file directory) config.text = (.ok (), after)) :
    run directory arguments tree = (.success "", after) := by
  obtain ⟨made, valid⟩ := Options.describes_iff.mp describes
  rw [run_spoken spoken, options.request?_eq]
  simp only [one, writing, Bool.false_eq_true, if_false, made, Option.map_some,
    Task.run_write_file valid saved]

/-! ## Printing -/

theorem run_asksFor {owner : Owner} (asks : AsksFor arguments owner) (tree : FileTree) :
    run directory arguments tree = (Task.ofRequest (some directory) (.print owner)).run tree := by
  obtain ⟨options, spoken, printing, one, bare⟩ := asks
  rw [run_spoken spoken, options.request?_eq]
  simp only [one, printing, if_true, Options.hasSettings_eq_false_iff.mpr bare,
    Bool.false_eq_true, if_false]

/-- What becomes of a request to write a configuration. -/
structure Writes (directory : String) (options : Options) (tree : FileTree)
    (ended : Outcome × FileTree) : Prop where
  exits : ended.1.status = 0 ↔ options.owners.length ≤ 1 ∧ ∃ config, options.Describes config
  fails : ended.1.status ≠ 0 → Fruitless tree ended
  putsOut (config : Config) : options.owners = [] → options.Describes config →
    ended = (.success config.text, tree)
  saves (config : Config) (owner : Owner) : options.owners = [owner] →
    options.Describes config →
      ended.1 = .success "" ∧ Config.load ended.2 (owner.file directory) = .ok config
  agrees (config : Config) (owner : Owner) : options.owners = [owner] →
    options.Describes config →
      ∀ again plain, AsksFor again owner → Repeats plain options → ∀ other : FileTree,
        run directory again ended.2 = ((run directory plain other).1, ended.2)

structure Prints (directory : String) (options : Options) (tree : FileTree)
    (ended : Outcome × FileTree) : Prop where
  kept : ended.2 = tree
  refused : ended.1 = .refused helpText ↔ ¬(options.owners.length = 1 ∧ options.Bare)
  shows (owner : Owner) (text : String) : options.owners = [owner] → options.Bare →
    tree.read (owner.file directory) = .ok text → ended.1 = .success text
  fails (owner : Owner) (cause : FileError) : options.owners = [owner] → options.Bare →
    tree.read (owner.file directory) = .error cause → ∃ reason, ended.1 = .failed reason

theorem run_writes (spoken : Options.ofArguments arguments = .ok options)
    (writing : options.has .print = false)
    (possible : ∀ owner, options.owners = [owner] →
      ∀ text, ∃ after, tree.save (owner.file directory) text = (.ok (), after)) :
    Writes directory options tree (run directory arguments tree) := by
  have saved {config : Config} {owner : Owner} (one : options.owners = [owner])
      (describes : options.Describes config) :
      ∃ after, run directory arguments tree = (.success "", after) ∧
        after.read (owner.file directory) = .ok config.text := by
    obtain ⟨after, saved⟩ := possible owner one config.text
    exact ⟨after, run_save spoken writing one describes saved, FileTree.read_save saved⟩
  have exits : (run directory arguments tree).1.status = 0 ↔
      options.owners.length ≤ 1 ∧ ∃ config, options.Describes config := by
    constructor
    · intro success
      by_contra undescribed
      rw [not_and] at undescribed
      rw [(fruitless_of_not_described spoken writing undescribed).status] at success
      contradiction
    · rintro ⟨few, config, describes⟩
      match owners : options.owners with
      | [] =>
        rw [run_out spoken writing owners describes]
        rfl
      | [owner] =>
        obtain ⟨after, same, -⟩ := saved owners describes
        rw [same]
        rfl
      | _ :: _ :: _ =>
        rw [owners] at few
        simp at few
  constructor
  · exact exits
  · intro failed
    rw [ne_eq, exits, not_and] at failed
    exact fruitless_of_not_described spoken writing failed
  · intro config nobody describes
    exact run_out spoken writing nobody describes
  · intro config owner one describes
    obtain ⟨after, same, read⟩ := saved one describes
    have valid := (Options.describes_iff.mp describes).2
    rw [same, Config.load, read]
    refine ⟨rfl, ?_⟩
    simp only [Except.mapError, Except.bind, Config.parse_text, valid, Except.map]
  · rintro config owner one describes again plain asks ⟨_, asked, out, nobody, values⟩ other
    obtain ⟨after, same, read⟩ := saved one describes
    rw [same, run_asksFor asks, Task.run_print read,
      run_out asked out nobody (describes.of_same values)]

theorem run_refused (spoken : Options.ofArguments arguments = .ok options)
    (printing : options.has .print = true)
    (refused : ¬(options.owners.length = 1 ∧ options.Bare)) :
    run directory arguments tree = (.refused helpText, tree) := by
  rw [run_spoken spoken, options.request?_eq]
  match owners : options.owners with
  | [] => simp only [printing, if_true]
  | [owner] =>
    have settings : options.hasSettings = true := by
      rw [← Bool.not_eq_false, Options.hasSettings_eq_false_iff]
      exact fun bare => refused ⟨by simp [owners], bare⟩
    simp only [printing, settings, if_true]
  | _ :: _ :: _ => rfl

theorem run_prints (spoken : Options.ofArguments arguments = .ok options)
    (printing : options.has .print = true) :
    Prints directory options tree (run directory arguments tree) := by
  by_cases accepted : options.owners.length = 1 ∧ options.Bare
  · obtain ⟨owner, one⟩ := List.length_eq_one_iff.mp accepted.1
    have only {other : Owner} (named : options.owners = [other]) : other = owner :=
      List.singleton_inj.mp (named.symm.trans one)
    have same : run directory arguments tree =
        (Task.ofRequest (some directory) (.print owner)).run tree :=
      run_asksFor ⟨options, spoken, printing, one, accepted.2⟩ tree
    cases read : tree.read (owner.file directory) with
    | ok text =>
      rw [same, Task.run_print read]
      refine ⟨rfl, ⟨?_, fun refused => absurd accepted refused⟩, ?_, ?_⟩
      · rintro ⟨⟩
      · intro other shown named _ found
        rw [only named, read] at found
        cases found
        rfl
      · intro other cause named _ found
        rw [only named, read] at found
        contradiction
    | error cause =>
      obtain ⟨reason, failed⟩ := Task.run_print_error read
      rw [same, failed]
      refine ⟨rfl, ⟨?_, fun refused => absurd accepted refused⟩, ?_, ?_⟩
      · intro refused
        exact absurd (congrArg Outcome.failure refused) (Option.some_ne_none _)
      · intro other text named _ found
        rw [only named, read] at found
        contradiction
      · intro other _ _ _ _
        exact ⟨reason, rfl⟩
  · rw [run_refused spoken printing accepted]
    refine ⟨rfl, ⟨fun _ => accepted, fun _ => rfl⟩, ?_, ?_⟩
    · intro owner text one bare _
      exact absurd ⟨by simp [one], bare⟩ accepted
    · intro owner cause one bare _
      exact absurd ⟨by simp [one], bare⟩ accepted

/-- All combinations of flags and values can be asked for. A request to write leaves the
whole configuration or nothing behind, as long as its file can be written, and a request
to print leaves all files as they are. -/
theorem written_or_left (directory : String) {options : Options} (sound : options.Sound) :
    (∃ arguments, Options.ofArguments arguments = .ok options) ∧
      ∀ arguments tree, Options.ofArguments arguments = .ok options →
        (options.has .print = false →
          (∀ owner, options.owners = [owner] →
            ∀ text, ∃ after, tree.save (owner.file directory) text = (.ok (), after)) →
          Writes directory options tree (run directory arguments tree)) ∧
        (options.has .print = true →
          Prints directory options tree (run directory arguments tree)) := by
  refine ⟨Options.exists_arguments_iff.mpr sound, fun arguments tree spoken => ⟨?_, ?_⟩⟩
  · intro writing possible
    exact run_writes spoken writing possible
  · intro printing
    exact run_prints spoken printing

def userOptions : Options where
  flags := [.user]
  values := [(.data, " d1, ,d2"), (.metadata, "m1"), (.backend, "gio"), (.path, "/srv")]

theorem written_or_left_user :
    userOptions.Sound ∧ ∃ arguments after,
      run "/home/u/.config" arguments .empty = (.success "", after) ∧
        Config.load after (Owner.file "/home/u/.config" .user) =
          .ok ⟨["d1", "d2"], ["m1"], .gio, "/srv"⟩ := by
  have sound : userOptions.Sound := by
    constructor
    all_goals decide
  have describes : userOptions.Describes ⟨["d1", "d2"], ["m1"], .gio, "/srv"⟩ := by
    rw [Options.describes_iff]
    decide +kernel
  obtain ⟨⟨arguments, spoken⟩, does⟩ := written_or_left "/home/u/.config" sound
  have leads : Owner.file "/home/u/.config" .user =
      ["tessera.toml", "tessera", ".config", "u", "home"] := by decide +kernel
  have possible : ∀ owner, userOptions.owners = [owner] → ∀ text, ∃ after,
      FileTree.empty.save (owner.file "/home/u/.config") text = (.ok (), after) := by
    rintro _ ⟨⟩ text
    rw [leads]
    exact FileTree.save_admits (FileTree.admits_empty (by decide) (by decide +kernel)) text
  have writes := (does arguments .empty spoken).1 rfl possible
  obtain ⟨printed, loaded⟩ := writes.saves _ .user rfl describes
  exact ⟨sound, arguments, _, Prod.ext printed rfl, loaded⟩

end CommandLine
end MetadataClient
