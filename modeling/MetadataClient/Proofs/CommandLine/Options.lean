import Mathlib.Data.List.Nodup
import MetadataClient.CommandLine.Options

/-! Which options can be given at all. Arguments are read as options that are given once
each, and with a path that is not empty; all such options are given by some arguments. -/
namespace MetadataClient.CommandLine

/-! ## Writing arguments -/

def Flag.argument (flag : Flag) : String :=
  String.ofList ('-' :: '-' :: flag.name.toList)

def Field.argument (field : Field) (value : String) : String :=
  String.ofList ('-' :: '-' :: (field.name.toList ++ '=' :: value.toList))

theorem Token.ofText_flag (flag : Flag) : Token.ofText flag.argument = .flag flag := by
  cases flag <;> decide

theorem Field.equals_not_mem (field : Field) : '=' ∉ field.name.toList := by
  cases field <;> decide

theorem Field.ofName?_name (field : Field) : Field.ofName? field.name = some field := by
  cases field <;> decide

theorem Token.ofText_field (field : Field) (value : String) :
    Token.ofText (field.argument value) = .field field (some value) := by
  obtain ⟨first, rest, named⟩ : ∃ first rest, field.name.toList = first :: rest := by
    cases field <;> exact ⟨_, _, rfl⟩
  have cut : Text.cut? '=' (first :: rest ++ '=' :: value.toList) =
      some (first :: rest, value.toList) :=
    named ▸ Text.cut?_append field.equals_not_mem value.toList
  rw [List.cons_append] at cut
  simp only [ofText, Field.argument, String.toList_ofList, named, List.cons_append, cut]
  rw [← named]
  simp only [String.ofList_toList, ofName, Field.ofName?_name]

namespace Options

variable {options read : Options}

/-- No option is given twice, and no path is empty. -/
structure Sound (options : Options) : Prop where
  flags : options.flags.Nodup
  fields : (options.values.map Prod.fst).Nodup
  path : (.path, "") ∉ options.values

def arguments (options : Options) : List String :=
  options.flags.reverse.map Flag.argument ++
    options.values.reverse.map fun (field, value) => field.argument value

theorem value?_eq_none_iff {field : Field} :
    options.value? field = none ↔ field ∉ options.values.map Prod.fst := by
  rw [value?, List.lookup_eq_none_iff]
  simp only [bne_iff_ne, List.mem_map, not_exists, not_and]
  exact forall₂_congr fun entry _ => ne_comm

theorem addFlag_eq_ok_iff {flag : Flag} :
    options.addFlag flag = .ok read ↔
      flag ∉ options.flags ∧ { options with flags := flag :: options.flags } = read := by
  by_cases given : flag ∈ options.flags <;> simp [addFlag, has, given]

theorem addValue_eq_ok_iff {field : Field} {value : String} :
    options.addValue field value = .ok read ↔
      field ∉ options.values.map Prod.fst ∧ (field, value) ≠ (.path, "") ∧
        { options with values := (field, value) :: options.values } = read := by
  rw [addValue, ← value?_eq_none_iff, ← Option.not_isSome_iff_eq_none, ne_eq, Prod.mk.injEq]
  by_cases given : (options.value? field).isSome = true
  · simp [given]
  · by_cases unfilled : field = .path ∧ value = "" <;> simp [given, unfilled]

/-! ## Reading them -/

theorem Sound.addFlag (sound : options.Sound) {flag : Flag}
    (added : options.addFlag flag = .ok read) : read.Sound := by
  obtain ⟨new, rfl⟩ := addFlag_eq_ok_iff.mp added
  exact ⟨List.nodup_cons.mpr ⟨new, sound.flags⟩, sound.fields, sound.path⟩

theorem Sound.addValue (sound : options.Sound) {field : Field} {value : String}
    (added : options.addValue field value = .ok read) : read.Sound := by
  obtain ⟨new, filled, rfl⟩ := addValue_eq_ok_iff.mp added
  refine ⟨sound.flags, List.nodup_cons.mpr ⟨new, sound.fields⟩, ?_⟩
  rw [List.mem_cons, not_or]
  exact ⟨Ne.symm filled, sound.path⟩

theorem Sound.addAll (sound : options.Sound) {arguments : List String}
    (added : options.addAll arguments = .ok read) : read.Sound := by
  have next {change : Except Stop Options} {rest : List String}
      (ih : ∀ between : Options, between.Sound → between.addAll rest = .ok read → read.Sound)
      (kept : ∀ between, change = .ok between → between.Sound)
      (added : change.bind (Options.addAll · rest) = .ok read) : read.Sound := by
    cases change with
    | error cause => contradiction
    | ok between => exact ih between (kept between rfl) added
  fun_induction Options.addAll options arguments with
  | case1 =>
    cases added
    exact sound
  | case2 => contradiction
  | case3 =>
    cases added
    exact sound
  | case4 => contradiction
  | case5 options argument rest flag said ih =>
    exact next (fun _ => ih _) (fun _ => sound.addFlag) added
  | case6 options argument rest field value said ih =>
    exact next (fun _ => ih _) (fun _ => sound.addValue) added
  | case7 => contradiction
  | case8 options argument field said value rest fits ih =>
    exact next (fun _ => ih _) (fun _ => sound.addValue) added
  | case9 => contradiction

theorem addAll_flags (options : Options) (flags : List Flag)
    (once : (flags.reverse ++ options.flags).Nodup) (rest : List String) :
    options.addAll (flags.map Flag.argument ++ rest) =
      { options with flags := flags.reverse ++ options.flags }.addAll rest := by
  induction flags generalizing options with
  | nil => rfl
  | cons flag flags ih =>
    rw [List.reverse_cons, List.append_assoc, List.singleton_append] at once
    have new : flag ∉ options.flags := (List.nodup_cons.mp (List.nodup_append.mp once).2.1).1
    have added := addFlag_eq_ok_iff.mpr ⟨new, rfl⟩
    have later := ih { options with flags := flag :: options.flags } once
    rw [List.map_cons, List.cons_append, addAll, Token.ofText_flag]
    simp only [added, Except.bind, later]
    rw [List.reverse_cons, List.append_assoc, List.singleton_append]

theorem addAll_values (options : Options) (values : List (Field × String))
    (sound : { options with values := values.reverse ++ options.values }.Sound) :
    options.addAll (values.map fun (field, value) => field.argument value) =
      .ok { options with values := values.reverse ++ options.values } := by
  induction values generalizing options with
  | nil => rfl
  | cons entry values ih =>
    obtain ⟨field, value⟩ := entry
    rw [List.reverse_cons, List.append_assoc, List.singleton_append] at sound ⊢
    have once := sound.fields
    rw [List.map_append, List.map_cons] at once
    have new : field ∉ options.values.map Prod.fst :=
      (List.nodup_cons.mp (List.nodup_append.mp once).2.1).1
    have filled : (field, value) ≠ (.path, "") := by
      intro empty
      rw [empty] at sound
      exact sound.path (List.mem_append_right _ List.mem_cons_self)
    have added := addValue_eq_ok_iff.mpr ⟨new, filled, rfl⟩
    rw [List.map_cons, addAll, Token.ofText_field]
    simp only [added, Except.bind]
    exact ih _ sound

/-- Arguments can be read as these options, and as no others. -/
theorem exists_arguments_iff :
    (∃ arguments, ofArguments arguments = .ok options) ↔ options.Sound := by
  constructor
  · rintro ⟨arguments, read⟩
    have sound : empty.Sound := ⟨List.nodup_nil, List.nodup_nil, List.not_mem_nil⟩
    exact sound.addAll read
  · intro sound
    refine ⟨options.arguments, ?_⟩
    have flags := addAll_flags empty options.flags.reverse
    have values := addAll_values { options with values := [] } options.values.reverse
    simp only [List.reverse_reverse, empty, List.append_nil] at flags values
    rw [ofArguments, arguments, empty, flags sound.flags, values sound]

end Options
end MetadataClient.CommandLine
